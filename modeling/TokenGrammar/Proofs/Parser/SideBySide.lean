import TokenGrammar.Proofs.Parser.Correspondence

namespace TokenGrammar

/-! The parts of a rule go alike at places that correspond. -/

namespace Parser

open Run (Corresponds)

variable {κ : Correspondence} {grammar : Grammar}

/-! The parts of a rule, over two parsers for what its fields hold that go alike where both look at
the next token. -/

section Rule

variable {content others : Symbol → Constraint → Parser Tree}
  (contents : ∀ symbol constraint,
    CarriesOut grammar (.content symbol constraint) (fun _ => 1) (content symbol constraint))
  (otherContents : ∀ symbol constraint,
    CarriesOut grammar (.content symbol constraint) (fun _ => 1) (others symbol constraint))
  (alike : ∀ symbol constraint start other, κ.Facing start other →
    Corresponds κ Eq κ.Place (content symbol constraint start) (others symbol constraint other))

section Items

variable {start other : Cursor} {between : Gap}

include alike in
theorem corresponds_separator (field : FieldDescriptor) (facing : κ.Facing start other) :
    Corresponds κ Eq κ.Place (separator content field start) (separator others field other) := by
  have place := κ.place_of_facing facing
  apply corresponds_attempt_bind (alike field.symbol field.tokens start other facing)
  · intro error otherError same
    by_cases optional : field.cardinality = .optional
    · simp only [optional, if_true]
      exact corresponds_pure rfl place
    · simp only [optional, if_false]
      exact corresponds_fail same
  · exact fun tree => steady_pure ()
  · intro tree otherTree stop otherStop _ after _ _
    exact corresponds_pure rfl after

include contents alike in
/-- Before an item both parses come to its first token. -/
theorem corresponds_gap (clears : κ.Clears between.drop) (before : Nat)
    (place : κ.Place start other) :
    Corresponds κ Eq κ.Facing (gap content between before start)
      (gap others between before other) := by
  have steadily (field : FieldDescriptor) :
      (separator content field >>= fun _ => dropTokens between.drop).Steady :=
    ((separator_carriesOut contents field).steady (by simp)).bind fun _ => steady_dropTokens _
  cases present : between.separator with
  | none =>
      simp only [gap, present]
      exact corresponds_bind (corresponds_dropTokens clears place) (fun _ => steady_pure ())
        fun _ _ stop otherStop _ facing _ _ => corresponds_pure rfl facing
  | some field =>
      by_cases first : before = 0
      · simp only [gap, present, first, if_true]
        exact corresponds_bind (corresponds_dropTokens clears place) (fun _ => steady_pure ())
          fun _ _ stop otherStop _ facing _ _ => corresponds_pure rfl facing
      · simp only [gap, present, first, if_false]
        apply corresponds_bind (corresponds_dropTokens clears place) (fun _ => steadily field)
        intro _ _ stop otherStop _ facing _ _
        apply corresponds_bind (corresponds_separator alike field facing)
          fun _ => steady_dropTokens _
        intro _ _ stop otherStop _ place _ _
        exact corresponds_dropTokens clears place

include contents alike

theorem corresponds_item (clears : κ.Clears between.drop) (field : FieldDescriptor) (before : Nat)
    (place : κ.Place start other) :
    Corresponds κ Eq κ.Place (item content between field before start)
      (item others between field before other) := by
  apply corresponds_bind (corresponds_gap contents alike clears before place)
  · exact fun _ => (contents field.symbol field.tokens).steady (by simp)
  · intro _ _ stop otherStop _ facing _ _
    exact alike field.symbol field.tokens stop otherStop facing

theorem corresponds_repetition (clears : κ.Clears between.drop) (field : FieldDescriptor)
    (before count : Nat) (place : κ.Place start other) :
    Corresponds κ Eq κ.Place (repetition content between field before count start)
      (repetition others between field before count other) := by
  have items {start other : Cursor} (place : κ.Place start other) :
      Corresponds κ Eq κ.Place (item content between field (before + count) start)
        (item others between field (before + count) other) :=
    corresponds_item contents alike clears field (before + count) place
  have steadily : (item content between field (before + count)).Steady :=
    (item_carriesOut contents between field (before + count)).steady (by simp)
  by_cases separated : count ≠ 0 ∧ field.separator.isEmpty = false
  · simp only [repetition, if_pos separated]
    apply corresponds_bind (corresponds_dropTokens clears place)
      fun _ => (steady_matchNext _).bind fun _ => steadily
    intro _ _ stop otherStop _ facing _ _
    apply corresponds_bind (corresponds_matchNext facing) fun _ => steadily
    intro _ _ stop otherStop _ place _ _
    exact items place
  · simp only [repetition, if_neg separated]
    exact items place

omit alike in
theorem repetitions_carriesOut (rule : String) (between : Gap) (field : FieldDescriptor)
    (before steps count : Nat) :
    CarriesOut grammar (.repetitions rule between field before 0 count) (·.1.length)
      (repetitions content between field before steps count) := by
  intro start
  rcases repetitions_outcome content between field before start steps count with
    ⟨journal, trees, error, next, ran, repeats⟩ | ⟨journal, fault, stop, ran⟩
  · rw [ran]
    exact .of_matched ((repeats.performs contents rule 0).1 (Nat.zero_le _))
  · rw [ran]
    exact .of_stuck

include otherContents

omit alike in
/-- A repetition has moved one parse if and only if it has moved the other one. -/
theorem repetition_moves {field : FieldDescriptor} {before count : Nat}
    (moves : κ.Level ∨ ¬ grammar.MayIdle field.symbol field.tokens)
    (place : κ.Place start other) (after : κ.Place next otherNext)
    (matched : (repetition content between field before count start).outcome =
      .matched tree next)
    (otherMatched : (repetition others between field before count other).outcome =
      .matched otherTree otherNext) :
    next.pos = start.pos ↔ otherNext.pos = other.pos := by
  rcases moves with level | busy
  · exact level _ _ _ _ place after
  · have done := repetition_carriesOut contents between field before count start (.matched 1 next)
      (by rw [matched]; rfl)
    have otherDone := repetition_carriesOut otherContents between field before count other
      (.matched 1 otherNext) (by rw [otherMatched]; rfl)
    exact ⟨fun idle => absurd (done.idles _ _ rfl idle).2.2 busy,
      fun idle => absurd (otherDone.idles _ _ rfl idle).2.2 busy⟩

/-- The bounds on the repetitions may differ, as long as the second one is large enough. -/
theorem corresponds_repetitions {field : FieldDescriptor} (clears : κ.Clears between.drop)
    (moves : κ.Level ∨ ¬ grammar.MayIdle field.symbol field.tokens) (before : Nat)
    {steps otherSteps count : Nat} (place : κ.Place start other)
    (enough : other.rest.length < otherSteps) :
    Corresponds κ (fun first second => first.1 = second.1 ∧ Option.Rel κ.Error first.2 second.2)
      κ.Place (repetitions content between field before steps count start)
      (repetitions others between field before otherSteps count other) := by
  have steadily (steps count : Nat) :
      (repetitions content between field before steps count).Steady :=
    (repetitions_carriesOut contents "" between field before steps count).steady (by simp)
  induction steps generalizing start other otherSteps count with
  | zero => exact .stuck
  | succ steps ih =>
      obtain ⟨otherSteps, rfl⟩ : ∃ fewer, otherSteps = fewer + 1 := ⟨otherSteps - 1, by omega⟩
      by_cases allowed : field.size.allowsMore count = true
      · simp only [repetitions, allowed, if_true, here_bind_run]
        apply corresponds_attempt_bind
          (corresponds_repetition contents alike clears field before count place)
        · exact fun error otherError same => corresponds_pure ⟨rfl, .some same⟩ place
        · intro tree place
          simp only [here_bind_run]
          by_cases idle : place.pos = start.pos
          · simp only [if_pos idle]
            exact steady_pure _ place
          · simp only [if_neg idle]
            exact ((steadily steps (count + 1)).bind fun _ => steady_pure _) place
        · intro tree otherTree stop otherStop same after matched otherMatched
          have moved := repetition_moves contents otherContents moves place after matched
            otherMatched
          subst same
          simp only [here_bind_run]
          by_cases idle : stop.pos = start.pos
          · simp only [idle, moved.mp idle, if_true]
            exact corresponds_pure ⟨rfl, .none⟩ after
          · have otherMoved : otherStop.pos ≠ other.pos := fun same => idle (moved.mpr same)
            simp only [idle, otherMoved, if_false]
            have otherDone := repetition_carriesOut otherContents between field before count other
              (.matched 1 otherStop) (by rw [otherMatched]; rfl)
            obtain ⟨taken, consumes⟩ := otherDone.follows _ _ rfl
            have fewer := consumes.length_lt otherMoved
            apply corresponds_bind (ih after (by omega))
            · exact fun _ => steady_pure _
            · rintro ⟨trees, error⟩ ⟨_, otherError⟩ stop otherStop ⟨rfl, errors⟩ place _ _
              exact corresponds_pure ⟨rfl, errors⟩ place
      · simp only [repetitions, allowed]
        exact corresponds_pure ⟨rfl, .none⟩ place


omit otherContents alike in
/-- The failure that ends some repetitions lies behind all of them. -/
theorem Repeats.reaches {field : FieldDescriptor} {before count : Nat} {trees : List Tree}
    {error : ParseError}
    (repeats : Repeats content between field before count start journal trees (some error) next) :
    ∃ failure ∈ Event.errors journal, next.pos ≤ failure.pos := by
  generalize ended : some error = stopping at repeats
  induction repeats with
  | full | stalled => cases ended
  | @stopped count start journal error stop allowed failed =>
      have done := repetition_carriesOut contents between field before count start (.failed stop)
        (by rw [failed]; rfl)
      rw [failed] at done
      rcases done.reaches (by simp) with reached | ⟨_, _, matched, _⟩
      · exact reached
      · cases matched
  | more allowed matched moved rest ih =>
      obtain ⟨failure, member, within⟩ := ih ended
      exact ⟨failure, by simp [Event.errors_append, member], within⟩

theorem corresponds_repeated {field : FieldDescriptor} (clears : κ.Clears between.drop)
    (moves : κ.Level ∨ ¬ grammar.MayIdle field.symbol field.tokens) (rule : String)
    (before least : Nat) (place : κ.Place start other) :
    Corresponds κ Eq κ.Place (repeated content rule between field before least start)
      (repeated others rule between field before least other) := by
  simp only [repeated, here_bind_run]
  apply corresponds_bind_reaching (corresponds_repetitions contents otherContents alike clears moves
    before place (Nat.lt_succ_self _))
  · rintro ⟨trees, error⟩ stop matched
    rw [bind_run]
    rcases repetitions_outcome content between field before start (start.rest.length + 1) 0 with
      ⟨journal, found, failure, next, ran, repeats⟩ | ⟨journal, fault, next, ran⟩
    · rw [ran] at matched ⊢
      cases matched
      by_cases short : trees.length < least
      · cases error with
        | some error =>
            obtain ⟨failure, member, within⟩ := repeats.reaches contents
            exact .inr (.of_errors member within _ _)
        | none =>
            simp only [if_pos short]
            exact (steady_reject _ stop).imp_right (·.behind)
      · simp only [if_neg short]
        exact (steady_pure trees stop).imp_right (·.behind)
    · rw [ran] at matched
      cases matched
  · rintro ⟨trees, error⟩ ⟨_, otherError⟩ stop otherStop ⟨rfl, errors⟩ after _ _
    by_cases short : trees.length < least
    · simp only [if_pos short]
      cases errors with
      | some same => exact corresponds_fail same
      | none => exact corresponds_reject after rfl
    · simp only [if_neg short]
      exact corresponds_pure rfl after

end Items

variable {rule : Descriptor} {start other : Cursor}

include contents otherContents alike

theorem corresponds_fieldValues {field : FieldDescriptor} (suits : κ.Suits grammar rule)
    (member : field ∈ rule.fields) (before : Nat) (place : κ.Place start other) :
    Corresponds κ Eq κ.Place (fieldValues content rule field before start)
      (fieldValues others rule field before other) := by
  have once : Corresponds κ Eq κ.Place (item content (.ofRule rule) field before start)
      (item others (.ofRule rule) field before other) :=
    corresponds_item contents alike suits.drop field before place
  cases cardinality : field.cardinality with
  | single =>
      simp only [fieldValues, cardinality]
      apply corresponds_bind once fun _ => steady_pure _
      rintro tree _ stop otherStop rfl after _ _
      exact corresponds_pure rfl after
  | optional =>
      simp only [fieldValues, cardinality]
      apply corresponds_attempt_bind once
      · exact fun _ _ _ => corresponds_pure rfl place
      · exact fun _ => steady_pure _
      · rintro tree _ stop otherStop rfl after _ _
        exact corresponds_pure rfl after
  | repeated =>
      simp only [fieldValues, cardinality]
      exact corresponds_repeated contents otherContents alike suits.drop
        (suits.moves field member cardinality) rule.name before field.size.min place

theorem corresponds_sequence (suits : κ.Suits grammar rule) {fields : List FieldDescriptor}
    (members : ∀ field ∈ fields, field ∈ rule.fields) (before : Nat)
    (place : κ.Place start other) :
    Corresponds κ Eq κ.Place (sequence content rule fields before start)
      (sequence others rule fields before other) := by
  induction fields generalizing before start other with
  | nil =>
      by_cases nothing : before = 0
      · simp only [sequence, nothing, if_true]
        exact corresponds_reject place rfl
      · simp only [sequence, nothing, if_false]
        exact corresponds_pure rfl place
  | cons field rest ih =>
      have later : ∀ field ∈ rest, field ∈ rule.fields :=
        fun other member => members other (List.mem_cons_of_mem _ member)
      apply corresponds_bind (corresponds_fieldValues contents otherContents alike suits
        (members field (by simp)) before place)
      · exact fun values => ((sequence_carriesOut contents rule rest _).steady (by simp)).bind
          fun _ => steady_pure _
      · rintro trees _ stop otherStop rfl after _ _
        apply corresponds_bind (ih later (before + trees.length) after) fun _ => steady_pure _
        rintro slots _ stop otherStop rfl after _ _
        exact corresponds_pure rfl after

theorem corresponds_alternative {field : FieldDescriptor} (suits : κ.Suits grammar rule)
    (combinator : rule.combinator = .oneOf) (member : field ∈ rule.fields)
    (facing : κ.Facing start other) :
    Corresponds κ Eq κ.Place (alternative content rule field start)
      (alternative others rule field other) := by
  by_cases cardinality : field.cardinality = .repeated
  · simp only [alternative, cardinality]
    exact corresponds_repeated contents otherContents alike
      (suits.lists combinator field member cardinality) (suits.moves field member cardinality)
      rule.name 0 _ (κ.place_of_facing facing)
  · simp only [alternative]
    apply corresponds_bind (alike field.symbol field.tokens start other facing)
      fun _ => steady_pure _
    rintro tree _ stop otherStop rfl after _ _
    exact corresponds_pure rfl after

/-- Each alternative is tried from the same place. -/
theorem corresponds_choice (suits : κ.Suits grammar rule) (combinator : rule.combinator = .oneOf)
    {fields : List FieldDescriptor} (members : ∀ field ∈ fields, field ∈ rule.fields)
    (facing : κ.Facing start other) (gathered : Option.Rel κ.Error earlier otherEarlier) :
    Corresponds κ Eq κ.Place (choice content rule fields earlier start)
      (choice others rule fields otherEarlier other) := by
  induction fields generalizing earlier otherEarlier with
  | nil =>
      cases gathered with
      | some same => exact corresponds_fail same
      | none => exact corresponds_reject (κ.place_of_facing facing) rfl
  | cons field rest ih =>
      have later : ∀ field ∈ rest, field ∈ rule.fields :=
        fun other member => members other (List.mem_cons_of_mem _ member)
      apply corresponds_attempt_bind (corresponds_alternative contents otherContents alike suits
        combinator (members field (by simp)) facing)
      · intro error otherError same
        apply corresponds_bind (ih later (.some (κ.gather gathered same))) fun _ => steady_pure _
        rintro slots _ stop otherStop rfl after _ _
        exact corresponds_pure rfl after
      · exact fun _ => steady_pure _
      · rintro trees _ stop otherStop rfl after _ _
        exact corresponds_pure rfl after

theorem corresponds_body (suits : κ.Suits grammar rule) (place : κ.Place start other) :
    Corresponds κ Eq κ.Place (body content rule start) (body others rule other) := by
  cases combinator : rule.combinator with
  | seq =>
      simp only [body, combinator]
      exact corresponds_sequence contents otherContents alike suits (fun _ member => member) 0 place
  | oneOf =>
      simp only [body, combinator]
      apply corresponds_bind (corresponds_dropTokens suits.drop place)
      · exact fun _ => (choice_carriesOut contents rule rule.fields none).steady (by simp)
      · intro _ _ stop otherStop _ facing _ _
        exact corresponds_choice contents otherContents alike suits combinator
          (fun _ member => member) facing .none

theorem corresponds_node {name : String} (suits : κ.Suits grammar rule) (guard : Constraint)
    (defined : grammar.find? name = some (.ok rule)) (some : rule.fields ≠ [])
    (sound : ∀ field ∈ rule.fields, field.size.Sound) (place : κ.Place start other) :
    Corresponds κ Eq κ.Place (node content rule guard start) (node others rule guard other) := by
  rcases suits.drop start other place with beyond | facing
  · refine .of_beyond beyond ((node_carriesOut contents guard defined start).reaches ?_)
    exact fun performed =>
      performed.rule_reaches defined some fun field member => (sound field member).allowsMore_zero
  · apply corresponds_bind (corresponds_guarded guard place facing)
    · exact fun _ => ((body_carriesOut contents rule).steady (by simp)).within.bind fun _ =>
        steady_pure _
    · intro _ _ stop otherStop _ after _ _
      apply corresponds_bind (corresponds_within
        (corresponds_body contents otherContents alike suits after)) fun _ => steady_pure _
      rintro slots _ stop otherStop rfl after _ _
      exact corresponds_pure rfl after

omit contents otherContents alike in
theorem corresponds_nodeless {name : String} (suits : κ.Suits grammar rule) (guard : Constraint)
    (defined : grammar.find? name = some (.ok rule)) (some : rule.fields ≠ [])
    (sound : ∀ field ∈ rule.fields, field.size.Sound) (place : κ.Place start other) :
    Corresponds κ Eq κ.Place (nodeless rule guard start) (nodeless rule guard other) := by
  rcases suits.drop start other place with beyond | facing
  · refine .of_beyond beyond ((Grammar.nodeless_carriesOut guard defined start).reaches ?_)
    exact fun performed =>
      performed.rule_reaches defined some fun field member => (sound field member).allowsMore_zero
  · exact corresponds_bind (corresponds_guarded guard place facing) (fun _ _ => .inl rfl)
      fun _ _ _ _ _ _ _ _ => .stuck

end Rule
end Parser

namespace Grammar

open TokenGrammar.Parser

variable {κ : Correspondence} {grammar : Grammar}

theorem corresponds_contentParser {rules others : String → Constraint → Parser Tree}
    (nodes : ∀ name guard start other, κ.Place start other →
      Run.Corresponds κ Eq κ.Place (rules name guard start) (others name guard other))
    (symbol : Symbol) (constraint : Constraint) (start other : Cursor)
    (facing : κ.Facing start other) :
    Run.Corresponds κ Eq κ.Place (contentParser rules symbol constraint start)
      (contentParser others symbol constraint other) := by
  induction symbol with
  | token | mark =>
      apply corresponds_bind (corresponds_matchNext facing) fun _ => steady_pure _
      rintro token _ stop otherStop rfl after _ _
      exact corresponds_pure rfl after
  | rule name => exact nodes name constraint start other (κ.place_of_facing facing)
  | boxed symbol ih => exact ih

/-- The second parser may nest rules deeper. -/
theorem corresponds_ruleParser (sized : grammar.Sized)
    (suits : ∀ name rule, grammar.find? name = some (.ok rule) → κ.Suits grammar rule)
    {depth otherDepth : Nat} (deep : depth ≤ otherDepth) (name : String) (guard : Constraint)
    (start other : Cursor) (place : κ.Place start other) :
    Run.Corresponds κ Eq κ.Place (grammar.ruleParser depth name guard start)
      (grammar.ruleParser otherDepth name guard other) := by
  induction depth generalizing otherDepth name guard start other with
  | zero => exact .stuck
  | succ depth ih =>
      obtain ⟨otherDepth, rfl⟩ : ∃ less, otherDepth = less + 1 := ⟨otherDepth - 1, by omega⟩
      simp only [ruleParser]
      cases defined : grammar.find? name with
      | none => exact .stuck
      | some compiled =>
          cases compiled with
          | error error => exact .stuck
          | ok rule =>
              obtain ⟨some, sound⟩ := sized name rule defined
              simp only
              split
              · exact corresponds_node (contentParser_carriesOut (ruleParser_carriesOut depth))
                  (contentParser_carriesOut (ruleParser_carriesOut otherDepth))
                  (corresponds_contentParser (ih (Nat.le_of_succ_le_succ deep)))
                  (suits name rule defined) guard defined some sound place
              · exact corresponds_nodeless (suits name rule defined) guard defined some sound place

end Grammar

/-! Two parsers at the same place, of which the second may nest rules deeper. -/

namespace Correspondence

/-- Both parses do the same with the same tokens. -/
def same : Correspondence :=
  .ofPlaces Eq (fun _ => False) (fun same => by rw [same]) (fun same _ => .inr (by rw [same]))
    (fun _ same => by rw [same])

theorem same_suits (grammar : Grammar) (rule : Descriptor) : same.Suits grammar rule where
  drop _ _ place := .inr (congrArg (Cursor.skip rule.drop) place)
  lists _ _ _ _ _ _ place := .inr (congrArg (Cursor.skip .anyToken) place)
  moves _ _ _ := .inl fun start other next otherNext place after => by
    cases place
    cases after
    rfl

end Correspondence

theorem Run.Corresponds.of_same {κ : Correspondence} {values : α → α → Prop}
    {ends : Cursor → Cursor → Prop} {run other again : Run α}
    (corresponds : Corresponds κ values ends run other)
    (same : Corresponds .same Eq Eq again other) (free : again.outcome.isStuck = false) :
    Corresponds κ values ends run again := by
  cases same with
  | stuck => cases free
  | escaped escapes =>
      obtain ⟨_, beyond, _⟩ := escapes
      exact beyond.elim
  | matched notes value place =>
      cases value
      cases place
      cases corresponds with
      | stuck => exact .stuck
      | escaped escapes => exact .escaped escapes
      | matched alike value place => exact .matched (notes.symm ▸ alike) value place
  | failed notes error =>
      cases error
      cases corresponds with
      | stuck => exact .stuck
      | escaped escapes => exact .escaped escapes
      | failed alike error => exact .failed (notes.symm ▸ alike) error

namespace Grammar

variable {κ : Correspondence} {grammar : Grammar}

/-- A symbol is parsed alike at places that face the same token; a rule only needs places that
correspond. -/
theorem corresponds_parse (total : grammar.Total) (wellFounded : ¬ grammar.LeftRecursive)
    (sized : grammar.Sized)
    (suits : ∀ name rule, grammar.find? name = some (.ok rule) → κ.Suits grammar rule)
    {symbol : Symbol} (defined : grammar.Defines symbol) (constraint : Constraint)
    {start other : Cursor}
    (ready : κ.Facing start other ∨ ∃ name, symbol = .rule name ∧ κ.Place start other) :
    Run.Corresponds κ Eq κ.Place (grammar.parse symbol constraint start)
      (grammar.parse symbol constraint other) := by
  let deep := max (grammar.depthBound start) (grammar.depthBound other)
  have deeper : Run.Corresponds .same Eq Eq (grammar.parse symbol constraint other)
      (contentParser (grammar.ruleParser deep) symbol constraint other) :=
    corresponds_contentParser
      (corresponds_ruleParser sized (fun _ rule _ => Correspondence.same_suits grammar rule)
        (Nat.le_max_right _ _))
      symbol constraint other other rfl
  refine Run.Corresponds.of_same ?_ deeper (free_parse total wellFounded defined constraint other)
  have rules := corresponds_ruleParser sized suits
    (Nat.le_max_left (grammar.depthBound start) (grammar.depthBound other))
  rcases ready with facing | ⟨name, rfl, place⟩
  · exact corresponds_contentParser rules symbol constraint start other facing
  · exact rules name constraint start other place

end Grammar
end TokenGrammar
