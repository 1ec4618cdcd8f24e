import TokenGrammar.Proofs.Grammar.Admissible
import TokenGrammar.Proofs.Parser.Backtracking
import TokenGrammar.Proofs.Parser.Reach

namespace TokenGrammar

/-! A grammar without left recursion never gets stuck, unless for want of a default value: a rule
that is asked for before a token has been consumed has a smaller rank, and there are only so many
tokens. -/

variable {grammar : Grammar}

/-- What a task that matches without consuming a token, with a number of values, says about the
declarations. -/
def Task.Idles (grammar : Grammar) : Task → Nat → Prop
  | .check constraint, made => made = 1 ∧ constraint.LooksAhead
  | .content symbol constraint, made => made = 1 ∧ grammar.MayIdle symbol constraint
  | .separator field, _ =>
    field.cardinality = .optional ∨ grammar.MayIdle field.symbol field.tokens
  | .gap between before, _ => grammar.MayAdjoin between before
  | .item between field before, made =>
    grammar.MayAdjoin between before ∧ made = 1 ∧ grammar.MayIdle field.symbol field.tokens
  | .repetition between field before count, made => grammar.MayAdjoin between (before + count) ∧
    made = 1 ∧ grammar.MayIdle field.symbol field.tokens
  | .repetitions _ between field before least count, made =>
    (made = 0 ∧ least ≤ count) ∨ (made = 1 ∧ least ≤ count + 1 ∧
      grammar.MayAdjoin between (before + count) ∧ grammar.MayIdle field.symbol field.tokens)
  | .values rule field before, made =>
    (made = 0 ∧ field.cardinality ≠ .single ∧
      (field.cardinality = .repeated → field.size.min = 0)) ∨
    (made = 1 ∧ grammar.MayAdjoin (.ofRule rule) before ∧
      (field.cardinality = .repeated → field.size.min ≤ 1) ∧
      grammar.MayIdle field.symbol field.tokens)
  | .fields rule rest before, made =>
    grammar.ComesTo rule rest before →
      before + made ≠ 0 ∧ grammar.ComesTo rule [] (before + made)
  | .alternative _ field, _ =>
    (field.cardinality = .repeated → field.size.min ≤ 1) ∧
      grammar.MayIdle field.symbol field.tokens
  | .alternatives _ rest _, _ => ∃ field ∈ rest,
    (field.cardinality = .repeated → field.size.min ≤ 1) ∧
      grammar.MayIdle field.symbol field.tokens
  | .body rule, _ => ∀ name guard, grammar.find? name = some (.ok rule) →
    grammar.MayIdle (.rule name) guard

/-- What holds of the number of values if a task matches where it starts. -/
def Ending.IfIdle (start : Cursor) (ending : Ending) (holds : Nat → Prop) : Prop :=
  ∀ count next, ending = .matched count next → next.pos = start.pos → holds count

namespace Ending.IfIdle

variable {start middle : Cursor} {ending : Ending} {holds further : Nat → Prop}

theorem of_failed : IfIdle start (.failed stop) holds := by
  intro count next ends
  cases ends

theorem of_moved (moved : next.pos ≠ start.pos) : IfIdle start (.matched count next) holds := by
  intro _ _ ends same
  cases ends
  exact absurd same moved

theorem of_any (ending : Ending) : IfIdle start ending fun _ => True :=
  fun _ _ _ _ => trivial

theorem of_holds (always : holds count) : IfIdle start (.matched count next) holds := by
  intro _ _ ends _
  cases ends
  exact always

theorem mono (idle : IfIdle start ending holds) (implies : ∀ count, holds count → further count) :
    IfIdle start ending further :=
  fun count next ends same => implies _ (idle count next ends same)

/-- A whole that consumes nothing consumes nothing in its second part, nor in its first. -/
theorem trans {first second : Nat → Prop} (idle : IfIdle start (.matched count middle) first)
    (more : IfIdle middle ending second) (follows : Follows start (.matched count middle))
    (followsMore : Follows middle ending) :
    IfIdle start ending fun made => first count ∧ second made := by
  rintro made next rfl same
  have before := follows.pos_le
  have after := followsMore.pos_le
  exact ⟨idle _ _ rfl (by omega), more _ _ rfl (by omega)⟩

theorem behind_moved (moved : middle.pos ≠ start.pos)
    (follows : Follows start (.matched count middle)) (followsMore : Follows middle ending) :
    IfIdle start ending holds := by
  rintro made next rfl same
  have before := follows.pos_le
  have after := followsMore.pos_le
  omega

/-- Tokens that are dropped are consumed, too. -/
theorem behind (idle : IfIdle (start.skip drop) ending holds)
    (follows : Follows (start.skip drop) ending) : IfIdle start ending holds := by
  rintro made next rfl same
  have before := start.pos_le_skip drop
  have after := follows.pos_le
  exact idle _ _ rfl (by omega)

/-- A match that goes on to a later place, with any number of values. -/
theorem onward (idle : IfIdle start (.matched count middle) holds)
    (follows : Follows start (.matched count middle)) (later : middle.pos ≤ next.pos) :
    IfIdle start (.matched total next) fun _ => holds count := by
  rintro _ _ ends same
  cases ends
  have before := follows.pos_le
  exact idle _ _ rfl (by omega)

theorem ofBody (idle : IfIdle start ending holds) (implies : ∀ count, holds count → further 1) :
    IfIdle start (ending.ofBody start) further := by
  cases ending with
  | matched count next =>
      rintro _ _ ends same
      cases ends
      exact implies _ (idle _ _ rfl same)
  | failed stop => exact .of_failed

theorem add (idle : IfIdle start ending holds) (before : Nat)
    (implies : ∀ count, holds count → further (before + count)) :
    IfIdle start (ending.add before) further := by
  cases ending with
  | matched count next =>
      rintro _ _ ends same
      cases ends
      exact implies _ (idle _ _ rfl same)
  | failed stop => exact .of_failed

end Ending.IfIdle

namespace Grammar.Performs

open Ending (IfIdle Follows)

theorem idles (performed : grammar.Performs task start journal ending) :
    IfIdle start ending (task.Idles grammar) := by
  induction performed with
  | anyToken unconstrained present =>
      have moved := (Cursor.consumes_advance present).pos
      exact .of_moved (by simp only [List.length_cons, List.length_nil] at moved; omega)
  | @accepted pattern constraint start constrained found =>
      by_cases looking : pattern.lookahead = true
      · exact .of_holds ⟨rfl, _, pattern, found, looking⟩
      · rw [if_neg looking]
        have moved := (Cursor.consumes_advance (Cursor.peek_of_found found)).pos
        exact .of_moved (by simp only [List.length_cons, List.length_nil] at moved; omega)
  | token _ check => exact check.mono fun _ looks => ⟨looks.1, .token looks.2⟩
  | mark _ check => exact check.mono fun _ looks => ⟨looks.1, .mark looks.2⟩
  | boxed _ content => exact content.mono fun _ idle => ⟨idle.1, .boxed idle.2⟩
  | unguarded defined _ _ body | guarded defined _ _ _ _ body =>
      exact body.ofBody fun _ idle => ⟨rfl, idle _ _ defined⟩
  | separated content idle =>
      exact (idle.onward content.follows (Nat.le_refl _)).mono fun _ idle => .inr idle.2
  | leftOut optional => exact .of_holds (.inl optional)
  | plainGap plain =>
      rcases plain with plain | first
      · exact .of_holds (.unseparated plain)
      · subst first
        exact .of_holds .first
  | @separatedGap _ _ _ _ between _ next present later separator idle =>
      have passed : IfIdle _ (.matched 0 (next.skip between.drop)) _ :=
        idle.onward separator.follows (next.pos_le_skip between.drop)
      refine (passed.behind (separator.follows.trans (.skip _ _))).mono fun _ passed => ?_
      rcases passed with optional | idle
      · exact .leftOut present optional
      · exact .idle present idle
  | item gap content adjoins idle => exact adjoins.trans idle gap.follows content.follows
  | separatedRepetition later separated check item _ idle =>
      have both := (IfIdle.of_any _).trans idle check.follows item.follows
      exact (both.behind (check.follows.trans item.follows)).mono fun _ both => both.2
  | full _ enough | stopped _ _ enough => exact .of_holds (.inl ⟨rfl, enough⟩)
  | stalled _ repetition _ enough idle =>
      intro _ _ ends same
      cases ends
      obtain ⟨adjoins, _, idle⟩ := idle _ _ rfl same
      exact .inr ⟨rfl, enough, adjoins, idle⟩
  | repeats _ repetition moved more _ idle =>
      exact (IfIdle.behind_moved moved repetition.follows more.follows).add 1 fun _ never => never
  | single cardinality _ item | present cardinality _ item =>
      refine item.mono fun made idle => ?_
      obtain ⟨adjoins, one, idle⟩ := idle
      exact .inr ⟨one, adjoins, by simp [cardinality], idle⟩
  | absent cardinality => 
      exact .of_holds (.inl ⟨rfl, by simp [cardinality], by simp [cardinality]⟩)
  | repeated cardinality _ repetitions =>
      refine repetitions.mono fun made idle => ?_
      rcases idle with ⟨none, enough⟩ | ⟨one, enough, adjoins, idle⟩
      · exact .inl ⟨none, by simp [cardinality], fun _ => by omega⟩
      · exact .inr ⟨one, adjoins, fun _ => by omega, idle⟩
  | noMoreFields some => exact .of_holds fun comes => ⟨by simpa using some, by simpa using comes⟩
  | fields values more first second =>
      refine (first.trans second values.follows more.follows).add _ fun made both comes => ?_
      obtain ⟨idle, onward⟩ := both
      rw [← Nat.add_assoc]
      rcases idle with ⟨none, optional, unneeded⟩ | ⟨one, adjoins, few, idle⟩
      · subst none
        exact onward (comes.without optional unneeded)
      · subst one
        exact onward (comes.behind adjoins few idle)
  | lone cardinality _ content =>
      exact content.mono fun _ idle => ⟨fun repeated => absurd repeated cardinality, idle.2⟩
  | list cardinality _ repetitions =>
      refine repetitions.mono fun made idle => ?_
      rcases idle with ⟨none, enough⟩ | ⟨one, enough, adjoins, idle⟩
      · omega
      · exact ⟨fun _ => by omega, idle⟩
  | chosen alternative idle => exact idle.mono fun _ idle => ⟨_, by simp, idle⟩
  | passedOver _ _ _ idle =>
      refine idle.mono fun _ ⟨field, member, found⟩ => ?_
      exact ⟨field, by simp [member], found⟩
  | sequence combinator _ idle =>
      refine idle.mono fun made onward name guard defined => ?_
      obtain ⟨some, comes⟩ := onward .start
      exact .sequence defined combinator comes some
  | choice combinator alternatives idle =>
      refine (idle.behind alternatives.follows).mono fun made found name guard defined => ?_
      obtain ⟨field, member, few, idle⟩ := found
      exact .choice defined combinator member few idle
  | plainRepetition _ _ item => exact item
  | atEnd | refused | guardFails | unseparated | brokenGap | itemCutOff | repetitionCutOff
  | fullShort | stoppedShort | stalledShort | nothing | fieldFails | noAlternative
  | noMoreAlternatives => exact .of_failed

end Grammar.Performs

/-! A place where fewer tokens are left than where a rule began, or as many and some condition
holds of the way there. -/

namespace Cursor

def Behind (left : Nat) (condition : Prop) (place : Cursor) : Prop :=
  place.rest.length < left ∨ (place.rest.length = left ∧ condition)

theorem Consumes.length {start next : Cursor} (consumes : start.Consumes taken next) :
    start.rest.length = taken.length + next.rest.length := by
  rw [consumes.rest, List.length_append]

theorem Consumes.length_lt {start next : Cursor} (consumes : start.Consumes taken next)
    (moved : next.pos ≠ start.pos) : next.rest.length < start.rest.length := by
  have fewer := consumes.length
  have further := consumes.pos
  omega

namespace Behind

variable {place next : Cursor} {left : Nat} {condition further : Prop}

theorem mono (behind : Behind left condition place) (implies : condition → further) :
    Behind left further place :=
  behind.imp_right fun ⟨same, holds⟩ => ⟨same, implies holds⟩

theorem consumes (behind : Behind left condition place) (consumes : place.Consumes taken next)
    (implies : condition → next.pos = place.pos → further) : Behind left further next := by
  have fewer := consumes.length
  rcases behind with before | ⟨same, holds⟩
  · exact .inl (by omega)
  · by_cases idle : next.pos = place.pos
    · have further := consumes.pos
      exact .inr ⟨by omega, implies holds idle⟩
    · have := consumes.length_lt idle
      exact .inl (by omega)

theorem skip (behind : Behind left condition place) (drop : Constraint) :
    Behind left condition (place.skip drop) := by
  obtain ⟨_, _, consumes⟩ := place.consumes_skip drop
  exact behind.consumes consumes fun holds _ => holds

/-- A task that matches has consumed a token, or says something about the declarations. -/
theorem performed (behind : Behind left condition place)
    (performed : grammar.Performs task place journal (.matched count next))
    (implies : condition → task.Idles grammar count → further) : Behind left further next := by
  obtain ⟨taken, consumes⟩ := performed.follows _ _ rfl
  exact behind.consumes consumes fun holds idle => implies holds (performed.idles _ _ rfl idle)

end Behind
end Cursor

namespace Parser

open Cursor (Behind)

/-- A parser that does not get stuck from a place on, unless with a fault that is left aside. -/
def Spares (spared : Fault → Bool) (parser : Parser α) (start : Cursor) : Prop :=
  (parser start).outcome.isStuckBut spared = false

/-- A parser that does not get stuck from a place on. -/
def Free (parser : Parser α) (start : Cursor) : Prop := (parser start).outcome.isStuck = false

variable {spared : Fault → Bool}

theorem Free.spares {parser : Parser α} (free : parser.Free start) : parser.Spares spared start := by
  unfold Free at free
  unfold Spares
  cases ended : (parser start).outcome with
  | matched | failed => rfl
  | stuck =>
      rw [ended] at free
      cases free

theorem free_of_spares {parser : Parser α} (spares : parser.Spares (fun _ => false) start) :
    parser.Free start := by
  unfold Spares at spares
  unfold Free
  cases ended : (parser start).outcome with
  | matched | failed => rfl
  | stuck =>
      rw [ended] at spares
      cases spares

theorem spares_bind {first : Parser α} {next : α → Parser β} (head : first.Spares spared start)
    (tail : ∀ value middle, (first start).outcome = .matched value middle →
      (next value).Spares spared middle) : (first >>= next).Spares spared start := by
  unfold Spares at head tail ⊢
  rw [bind_run]
  cases ran : first start with
  | mk journal outcome =>
      rw [ran] at head tail
      cases outcome with
      | matched value middle => exact tail value middle rfl
      | failed error stop => rfl
      | stuck fault stop => exact head

theorem spares_attempt {parser : Parser α} (free : parser.Spares spared start) :
    (attempt parser).Spares spared start := by
  unfold Spares at free ⊢
  rw [attempt_run]
  cases ran : parser start with
  | mk journal outcome =>
      rw [ran] at free
      cases outcome with
      | matched | failed => rfl
      | stuck => exact free

theorem spares_within {parser : Parser α} (free : parser.Spares spared start) :
    (within rule parser).Spares spared start := by
  unfold Spares at free ⊢
  unfold within
  cases ran : parser start with
  | mk journal outcome =>
      rw [ran] at free
      cases outcome with
      | matched | failed => rfl
      | stuck => exact free

theorem spares_matchNext (constraint : Constraint) (start : Cursor) :
    (matchNext constraint).Spares spared start := by
  have checks := matchNext_checks constraint start
  unfold Spares
  generalize matchNext constraint start = run at checks ⊢
  cases checks <;> rfl

theorem spares_guarded (rule : Descriptor) (guard : Constraint) (start : Cursor) :
    (guarded rule guard).Spares spared start := by
  unfold Spares
  by_cases free : guard.isEmpty = true
  · rw [guarded_run_free free]
    rfl
  · rw [guarded_run_bound (by simpa using free)]
    have check : (matchNext guard).Spares spared (start.skip rule.drop) :=
      spares_matchNext guard _
    unfold Spares at check
    cases ran : matchNext guard (start.skip rule.drop) with
    | mk journal outcome =>
        rw [ran] at check
        cases outcome with
        | matched | failed => rfl
        | stuck => exact check

theorem spares_nodeless (rule : Descriptor) (guard : Constraint)
    (spares : spared (.noDefault rule.name) = true) :
    (nodeless rule guard).Spares spared start := by
  refine spares_bind (spares_guarded rule guard start) fun _ _ _ => ?_
  simp [Spares, within, getStuck, Outcome.isStuckBut, spares]

theorem spares_separator {content : Symbol → Constraint → Parser Tree} {field : FieldDescriptor}
    (free : (content field.symbol field.tokens).Spares spared start) :
    (separator content field).Spares spared start := by
  refine spares_bind (spares_attempt free) fun result middle _ => ?_
  cases result with
  | ok tree => rfl
  | error error =>
      by_cases optional : field.cardinality = .optional <;> simp only [optional] <;> rfl

/-! The parts of a rule that begins with `left` tokens ahead of it. What its fields hold is free
once a token has been consumed, and before that if the rule leads with it. -/

section Rule

variable {content : Symbol → Constraint → Parser Tree} {left : Nat}

section Repetitions

variable {between : Gap} {field : FieldDescriptor} {before : Nat} {condition : Prop}
  (items : ∀ count place, Behind left (count = 0 ∧ condition) place →
    (item content between field (before + count)).Spares spared place)

include items

/-- A separator before a repetition follows a token that has been consumed. -/
theorem spares_repetition {count : Nat} {start : Cursor}
    (behind : Behind left (count = 0 ∧ condition) start) :
    (repetition content between field before count).Spares spared start := by
  rcases repetition_cases content between field before count with
    ⟨_, same⟩ | ⟨later, separated, same⟩
  · rw [same]
    exact items count start behind
  · rw [same]
    refine spares_bind rfl fun _ place dropped => ?_
    cases dropped
    refine spares_bind (spares_matchNext _ _) fun token middle matched => ?_
    obtain ⟨_, _, consumes⟩ := matchNext_takes matched
    exact items count middle ((behind.skip between.drop).consumes consumes
      fun first _ => absurd first.1 later)

variable (contents : ∀ symbol constraint,
  CarriesOut grammar (.content symbol constraint) (fun _ => 1) (content symbol constraint))

include contents

theorem spares_repetitions {count steps : Nat} {start : Cursor}
    (behind : Behind left (count = 0 ∧ condition) start) (enough : start.rest.length < steps) :
    (repetitions content between field before steps count).Spares spared start := by
  induction steps generalizing count start with
  | zero => omega
  | succ steps ih =>
      by_cases allowed : field.size.allowsMore count = true
      · simp only [repetitions, allowed, if_true]
        have once := spares_repetition items behind
        refine spares_bind rfl fun _ place here => ?_
        cases here
        refine spares_bind (spares_attempt once) fun result middle matched => ?_
        rcases attempt_matched matched with ⟨tree, rfl, ran⟩ | ⟨error, rfl, _⟩
        · refine spares_bind rfl fun _ place here => ?_
          cases here
          by_cases idle : middle.pos = start.pos
          · simp only [idle, if_true]
            rfl
          · simp only [idle, if_false]
            have done := repetition_carriesOut contents between field before count start
              (.matched 1 middle) (by rw [ran]; rfl)
            obtain ⟨taken, consumes⟩ := done.follows _ _ rfl
            have fewer := consumes.length_lt idle
            have further : Behind left (count + 1 = 0 ∧ condition) middle := .inl (by
              rcases behind with less | ⟨same, _⟩ <;> omega)
            exact spares_bind (ih further (by omega)) fun _ _ _ => rfl
        · rfl
      · simp only [repetitions, allowed]
        rfl

theorem spares_repeated {name : String} {least : Nat} {start : Cursor}
    (behind : Behind left condition start) :
    (repeated content name between field before least).Spares spared start := by
  refine spares_bind rfl fun _ place here => ?_
  cases here
  have some : start.rest.length < start.rest.length + 1 := by omega
  have free := spares_repetitions items contents (behind.mono fun holds => ⟨rfl, holds⟩) some
  refine spares_bind free fun result middle _ => ?_
  obtain ⟨trees, error⟩ := result
  by_cases short : trees.length < least
  · cases error <;> simp only [short, if_true] <;> rfl
  · simp only [short, if_false]
    rfl

end Repetitions

variable {rule : Descriptor}
  (contents : ∀ symbol constraint,
    CarriesOut grammar (.content symbol constraint) (fun _ => 1) (content symbol constraint))
  (leading : ∀ field, rule.Has field → ∀ place, Behind left (grammar.Leads rule field) place →
    (content field.symbol field.tokens).Spares spared place)

include contents leading

theorem spares_item {field : FieldDescriptor} {rest : List FieldDescriptor} {before : Nat}
    {start : Cursor} (combinator : rule.combinator = .seq) (member : field ∈ rule.fields)
    (behind : Behind left (grammar.ComesTo rule (field :: rest) before) start) :
    (item content (.ofRule rule) field before).Spares spared start := by
  refine spares_bind ?_ fun _ middle matched => ?_
  · cases present : rule.separator with
    | none =>
        simp only [gap, Gap.ofRule, present]
        rfl
    | some other =>
        by_cases first : before = 0
        · simp only [gap, Gap.ofRule, present, first, if_true]
          rfl
        · simp only [gap, Gap.ofRule, present, first, if_false]
          refine spares_bind rfl fun _ place dropped => ?_
          cases dropped
          have free := leading other (.inr present) _ ((behind.skip rule.drop).mono
            fun comes => .separator combinator comes first present)
          exact spares_bind (spares_separator free) fun _ _ _ => rfl
  · have done := gap_carriesOut contents (.ofRule rule) before start (.matched 0 middle)
      (by rw [matched]; rfl)
    exact leading field (.inl member) middle (behind.performed done
      fun comes adjoins => .item combinator comes adjoins)

theorem spares_fieldValues {field : FieldDescriptor} {rest : List FieldDescriptor} {before : Nat}
    {start : Cursor} (combinator : rule.combinator = .seq) (member : field ∈ rule.fields)
    (behind : Behind left (grammar.ComesTo rule (field :: rest) before) start) :
    (fieldValues content rule field before).Spares spared start := by
  have once := spares_item contents leading combinator member behind
  cases cardinality : field.cardinality with
  | single =>
      simp only [fieldValues, cardinality]
      exact spares_bind once fun _ _ _ => rfl
  | optional =>
      simp only [fieldValues, cardinality]
      refine spares_bind (spares_attempt once) fun result _ _ => ?_
      cases result <;> rfl
  | repeated =>
      simp only [fieldValues, cardinality]
      refine spares_repeated (fun count place behind => ?_) contents behind
      have comes : Behind left (grammar.ComesTo rule (field :: rest) (before + count)) place :=
        behind.mono fun reached => reached.1 ▸ reached.2
      exact spares_item contents leading combinator member comes

theorem spares_sequence {fields : List FieldDescriptor} {before : Nat} {start : Cursor}
    (combinator : rule.combinator = .seq) (members : ∀ field ∈ fields, field ∈ rule.fields)
    (behind : Behind left (grammar.ComesTo rule fields before) start) :
    (sequence content rule fields before).Spares spared start := by
  induction fields generalizing before start with
  | nil =>
      by_cases nothing : before = 0 <;> simp only [sequence, nothing] <;> rfl
  | cons field rest ih =>
      have free := spares_fieldValues contents leading combinator (members field (by simp)) behind
      refine spares_bind free fun trees middle matched => ?_
      have done := fieldValues_carriesOut contents rule field before start
        (.matched trees.length middle) (by rw [matched]; rfl)
      refine spares_bind (ih (fun other member => members other (by simp [member])) ?_) fun _ _ _ => rfl
      refine behind.performed done fun comes idle => ?_
      rcases idle with ⟨none, optional, unneeded⟩ | ⟨one, adjoins, few, idle⟩
      · rw [none]
        exact comes.without optional unneeded
      · rw [one]
        exact comes.behind adjoins few idle

theorem spares_alternative {field : FieldDescriptor} {start : Cursor}
    (combinator : rule.combinator = .oneOf) (member : field ∈ rule.fields)
    (behind : Behind left True start) : (alternative content rule field).Spares spared start := by
  have own {place : Cursor} (behind : Behind left True place) :
      (content field.symbol field.tokens).Spares spared place :=
    leading field (.inl member) place (behind.mono fun _ => .alternative combinator member)
  by_cases cardinality : field.cardinality = .repeated
  · simp only [alternative, cardinality]
    refine spares_repeated (fun count place behind => ?_) contents behind
    refine spares_bind rfl fun _ middle matched => ?_
    cases matched
    exact own (by simpa [Gap.nothing] using behind.mono fun _ => trivial)
  · simp only [alternative]
    exact spares_bind (own behind) fun _ _ _ => rfl

theorem spares_choice {fields : List FieldDescriptor} {gathered : Option ParseError} {start : Cursor}
    (combinator : rule.combinator = .oneOf) (members : ∀ field ∈ fields, field ∈ rule.fields)
    (behind : Behind left True start) : (choice content rule fields gathered).Spares spared start := by
  induction fields generalizing gathered with
  | nil => cases gathered <;> rfl
  | cons field rest ih =>
      have free := spares_alternative contents leading combinator (members field (by simp)) behind
      refine spares_bind (spares_attempt free) fun result middle matched => ?_
      rcases attempt_matched matched with ⟨trees, rfl, ran⟩ | ⟨error, rfl, back⟩
      · rfl
      · subst back
        exact spares_bind (ih fun other member => members other (by simp [member])) fun _ _ _ => rfl

theorem spares_node {guard : Constraint} {start : Cursor} (began : start.rest.length = left) :
    (node content rule guard).Spares spared start := by
  refine spares_bind (spares_guarded rule guard start) fun _ place guarding => ?_
  cases guarded_matched guarding
  refine spares_bind (spares_within ?_) fun _ _ _ => rfl
  cases combinator : rule.combinator with
  | seq =>
      simp only [body, combinator]
      exact spares_sequence contents leading combinator (fun _ member => member)
        (.inr ⟨began, .start⟩)
  | oneOf =>
      simp only [body, combinator]
      refine spares_bind rfl fun _ middle dropped => ?_
      cases dropped
      have behind : Behind left True start := .inr ⟨began, trivial⟩
      exact spares_choice contents leading combinator (fun _ member => member)
        (behind.skip rule.drop)

end Rule
end Parser

namespace Grammar

open TokenGrammar.Parser

variable {spared : Fault → Bool}

theorem spares_contentParser {rules : String → Constraint → Parser Tree} {symbol : Symbol}
    {constraint : Constraint} {start : Cursor}
    (nodes : ∀ name, symbol.content = .rule name → (rules name constraint).Spares spared start) :
    (contentParser rules symbol constraint).Spares spared start := by
  induction symbol with
  | token | mark => exact spares_bind (spares_matchNext constraint start) fun _ _ _ => rfl
  | rule name => exact nodes name rfl
  | boxed symbol ih => exact ih nodes

/-- A rule needs as much depth as it has rank, and as much again as there are rules for each of the
tokens that are left. -/
theorem spares_ruleParser (closed : grammar.Closed) (wellFounded : ¬ grammar.LeftRecursive)
    (missing : ∀ path rule, grammar.find? path = some (.ok rule) →
      grammar.hasDefault path = true ∨ spared (.noDefault rule.name) = true)
    {depth : Nat} {path : String} {guard : Constraint} {start : Cursor}
    (defined : grammar.find? path = some (.ok rule))
    (deep : grammar.rank path + grammar.rules.length * start.rest.length ≤ depth) :
    (grammar.ruleParser depth path guard).Spares spared start := by
  induction depth generalizing path guard start rule with
  | zero =>
      have := rank_pos defined
      omega
  | succ depth ih =>
      simp only [ruleParser, defined]
      split
      case isFalse lacking =>
        exact spares_nodeless rule guard ((missing path rule defined).resolve_left lacking)
      refine spares_node (contentParser_carriesOut (ruleParser_carriesOut depth)) ?_ rfl
      intro field has place behind
      refine spares_contentParser fun other content => ?_
      obtain ⟨inner, found⟩ := closed path rule field defined has other content
      refine ih found ?_
      rcases behind with fewer | ⟨same, leads⟩
      · have small := grammar.rank_le other
        have more : grammar.rules.length * (place.rest.length + 1) ≤
            grammar.rules.length * start.rest.length := Nat.mul_le_mul_left _ fewer
        have large := rank_pos defined
        rw [Nat.mul_add, Nat.mul_one] at more
        omega
      · have smaller := rank_lt wellFounded ⟨rule, field, defined, leads, content⟩
        rw [same]
        omega

/-- A parse from any place ends, whatever the tokens are, unless a default value is missing. -/
theorem spares_parse (closed : grammar.Closed) (wellFounded : ¬ grammar.LeftRecursive)
    (missing : ∀ path rule, grammar.find? path = some (.ok rule) →
      grammar.hasDefault path = true ∨ spared (.noDefault rule.name) = true)
    {symbol : Symbol} (defined : grammar.Defines symbol) (constraint : Constraint)
    (start : Cursor) : (grammar.parse symbol constraint).Spares spared start := by
  refine spares_contentParser fun path content => ?_
  obtain ⟨rule, found⟩ := defined path content
  have small := grammar.rank_le path
  refine spares_ruleParser closed wellFounded missing found ?_
  rw [depthBound, Nat.mul_add, Nat.mul_one]
  omega

/-- A parse from any place ends if no default value is missing. -/
theorem free_parse (total : grammar.Total) (wellFounded : ¬ grammar.LeftRecursive)
    {symbol : Symbol} (defined : grammar.Defines symbol) (constraint : Constraint)
    (start : Cursor) : (grammar.parse symbol constraint).Free start :=
  Parser.free_of_spares <| spares_parse total.closed wellFounded
    (fun path rule found => .inl (total.made path rule found)) defined constraint start

end Grammar
end TokenGrammar
