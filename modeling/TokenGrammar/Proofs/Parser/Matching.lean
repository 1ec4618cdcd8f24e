import TokenGrammar.Proofs.Parser.Consumption

namespace TokenGrammar

/-! When the parsers of a rule match and when they fail, for rules without a separator, and in
particular those that skip nothing, whose items follow one another directly. -/

theorem Cursor.Consumes.split {start next : Cursor} {first second : List Token}
    (consumes : start.Consumes (first ++ second) next) :
    ∃ middle, start.Consumes first middle ∧ middle.Consumes second next := by
  obtain ⟨rest, pos⟩ := consumes
  rw [List.length_append] at pos
  exact ⟨⟨start.pos + first.length, second ++ next.rest⟩, ⟨by simpa using rest, rfl⟩,
    ⟨rfl, by simpa [Nat.add_assoc] using pos⟩⟩

theorem Cursor.Consumes.eq_of_nil {start next : Cursor} (consumes : start.Consumes [] next) :
    next = start := by
  obtain ⟨rest, pos⟩ := consumes
  cases start
  cases next
  simp_all

theorem Cursor.Consumes.peek {start next : Cursor} {token : Token} {tokens : List Token}
    (consumes : start.Consumes (token :: tokens) next) : start.peek = token := by
  simp [Cursor.peek, consumes.rest]

theorem Cursor.rest_of_isEnd {cursor : Cursor} (ordinary : ∀ token ∈ cursor.rest, token.isEnd = false)
    (ends : cursor.peek.isEnd = true) : cursor.rest = [] := by
  cases rest : cursor.rest with
  | nil => rfl
  | cons token more =>
      have present := ordinary token (by simp [rest])
      simp [Cursor.peek, rest, present] at ends

theorem Run.eq_of_outcome {run : Run α} {ending : Outcome α} (ends : run.outcome = ending) :
    run = ⟨run.journal, ending⟩ := by
  cases ends
  rfl

theorem TokenPattern.ofType_accepts {type : String} {token : Token} :
    (TokenPattern.ofType type).accepts token = true ↔ ∃ value, token = .ordinary type value := by
  cases token with
  | endOfInput => simp
  | ordinary own value =>
      simp only [ofType, accepts, Token.isEnd_ordinary, Token.type, Option.all_some, Option.all_none,
        Bool.not_false, Bool.and_true, Bool.true_and, beq_iff_eq, Token.ordinary.injEq]
      constructor
      · rintro rfl
        exact ⟨value, rfl, rfl⟩
      · rintro ⟨_, rfl, _⟩
        rfl

theorem TokenPattern.ofValue_accepts {type value : String} {token : Token} :
    (TokenPattern.ofValue type value).accepts token = true ↔ token = .ordinary type value := by
  cases token with
  | endOfInput => simp
  | ordinary own held =>
      simp only [ofValue, accepts, Token.isEnd_ordinary, Token.type, Token.value, Option.all_some,
        Bool.not_false, Bool.and_eq_true, Bool.true_and, beq_iff_eq, Token.ordinary.injEq]
      constructor
      · rintro ⟨rfl, rfl⟩
        exact ⟨rfl, rfl⟩
      · rintro ⟨rfl, rfl⟩
        exact ⟨rfl, rfl⟩

namespace Parser

def Matches (parser : Parser α) (start : Cursor) (value : α) (next : Cursor) : Prop :=
  (parser start).outcome = .matched value next

def Fails (parser : Parser α) (start : Cursor) : Prop :=
  ∃ error stop, (parser start).outcome = .failed error stop

variable {start next : Cursor}

theorem pure_matches {value result : α} :
    Matches (pure value : Parser α) start result next ↔ result = value ∧ next = start := by
  constructor
  · intro matched
    cases matched
    exact ⟨rfl, rfl⟩
  · rintro ⟨rfl, rfl⟩
    rfl

/-- What follows a match decides about both. -/
theorem Matches.bind_outcome {first : Parser α} (head : Matches first start value middle)
    (more : α → Parser β) : ((first >>= more) start).outcome = (more value middle).outcome := by
  unfold Matches at head
  rw [bind_run]
  generalize first start = run at head
  obtain ⟨journal, outcome⟩ := run
  cases head
  rfl

theorem Matches.bind {first : Parser α} {more : α → Parser β}
    (head : Matches first start value middle) (tail : Matches (more value) middle result next) :
    Matches (first >>= more) start result next :=
  (head.bind_outcome more).trans tail

theorem bind_matches {first : Parser α} {more : α → Parser β} :
    Matches (first >>= more) start result next ↔
      ∃ value middle, Matches first start value middle ∧ Matches (more value) middle result next :=
  ⟨bind_matched, fun ⟨_, _, head, tail⟩ => head.bind tail⟩

theorem Fails.bind {first : Parser α} (fails : Fails first start) (more : α → Parser β) :
    Fails (first >>= more) start := by
  obtain ⟨error, stop, failed⟩ := fails
  refine ⟨error, stop, ?_⟩
  rw [bind_run]
  generalize first start = run at failed
  obtain ⟨journal, outcome⟩ := run
  cases failed
  rfl

theorem Matches.bind_fails {first : Parser α} {more : α → Parser β}
    (head : Matches first start value middle) (fails : Fails (more value) middle) :
    Fails (first >>= more) start := by
  obtain ⟨error, stop, failed⟩ := fails
  exact ⟨error, stop, (head.bind_outcome more).trans failed⟩

theorem attempt_matches_ok {parser : Parser α} (matched : Matches parser start value next) :
    Matches (attempt parser) start (.ok value) next := by
  unfold Matches at matched ⊢
  rw [attempt_run]
  generalize parser start = run at matched ⊢
  obtain ⟨journal, outcome⟩ := run
  cases matched
  rfl

/-- An attempt yields an error if and only if what it tries fails. -/
theorem attempt_matches_error {parser : Parser α} :
    (∃ error, Matches (attempt parser) start (.error error) next) ↔
      Fails parser start ∧ next = start := by
  unfold Matches Fails
  rw [attempt_run]
  generalize parser start = run
  obtain ⟨journal, outcome⟩ := run
  cases outcome <;> simp [eq_comm]

/-- A pattern that does not look ahead takes the token that satisfies it. -/
theorem matchNext_matches {pattern : TokenPattern} (consuming : pattern.lookahead = false) :
    Matches (matchNext ⟨[pattern]⟩) start token next ↔
      pattern.accepts token = true ∧ start.Consumes [token] next := by
  obtain ⟨pos, _ | ⟨head, rest⟩⟩ := start
  · constructor
    · intro matched
      simp [Matches, matchNext, Constraint.isEmpty, Constraint.find?, reject] at matched
    · rintro ⟨_, consumes⟩
      have := consumes.rest
      simp at this
  · by_cases accepts : pattern.accepts head = true
    · constructor
      · intro matched
        simp [Matches, matchNext, Constraint.isEmpty, Constraint.find?, accepts, consuming] at matched
        obtain ⟨rfl, rfl⟩ := matched
        exact ⟨accepts, rfl, rfl⟩
      · rintro ⟨_, taken, moved⟩
        obtain ⟨nextPos, nextRest⟩ := next
        simp only [List.singleton_append, List.cons.injEq] at taken
        obtain ⟨rfl, rfl⟩ := taken
        cases moved
        simp [Matches, matchNext, Constraint.isEmpty, Constraint.find?, accepts, consuming]
    · constructor
      · intro matched
        simp [Matches, matchNext, Constraint.isEmpty, Constraint.find?, accepts, reject] at matched
      · rintro ⟨also, taken, _⟩
        simp only [List.singleton_append, List.cons.injEq] at taken
        obtain ⟨rfl, _⟩ := taken
        exact absurd also accepts

theorem matchNext_fails {pattern : TokenPattern} (refused : pattern.accepts start.peek = false) :
    Fails (matchNext ⟨[pattern]⟩) start :=
  ⟨.atCursor (.expected [pattern]) start, start, by
    simp [matchNext, Constraint.isEmpty, Constraint.find?, refused, reject]⟩

/-! The fields of a rule. -/

/-- Nothing lies between the items of a rule. -/
structure Bare (between : Gap) : Prop where
  drop : between.drop = .anyToken
  separator : between.separator = none

section Rule

variable {content : Symbol → Constraint → Parser Tree} {rule : Descriptor} {field : FieldDescriptor}

/-- Without a separator an item stands behind the tokens that are skipped. -/
theorem item_run_plain {between : Gap} (plain : between.separator = none) (before : Nat) :
    item content between field before start =
      content field.symbol field.tokens (start.skip between.drop) := by
  simp only [item, gap, plain]
  rw [bind_run]
  simp only [bind_run, dropTokens_run, pure_run, List.nil_append]

theorem item_run_bare {between : Gap} (bare : Bare between) (before : Nat) :
    item content between field before start = content field.symbol field.tokens start := by
  rw [item_run_plain bare.separator, bare.drop, Cursor.skip_anyToken]

theorem fieldValues_matches_plain (plain : rule.separator = none)
    (single : field.cardinality = .single) {before : Nat} {trees : List Tree} :
    Matches (fieldValues content rule field before) start trees next ↔
      ∃ tree, Matches (content field.symbol field.tokens) (start.skip rule.drop) tree next ∧
        trees = [tree] := by
  have own : (Gap.ofRule rule).separator = none := plain
  simp only [fieldValues, single, bind_matches, pure_matches]
  simp only [Matches, item_run_plain own]
  constructor
  · rintro ⟨tree, middle, matched, rfl, rfl⟩
    exact ⟨tree, matched, rfl⟩
  · rintro ⟨tree, matched, rfl⟩
    exact ⟨tree, next, matched, rfl, rfl⟩

theorem fieldValues_fails_plain (plain : rule.separator = none)
    (single : field.cardinality = .single) {before : Nat}
    (fails : Fails (content field.symbol field.tokens) (start.skip rule.drop)) :
    Fails (fieldValues content rule field before) start := by
  have own : (Gap.ofRule rule).separator = none := plain
  simp only [fieldValues, single]
  refine Fails.bind ?_ _
  simp only [Fails, item_run_plain own]
  exact fails

theorem sequence_matches_nil {before : Nat} {slots : List Slot} :
    Matches (sequence content rule [] before) start slots next ↔
      before ≠ 0 ∧ slots = [] ∧ next = start := by
  by_cases nothing : before = 0
  · simp [sequence, nothing, Matches, reject]
  · simp [sequence, nothing, pure_matches]

theorem sequence_matches_cons {rest : List FieldDescriptor} {before : Nat} {slots : List Slot} :
    Matches (sequence content rule (field :: rest) before) start slots next ↔
      ∃ trees middle more, Matches (fieldValues content rule field before) start trees middle ∧
        Matches (sequence content rule rest (before + trees.length)) middle more next ∧
        slots = field.slot trees :: more := by
  simp only [sequence, bind_matches, pure_matches]
  constructor
  · rintro ⟨trees, middle, first, more, last, second, rfl, rfl⟩
    exact ⟨trees, middle, more, first, second, rfl⟩
  · rintro ⟨trees, middle, more, first, second, rfl⟩
    exact ⟨trees, middle, first, more, next, second, rfl, rfl⟩

theorem sequence_matches_plain {rest : List FieldDescriptor} {before : Nat} {slots : List Slot}
    (plain : rule.separator = none) (single : field.cardinality = .single) :
    Matches (sequence content rule (field :: rest) before) start slots next ↔
      ∃ tree middle more,
        Matches (content field.symbol field.tokens) (start.skip rule.drop) tree middle ∧
        Matches (sequence content rule rest (before + 1)) middle more next ∧
        slots = field.slot [tree] :: more := by
  rw [sequence_matches_cons]
  constructor
  · rintro ⟨trees, middle, more, own, later, rfl⟩
    obtain ⟨tree, matched, rfl⟩ := (fieldValues_matches_plain plain single).mp own
    exact ⟨tree, middle, more, matched, later, rfl⟩
  · rintro ⟨tree, middle, more, own, later, rfl⟩
    exact ⟨[tree], middle, more, (fieldValues_matches_plain plain single).mpr ⟨tree, own, rfl⟩,
      later, rfl⟩

theorem sequence_fails_plain {rest : List FieldDescriptor} {before : Nat}
    (plain : rule.separator = none) (single : field.cardinality = .single)
    (fails : Fails (content field.symbol field.tokens) (start.skip rule.drop)) :
    Fails (sequence content rule (field :: rest) before) start :=
  (fieldValues_fails_plain plain single fails).bind _

theorem sequence_matches_single {rest : List FieldDescriptor} {before : Nat} {slots : List Slot}
    (bare : Bare (.ofRule rule)) (single : field.cardinality = .single) :
    Matches (sequence content rule (field :: rest) before) start slots next ↔
      ∃ tree middle more, Matches (content field.symbol field.tokens) start tree middle ∧
        Matches (sequence content rule rest (before + 1)) middle more next ∧
        slots = field.slot [tree] :: more := by
  have drop : rule.drop = .anyToken := bare.drop
  rw [sequence_matches_plain bare.separator single, drop, Cursor.skip_anyToken]

theorem sequence_fails_single {rest : List FieldDescriptor} {before : Nat}
    (bare : Bare (.ofRule rule)) (single : field.cardinality = .single)
    (fails : Fails (content field.symbol field.tokens) start) :
    Fails (sequence content rule (field :: rest) before) start := by
  have drop : rule.drop = .anyToken := bare.drop
  refine sequence_fails_plain bare.separator single ?_
  rwa [drop, Cursor.skip_anyToken]

theorem alternative_matches {trees : List Tree} (optional : field.cardinality = .optional) :
    Matches (alternative content rule field) start trees next ↔
      ∃ tree, Matches (content field.symbol field.tokens) start tree next ∧ trees = [tree] := by
  simp only [alternative, optional, bind_matches, pure_matches]
  constructor
  · rintro ⟨tree, middle, matched, rfl, rfl⟩
    exact ⟨tree, matched, rfl⟩
  · rintro ⟨tree, matched, rfl⟩
    exact ⟨tree, next, matched, rfl, rfl⟩

theorem alternative_fails (optional : field.cardinality = .optional)
    (fails : Fails (content field.symbol field.tokens) start) :
    Fails (alternative content rule field) start := by
  simp only [alternative, optional]
  exact fails.bind _

/-- The first alternative that matches is the one that is taken. -/
theorem choice_matches {fields : List FieldDescriptor} {gathered : Option ParseError}
    {slots : List Slot} :
    Matches (choice content rule fields gathered) start slots next ↔
      ∃ before field after trees, fields = before ++ field :: after ∧
        (∀ other ∈ before, Fails (alternative content rule other) start) ∧
        Matches (alternative content rule field) start trees next ∧
        slots = before.map (·.slot []) ++ field.slot trees :: after.map (·.slot []) := by
  induction fields generalizing gathered slots with
  | nil => cases gathered <;> simp [choice, Matches, fail, reject]
  | cons field rest ih =>
      simp only [choice, bind_matches]
      constructor
      · rintro ⟨attempted, middle, tried, going⟩
        cases attempted with
        | ok trees =>
            obtain ⟨rfl, rfl⟩ := pure_matches.mp going
            rcases attempt_matched tried with ⟨found, same, matched⟩ | ⟨_, same, _⟩
            · cases same
              exact ⟨[], field, rest, trees, rfl, by simp, matched, rfl⟩
            · cases same
        | error error =>
            obtain ⟨fails, rfl⟩ := attempt_matches_error.mp ⟨error, tried⟩
            simp only [bind_matches, pure_matches] at going
            obtain ⟨more, _, matched, rfl, rfl⟩ := going
            obtain ⟨before, chosen, after, trees, rfl, failing, found, rfl⟩ := ih.mp matched
            refine ⟨field :: before, chosen, after, trees, rfl, ?_, found, rfl⟩
            intro other member
            rcases List.mem_cons.mp member with rfl | earlier
            · exact fails
            · exact failing other earlier
      · rintro ⟨before, chosen, after, trees, split, failing, matched, rfl⟩
        cases before with
        | nil =>
            cases split
            exact ⟨.ok trees, next, attempt_matches_ok matched, rfl⟩
        | cons head before =>
            cases split
            obtain ⟨error, tried⟩ :=
              attempt_matches_error.mpr ⟨failing field (by simp), rfl⟩
            refine ⟨.error error, start, tried, ?_⟩
            simp only [bind_matches, pure_matches]
            refine ⟨_, next, ih.mpr ⟨before, chosen, after, trees, rfl, ?_, matched, rfl⟩, rfl, rfl⟩
            exact fun other member => failing other (by simp [member])

theorem choice_fails {fields : List FieldDescriptor} {gathered : Option ParseError}
    (failing : ∀ field ∈ fields, Fails (alternative content rule field) start) :
    Fails (choice content rule fields gathered) start := by
  induction fields generalizing gathered with
  | nil =>
      cases gathered with
      | none => exact ⟨_, _, rfl⟩
      | some error => exact ⟨_, _, rfl⟩
  | cons field rest ih =>
      obtain ⟨error, tried⟩ := attempt_matches_error.mpr ⟨failing field (by simp), rfl⟩
      simp only [choice]
      exact tried.bind_fails ((ih fun other member => failing other (by simp [member])).bind _)

/-- If the fields of a choice differ in name, what each of them holds is told by its name. -/
theorem slots_of_choice {before after : List FieldDescriptor}
    (distinct : ((before ++ field :: after).map (·.name)).Nodup) (trees : List Tree) :
    before.map (·.slot []) ++ field.slot trees :: after.map (·.slot []) =
      (before ++ field :: after).map fun other =>
        other.slot (if other.name = field.name then trees else []) := by
  rw [List.map_append, List.map_cons, List.nodup_append] at distinct
  obtain ⟨_, tail, apart⟩ := distinct
  have fresh := (List.nodup_cons.mp tail).1
  rw [List.map_append, List.map_cons, if_pos rfl]
  congr 1
  · refine List.map_congr_left fun other member => ?_
    have other_ne : other.name ≠ field.name :=
      apart _ (List.mem_map_of_mem member) _ (by simp)
    rw [if_neg other_ne]
  · congr 1
    refine List.map_congr_left fun other member => ?_
    have other_ne : other.name ≠ field.name := by
      intro same
      exact fresh (same ▸ List.mem_map_of_mem member)
    rw [if_neg other_ne]

theorem within_matches {parser : Parser α} {name : String} :
    Matches (within name parser) start value next ↔ Matches parser start value next := by
  unfold Matches within
  generalize parser start = run
  obtain ⟨journal, outcome⟩ := run
  cases outcome <;> simp

theorem within_fails {parser : Parser α} {name : String} (fails : Fails parser start) :
    Fails (within name parser) start := by
  obtain ⟨error, stop, failed⟩ := fails
  refine ⟨error, start, ?_⟩
  unfold within
  generalize parser start = run at failed ⊢
  obtain ⟨journal, outcome⟩ := run
  cases failed
  rfl

theorem node_matches {guard : Constraint} (free : guard.isEmpty = true) {tree : Tree} :
    Matches (node content rule guard) start tree next ↔
      ∃ slots, Matches (body content rule) start slots next ∧ tree = .node rule.name slots := by
  have passes : Matches (guarded rule guard) start () start := by
    rw [Matches, guarded_run_free free]
  simp only [node, bind_matches, within_matches, pure_matches]
  constructor
  · rintro ⟨_, place, guarding, slots, middle, matched, rfl, rfl⟩
    cases guarded_matched guarding
    exact ⟨slots, matched, rfl⟩
  · rintro ⟨slots, matched, rfl⟩
    exact ⟨(), start, passes, slots, next, matched, rfl, rfl⟩

theorem node_fails {guard : Constraint} (free : guard.isEmpty = true)
    (fails : Fails (body content rule) start) : Fails (node content rule guard) start := by
  have passes : Matches (guarded rule guard) start () start := by
    rw [Matches, guarded_run_free free]
  exact passes.bind_fails ((within_fails fails).bind _)

theorem body_matches_sequence (combinator : rule.combinator = .seq) :
    Matches (body content rule) start slots next ↔
      Matches (sequence content rule rule.fields 0) start slots next := by
  simp only [body, combinator]

theorem body_fails_sequence (combinator : rule.combinator = .seq) :
    Fails (body content rule) start ↔ Fails (sequence content rule rule.fields 0) start := by
  simp only [body, combinator]

theorem body_run_skip (combinator : rule.combinator = .oneOf) :
    body content rule start = choice content rule rule.fields none (start.skip rule.drop) := by
  simp only [body, combinator, dropTokens_bind_run]

theorem body_run_choice (combinator : rule.combinator = .oneOf) (drop : rule.drop = .anyToken) :
    body content rule start = choice content rule rule.fields none start := by
  rw [body_run_skip combinator, drop, Cursor.skip_anyToken]

theorem body_matches_choice (combinator : rule.combinator = .oneOf) (drop : rule.drop = .anyToken) :
    Matches (body content rule) start slots next ↔
      Matches (choice content rule rule.fields none) start slots next := by
  rw [Matches, body_run_choice combinator drop, Matches]

theorem body_fails_choice (combinator : rule.combinator = .oneOf) (drop : rule.drop = .anyToken) :
    Fails (body content rule) start ↔ Fails (choice content rule rule.fields none) start := by
  rw [Fails, body_run_choice combinator drop, Fails]

end Rule

/-! A repeated field with a separator between its items, which is one certain token. -/

/-- Parts with a token between them. -/
def separated (comma : Token) : List (List Token) → List Token
  | [] => []
  | part :: rest => part ++ rest.flatMap (comma :: ·)

theorem length_le_separated {comma : Token} {part : List Token} {parts : List (List Token)}
    (member : part ∈ parts) : part.length ≤ (separated comma parts).length := by
  cases parts with
  | nil => simp at member
  | cons head rest =>
      rw [separated, List.length_append]
      rcases List.mem_cons.mp member with rfl | later
      · omega
      · have inside := (List.sublist_flatten_of_mem
          (List.mem_map_of_mem later : comma :: part ∈ rest.map (comma :: ·))).length_le
        rw [List.length_cons, ← List.flatMap_def] at inside
        omega

/-- Parts of which there are some already. -/
def following (comma : Token) (count : Nat) (parts : List (List Token)) : List Token :=
  if count = 0 then separated comma parts else parts.flatMap (comma :: ·)

@[simp] theorem following_zero (comma : Token) (parts : List (List Token)) :
    following comma 0 parts = separated comma parts := rfl

@[simp] theorem following_nil (comma : Token) (count : Nat) : following comma count [] = [] := by
  unfold following
  split <;> rfl

theorem following_cons (comma : Token) (count : Nat) (part : List Token) (rest : List (List Token)) :
    following comma count (part :: rest) =
      (if count = 0 then [] else [comma]) ++ (part ++ following comma (count + 1) rest) := by
  by_cases first : count = 0 <;> simp [following, separated, first]

section Repetitions

variable {content : Symbol → Constraint → Parser Tree} {between : Gap} {field : FieldDescriptor}
  {before count : Nat} {pattern : TokenPattern} {comma : Token}
  (bare : Bare between) (separator : field.separator = ⟨[pattern]⟩)
  (consuming : pattern.lookahead = false)
  (only : ∀ token, pattern.accepts token = true ↔ token = comma)

include bare

theorem repetition_run_adjacent (adjacent : count = 0 ∨ field.separator.isEmpty = true) :
    repetition content between field before count start =
      content field.symbol field.tokens start := by
  rcases repetition_cases content between field before count with
    ⟨_, same⟩ | ⟨later, separated, _⟩
  · rw [same, item_run_bare bare]
  · rcases adjacent with first | plain
    · exact absurd first later
    · rw [plain] at separated
      cases separated

theorem repetition_run_first : repetition content between field before 0 start =
    content field.symbol field.tokens start :=
  repetition_run_adjacent bare (.inl rfl)

theorem repetition_run_separated (separated : field.separator.isEmpty = false)
    (later : count ≠ 0) :
    repetition content between field before count start =
      (matchNext field.separator >>= fun _ => content field.symbol field.tokens) start := by
  rcases repetition_cases content between field before count with ⟨plain, _⟩ | ⟨_, _, same⟩
  · rcases plain with first | adjacent
    · exact absurd first later
    · rw [adjacent] at separated
      cases separated
  · have items : item content between field (before + count) =
        content field.symbol field.tokens := funext fun start => item_run_bare bare _
    rw [same, dropTokens_bind_run, bare.drop, Cursor.skip_anyToken, items]

include separator

theorem repetition_run_later (later : count ≠ 0) :
    repetition content between field before count start =
      (matchNext ⟨[pattern]⟩ >>= fun _ => content field.symbol field.tokens) start := by
  rw [repetition_run_separated bare (by simp [separator, Constraint.isEmpty]) later, separator]

include consuming only

/-- A repetition takes the separator, if some come before it, and then is its item. -/
theorem repetition_matches
    (matched : Matches (repetition content between field before count) start tree next) :
    ∃ place, start.Consumes (if count = 0 then [] else [comma]) place ∧
      Matches (content field.symbol field.tokens) place tree next := by
  by_cases first : count = 0
  · subst first
    rw [Matches, repetition_run_first bare] at matched
    exact ⟨start, Cursor.Consumes.refl _, matched⟩
  · rw [Matches, repetition_run_later bare separator first] at matched
    obtain ⟨token, middle, checked, own⟩ := bind_matches.mp matched
    obtain ⟨accepts, consumes⟩ := (matchNext_matches consuming).mp checked
    rw [(only token).mp accepts] at consumes
    exact ⟨middle, by rwa [if_neg first], own⟩

theorem repetition_of_consumes {part : List Token}
    (reads : ∀ {start next}, start.Consumes part next →
      Matches (content field.symbol field.tokens) start tree next)
    (consumes : start.Consumes ((if count = 0 then [] else [comma]) ++ part) next) :
    Matches (repetition content between field before count) start tree next := by
  by_cases first : count = 0
  · subst first
    rw [Matches, repetition_run_first bare]
    exact reads (by simpa using consumes)
  · rw [Matches, repetition_run_later bare separator first]
    obtain ⟨middle, separates, own⟩ := Cursor.Consumes.split consumes
    rw [if_neg first] at separates
    exact ((matchNext_matches consuming).mpr ⟨(only comma).mpr rfl, separates⟩).bind (reads own)

omit consuming in
theorem repetition_fails (ends : Fails (content field.symbol field.tokens) start)
    (closed : start.peek ≠ comma) : Fails (repetition content between field before count) start := by
  by_cases first : count = 0
  · subst first
    simpa only [Fails, repetition_run_first bare] using ends
  · have refused : pattern.accepts start.peek = false := by
      rw [← Bool.not_eq_true, only]
      exact closed
    have unseparated := (matchNext_fails refused).bind fun _ => content field.symbol field.tokens
    simpa only [Fails, repetition_run_later bare separator first] using unseparated

/-- Repetitions consume what their items are read as, with the separator between. -/
theorem Repeats.consumes_separated {good : Tree → α → Prop} {write : α → List Token}
    {trees : List Tree} {journal : List Event} {error : Option ParseError}
    (reads : ∀ {start next tree}, Matches (content field.symbol field.tokens) start tree next →
      ∃ source, good tree source ∧ start.Consumes (write source) next)
    (repeats : Repeats content between field before count start journal trees error next) :
    ∃ sources : List (Tree × α), trees = sources.map (·.1) ∧
      (∀ source ∈ sources, good source.1 source.2) ∧
      start.Consumes (following comma count (sources.map fun source => write source.2)) next := by
  induction repeats with
  | full | stopped =>
      refine ⟨[], rfl, by simp, ?_⟩
      simpa using Cursor.Consumes.refl _
  | @stalled _ _ _ tree _ allowed matched idle =>
      obtain ⟨place, separates, own⟩ :=
        repetition_matches bare separator consuming only (congrArg Run.outcome matched)
      obtain ⟨source, held, consumes⟩ := reads own
      refine ⟨[(tree, source)], rfl, by simpa using held, ?_⟩
      simpa [following_cons] using separates.trans consumes
  | @more _ _ _ tree _ _ _ _ _ allowed matched moved rest ih =>
      obtain ⟨place, separates, own⟩ :=
        repetition_matches bare separator consuming only (congrArg Run.outcome matched)
      obtain ⟨source, held, consumes⟩ := reads own
      obtain ⟨sources, rfl, others, consumesMore⟩ := ih
      refine ⟨(tree, source) :: sources, rfl, List.forall_mem_cons.mpr ⟨held, others⟩, ?_⟩
      rw [List.map_cons, following_cons, ← List.append_assoc]
      exact (separates.trans consumes).trans consumesMore

/-- Items that match one after another are repetitions, and end where neither a separator nor an
item follows. -/
theorem repeats_of_consumes {write : Tree → List Token} {trees : List Tree} {stop : Cursor}
    (unbounded : ∀ count, field.size.allowsMore count = true)
    (reads : ∀ tree ∈ trees, ∀ {start next}, start.Consumes (write tree) next →
      Matches (content field.symbol field.tokens) start tree next)
    (present : ∀ tree ∈ trees, write tree ≠ [])
    (ends : Fails (content field.symbol field.tokens) stop) (closed : stop.peek ≠ comma)
    (consumes : start.Consumes (following comma count (trees.map write)) stop) :
    trees.length ≤ start.rest.length ∧ ∃ journal error,
      Repeats content between field before count start journal trees error stop := by
  induction trees generalizing start count with
  | nil =>
      rw [List.map_nil, following_nil] at consumes
      cases consumes.eq_of_nil
      have fails : Fails (repetition content between field before count) stop :=
        repetition_fails bare separator only ends closed
      obtain ⟨error, place, failed⟩ := fails
      exact ⟨Nat.zero_le _, _, some error, .stopped (unbounded count) (Run.eq_of_outcome failed)⟩
  | cons tree rest ih =>
      rw [List.map_cons, following_cons, ← List.append_assoc] at consumes
      obtain ⟨middle, own, others⟩ := consumes.split
      have matched : Matches (repetition content between field before count) start tree middle :=
        repetition_of_consumes bare separator consuming only (reads tree (by simp)) own
      obtain ⟨few, journal, error, repeats⟩ :=
        ih (fun other member => reads other (by simp [member]))
          (fun other member => present other (by simp [member])) others
      have long := List.length_pos_iff.mpr (present tree (by simp))
      have further := own.pos
      have shorter := congrArg List.length own.rest
      simp only [List.length_append] at further shorter
      have moved : middle.pos ≠ start.pos := by omega
      refine ⟨by rw [List.length_cons]; omega, _, error,
        .more (unbounded count) (Run.eq_of_outcome matched) moved repeats⟩

end Repetitions

/-- As many repetitions are made as there are, if the bound on them is large enough. -/
theorem Repeats.run {content : Symbol → Constraint → Parser Tree} {between : Gap}
    {field : FieldDescriptor} {before count steps : Nat} {trees : List Tree} {journal : List Event}
    {error : Option ParseError}
    (repeats : Repeats content between field before count start journal trees error next)
    (enough : trees.length < steps) :
    repetitions content between field before steps count start =
      ⟨journal, .matched (trees, error) next⟩ := by
  induction repeats generalizing steps with
  | full last =>
      obtain ⟨steps, rfl⟩ : ∃ less, steps = less + 1 := ⟨steps - 1, by omega⟩
      simp only [repetitions, last]
      rfl
  | stopped allowed failed =>
      obtain ⟨steps, rfl⟩ : ∃ less, steps = less + 1 := ⟨steps - 1, by omega⟩
      simp only [repetitions, allowed, if_true, here_bind_run]
      rw [bind_run, attempt_run, failed]
      simp only [pure_run, List.append_nil]
  | stalled allowed matched idle =>
      obtain ⟨steps, rfl⟩ : ∃ less, steps = less + 1 := ⟨steps - 1, by omega⟩
      simp only [repetitions, allowed, if_true, here_bind_run]
      rw [bind_run, attempt_run, matched]
      simp only [here_bind_run, idle, if_true, pure_run, List.append_nil]
  | more allowed matched moved rest ih =>
      obtain ⟨steps, rfl⟩ : ∃ less, steps = less + 1 := ⟨steps - 1, by omega⟩
      simp only [List.length_cons] at enough
      simp only [repetitions, allowed, if_true, here_bind_run]
      rw [bind_run, attempt_run, matched]
      simp only [here_bind_run, moved, if_false]
      rw [bind_run, ih (by omega)]
      simp only [pure_run, List.append_nil]

theorem repeated_matches {content : Symbol → Constraint → Parser Tree} {between : Gap}
    {field : FieldDescriptor} {before least : Nat} {name : String} {trees : List Tree}
    (repeats : Repeats content between field before 0 start journal trees error next)
    (few : trees.length ≤ start.rest.length) (enough : least ≤ trees.length) :
    Matches (repeated content name between field before least) start trees next := by
  simp only [Matches, repeated, here_bind_run]
  rw [bind_run, repeats.run (Nat.lt_succ_of_le few)]
  simp only [if_neg (Nat.not_lt_of_le enough), pure_run]

theorem repeated_fails {content : Symbol → Constraint → Parser Tree} {between : Gap}
    {field : FieldDescriptor} {before least : Nat} {name : String} {trees : List Tree}
    (repeats : Repeats content between field before 0 start journal trees error next)
    (few : trees.length ≤ start.rest.length) (short : trees.length < least) :
    Fails (repeated content name between field before least) start := by
  simp only [Fails, repeated, here_bind_run]
  rw [bind_run, repeats.run (Nat.lt_succ_of_le few)]
  simp only [if_pos short]
  cases error with
  | none => exact ⟨_, _, rfl⟩
  | some error => exact ⟨_, _, rfl⟩

theorem fieldValues_matches_repeated {content : Symbol → Constraint → Parser Tree}
    {rule : Descriptor} {field : FieldDescriptor} {before : Nat} {trees : List Tree}
    {journal : List Event} {error : Option ParseError} (many : field.cardinality = .repeated)
    (repeats : Repeats content (.ofRule rule) field before 0 start journal trees error next)
    (few : trees.length ≤ start.rest.length) (enough : field.size.min ≤ trees.length) :
    Matches (fieldValues content rule field before) start trees next := by
  simp only [fieldValues, many]
  exact repeated_matches repeats few enough

end Parser

namespace Grammar

open TokenGrammar.Parser

variable {grammar : Grammar} {rules : String → Constraint → Parser Tree} {pattern : TokenPattern}
  {start next : Cursor} {tree : Tree}

theorem leaf_matches {leaf : Token → Tree} (consuming : pattern.lookahead = false) :
    Matches (matchNext ⟨[pattern]⟩ >>= fun token => pure (leaf token)) start tree next ↔
      ∃ token, pattern.accepts token = true ∧ start.Consumes [token] next ∧ tree = leaf token := by
  simp only [bind_matches, pure_matches, matchNext_matches consuming]
  constructor
  · rintro ⟨token, middle, ⟨accepts, consumes⟩, rfl, rfl⟩
    exact ⟨token, accepts, consumes, rfl⟩
  · rintro ⟨token, accepts, consumes, rfl⟩
    exact ⟨token, next, ⟨accepts, consumes⟩, rfl, rfl⟩

theorem token_matches (consuming : pattern.lookahead = false) :
    Matches (contentParser rules .token ⟨[pattern]⟩) start tree next ↔
      ∃ token, pattern.accepts token = true ∧ start.Consumes [token] next ∧ tree = .token token :=
  leaf_matches consuming

theorem mark_matches (consuming : pattern.lookahead = false) :
    Matches (contentParser rules .mark ⟨[pattern]⟩) start tree next ↔
      ∃ token, pattern.accepts token = true ∧ start.Consumes [token] next ∧ tree = .mark :=
  leaf_matches consuming

theorem token_fails (refused : pattern.accepts start.peek = false) :
    Fails (contentParser rules .token ⟨[pattern]⟩) start :=
  (matchNext_fails refused).bind _

theorem mark_fails (refused : pattern.accepts start.peek = false) :
    Fails (contentParser rules .mark ⟨[pattern]⟩) start :=
  (matchNext_fails refused).bind _

theorem ruleParser_matches (found : grammar.find? name = some (.ok rule))
    (made : grammar.hasDefault name = true) {depth : Nat} :
    Matches (grammar.ruleParser depth name .anyToken) start tree next ↔
      ∃ below slots, depth = below + 1 ∧
        Matches (body (contentParser (grammar.ruleParser below)) rule) start slots next ∧
        tree = .node rule.name slots := by
  cases depth with
  | zero => simp [ruleParser, Matches, getStuck]
  | succ depth => simp [ruleParser, found, made, node_matches Constraint.isEmpty_anyToken]

theorem ruleParser_fails (found : grammar.find? name = some (.ok rule))
    (made : grammar.hasDefault name = true) {depth : Nat}
    (fails : Fails (body (contentParser (grammar.ruleParser depth)) rule) start) :
    Fails (grammar.ruleParser (depth + 1) name .anyToken) start := by
  simp only [ruleParser, found, made, if_true]
  exact node_fails Constraint.isEmpty_anyToken fails

/-- A rule of optional alternatives matches as one of its fields does, behind the tokens that it
skips. -/
theorem ruleParser_matched_skip (found : grammar.find? name = some (.ok rule))
    (made : grammar.hasDefault name = true)
    (combinator : rule.combinator = .oneOf)
    (optional : ∀ field ∈ rule.fields, field.cardinality = .optional)
    (distinct : (rule.fields.map (·.name)).Nodup)
    (matched : Matches (grammar.ruleParser depth name .anyToken) start tree next) :
    ∃ below field inner, depth = below + 1 ∧ field ∈ rule.fields ∧
      Matches (contentParser (grammar.ruleParser below) field.symbol field.tokens)
        (start.skip rule.drop) inner next ∧
      tree = .node rule.name (rule.fields.map fun other =>
        other.slot (if other.name = field.name then [inner] else [])) := by
  obtain ⟨below, slots, rfl, whole, rfl⟩ := (ruleParser_matches found made).mp matched
  rw [Matches, body_run_skip combinator] at whole
  obtain ⟨before, field, after, trees, split, _, taken, rfl⟩ := choice_matches.mp whole
  have member : field ∈ rule.fields := by simp [split]
  obtain ⟨inner, own, rfl⟩ := (alternative_matches (optional field member)).mp taken
  refine ⟨below, field, inner, rfl, member, own, ?_⟩
  rw [slots_of_choice (split ▸ distinct), ← split]

theorem ruleParser_matched_choice (found : grammar.find? name = some (.ok rule))
    (made : grammar.hasDefault name = true)
    (combinator : rule.combinator = .oneOf) (drop : rule.drop = .anyToken)
    (optional : ∀ field ∈ rule.fields, field.cardinality = .optional)
    (distinct : (rule.fields.map (·.name)).Nodup)
    (matched : Matches (grammar.ruleParser depth name .anyToken) start tree next) :
    ∃ below field inner, depth = below + 1 ∧ field ∈ rule.fields ∧
      Matches (contentParser (grammar.ruleParser below) field.symbol field.tokens) start inner next ∧
      tree = .node rule.name (rule.fields.map fun other =>
        other.slot (if other.name = field.name then [inner] else [])) := by
  simpa only [drop, Cursor.skip_anyToken] using
    ruleParser_matched_skip found made combinator optional distinct matched

/-- A box is parsed as its content. -/
theorem contentParser_content (rules : String → Constraint → Parser Tree) (symbol : Symbol)
    (constraint : Constraint) :
    contentParser rules symbol.content constraint = contentParser rules symbol constraint := by
  induction symbol with
  | token | mark | rule name => rfl
  | boxed content ih => exact ih

/-- A whole parse matches as its root does. A complete one leaves only what the root would skip. -/
theorem parseFrom_matches {root : Symbol} {complete : Bool} :
    Matches (grammar.parseFrom root complete) start tree next ↔
      Matches (grammar.parse root .anyToken) start tree next ∧
        (complete = true → (grammar.skipTrailing root next).peek.isEnd = true) := by
  simp only [Matches, parseFrom_run]
  cases grammar.parse root .anyToken start with
  | mk journal outcome =>
      cases outcome with
      | failed | stuck => simp
      | matched read stop =>
          by_cases remains : complete = true ∧ (grammar.skipTrailing root stop).peek.isEnd = false
          · simp only [if_pos remains, reduceCtorEq, Outcome.matched.injEq, false_iff]
            rintro ⟨⟨rfl, rfl⟩, ends⟩
            simp [ends remains.1] at remains
          · simp only [if_neg remains, Outcome.matched.injEq, iff_self_and]
            rintro ⟨rfl, rfl⟩ whole
            simpa [whole] using remains

end Grammar
end TokenGrammar
