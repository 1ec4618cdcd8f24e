import TokenGrammar.Proofs.Parser.Locality
import TokenGrammar.Proofs.Parser.Matching
import TokenGrammar.Proofs.Parser.Threading

namespace TokenGrammar

/-! # Ordered choice

A rule that is a choice goes as the first of its fields that matches on its own, from behind the
tokens that the rule skips. What has been tried before, how deep the rule lies and what is on record
make no difference to it. -/

theorem Run.Corresponds.matched_iff {run other : Run α} (alike : Corresponds .same Eq Eq run other)
    (free : run.outcome.isStuck = false) :
    run.outcome = .matched value next ↔ other.outcome = .matched value next := by
  cases alike with
  | stuck => cases free
  | escaped escapes =>
      obtain ⟨_, beyond, _⟩ := escapes
      exact beyond.elim
  | matched _ same place => rw [same, place]
  | failed => simp

namespace Parser

variable {content : Symbol → Constraint → Parser Tree} {rule : Descriptor} {guard : Constraint}
  {start next : Cursor}

theorem isMatch_iff {parser : Parser α} :
    (parser start).outcome.isMatch = true ↔ ∃ value next, Matches parser start value next := by
  unfold Matches
  cases (parser start).outcome <;> simp [Outcome.isMatch]

theorem Free.fails_iff {parser : Parser α} (free : parser.Free start) :
    Fails parser start ↔ (parser start).outcome.isMatch = false := by
  unfold Free at free
  unfold Fails
  cases ends : (parser start).outcome with
  | matched => simp [Outcome.isMatch]
  | failed => simp [Outcome.isMatch]
  | stuck =>
      rw [ends] at free
      cases free

/-- A guard passes if it asks for nothing, or if the rule would see a token that satisfies it. -/
theorem guarded_matches : Matches (guarded rule guard) start () start ↔
    guard.isEmpty = true ∨ (guard.find? (start.skip rule.drop).peek).isSome = true := by
  by_cases free : guard.isEmpty = true
  · have passes : Matches (guarded rule guard) start () start := by
      rw [Matches, guarded_run_free free]
    exact ⟨fun _ => .inl free, fun _ => passes⟩
  · have checks := matchNext_checks guard (start.skip rule.drop)
    rw [Matches, guarded_run_bound (by simpa using free)]
    generalize matchNext guard (start.skip rule.drop) = run at checks ⊢
    cases checks with
    | anyToken unconstrained | atEnd unconstrained => exact absurd unconstrained free
    | accepted _ found => simp [found]
    | refused _ missing => simp [missing, free, reject]

/-- A choice matches as its first field does that matches, if the guard of the rule passes. -/
theorem node_matches_choice (combinator : rule.combinator = .oneOf) {tree : Tree} :
    Matches (node content rule guard) start tree next ↔
      (guard.isEmpty = true ∨ (guard.find? (start.skip rule.drop).peek).isSome = true) ∧
      ∃ before field after trees, rule.fields = before ++ field :: after ∧
        (∀ earlier ∈ before, Fails (alternative content rule earlier) (start.skip rule.drop)) ∧
        Matches (alternative content rule field) (start.skip rule.drop) trees next ∧
        tree = .node rule.name
          (before.map (·.slot []) ++ field.slot trees :: after.map (·.slot [])) := by
  have choosing (slots : List Slot) : Matches (body content rule) start slots next ↔
      Matches (choice content rule rule.fields none) (start.skip rule.drop) slots next := by
    rw [Matches, body_run_skip combinator, Matches]
  simp only [node, bind_matches, within_matches, pure_matches]
  constructor
  · intro parsed
    obtain ⟨_, place, guarding, slots, middle, matched, same, ends⟩ := parsed
    cases guarded_matched guarding
    subst ends same
    obtain ⟨before, field, after, trees, split, failing, taken, rfl⟩ :=
      choice_matches.mp ((choosing slots).mp matched)
    exact ⟨guarded_matches.mp guarding, before, field, after, trees, split, failing, taken, rfl⟩
  · intro chosen
    obtain ⟨passes, before, field, after, trees, split, failing, taken, rfl⟩ := chosen
    refine ⟨(), start, guarded_matches.mpr passes, _, next, (choosing _).mpr ?_, rfl, rfl⟩
    exact choice_matches.mpr ⟨before, field, after, trees, split, failing, taken, rfl⟩

end Parser

namespace Grammar

open TokenGrammar.Parser Correspondence

variable {grammar : Grammar} {symbol : Symbol} {constraint : Constraint} {start : Cursor}

/-- A field of a choice, tried on its own. -/
def tryField (grammar : Grammar) (rule : Descriptor) (field : FieldDescriptor) :
    Parser (List Tree) :=
  Parser.alternative grammar.parse rule field

theorem stuck_of_not_defines (undefined : ¬ grammar.Defines symbol) (depth : Nat) :
    (contentParser (grammar.ruleParser depth) symbol constraint start).outcome.isStuck = true := by
  induction symbol with
  | token | mark =>
      refine absurd (fun name content => ?_) undefined
      cases content
  | boxed inner ih => exact ih undefined
  | rule name =>
      cases depth with
      | zero => rfl
      | succ depth =>
          simp only [contentParser, ruleParser]
          cases found : grammar.find? name with
          | none => rfl
          | some compiled =>
              cases compiled with
              | error => rfl
              | ok rule =>
                  refine absurd (fun other content => ?_) undefined
                  cases content
                  exact ⟨rule, found⟩

section

variable (total : grammar.Total) (wellFounded : ¬ grammar.LeftRecursive) (sized : grammar.Sized)

include total wellFounded sized

/-- What a field holds is parsed within a rule, however deep the rule lies, as it is on its own. -/
theorem parse_alike (depth : Nat) (symbol : Symbol) (constraint : Constraint) (start : Cursor) :
    Run.Corresponds .same Eq Eq (contentParser (grammar.ruleParser depth) symbol constraint start)
      (grammar.parse symbol constraint start) := by
  have deepen {less more : Nat} (deep : less ≤ more) :
      Run.Corresponds .same Eq Eq (contentParser (grammar.ruleParser less) symbol constraint start)
        (contentParser (grammar.ruleParser more) symbol constraint start) :=
    corresponds_contentParser
      (corresponds_ruleParser sized (fun _ rule _ => same_suits grammar rule) deep)
      symbol constraint start start rfl
  by_cases defined : grammar.Defines symbol
  · exact (deepen (Nat.le_max_left depth (grammar.depthBound start))).of_same
      (deepen (Nat.le_max_right _ _)) (free_parse total wellFounded defined constraint start)
  · exact .of_stuck (stuck_of_not_defines defined depth)

/-- A rule is parsed as a node is over the parses of what its fields hold. -/
theorem parse_rule_matches (found : grammar.find? name = some (.ok rule)) (guard : Constraint)
    (start : Cursor) : Matches (grammar.parse (.rule name) guard) start tree next ↔
      Matches (node grammar.parse rule guard) start tree next := by
  have defined : grammar.Defines (.rule name) := by
    intro other content
    cases content
    exact ⟨rule, found⟩
  have free := free_parse total wellFounded defined guard start
  refine Run.Corresponds.matched_iff ?_ free
  simp only [Free, parse, contentParser] at free ⊢
  cases deep : grammar.depthBound start with
  | zero =>
      rw [deep] at free
      cases free
  | succ depth =>
      obtain ⟨some, sound⟩ := sized name rule found
      simp only [ruleParser, found, total.made name rule found, if_true]
      refine corresponds_node (contentParser_carriesOut (ruleParser_carriesOut depth))
        grammar.parse_carriesOut ?_ (same_suits grammar rule) guard found some sound rfl
      intro symbol constraint start other same
      cases same
      exact parse_alike total wellFounded sized depth symbol constraint start

omit sized in
theorem free_tryField (found : grammar.find? name = some (.ok rule))
    (combinator : rule.combinator = .oneOf) (member : field ∈ rule.fields) (start : Cursor) :
    (grammar.tryField rule field).Free start :=
  free_of_spares <| spares_alternative grammar.parse_carriesOut
    (fun _ has place _ =>
      (free_parse total wellFounded (total.closed name rule _ found has) _ place).spares)
    combinator member (.inr ⟨rfl, trivial⟩)

/-- A choice is parsed as the first of its fields is that matches on its own. -/
theorem parse_choice_matches (found : grammar.find? name = some (.ok rule))
    (combinator : rule.combinator = .oneOf) (guard : Constraint) (start : Cursor) :
    Matches (grammar.parse (.rule name) guard) start tree next ↔
      (guard.isEmpty = true ∨ (guard.find? (start.skip rule.drop).peek).isSome = true) ∧
      ∃ before field after trees, rule.fields = before ++ field :: after ∧
        (∀ earlier ∈ before,
          (grammar.tryField rule earlier (start.skip rule.drop)).outcome.isMatch = false) ∧
        Matches (grammar.tryField rule field) (start.skip rule.drop) trees next ∧
        tree = .node rule.name
          (before.map (·.slot []) ++ field.slot trees :: after.map (·.slot [])) := by
  have free {field : FieldDescriptor} (member : field ∈ rule.fields) :=
    free_tryField total wellFounded found combinator member (start.skip rule.drop)
  rw [parse_rule_matches total wellFounded sized found, node_matches_choice combinator]
  constructor
  · intro ⟨passes, before, field, after, trees, split, failing, taken, same⟩
    refine ⟨passes, before, field, after, trees, split, fun earlier member => ?_, taken, same⟩
    exact (free (by simp [split, member])).fails_iff.mp (failing earlier member)
  · intro ⟨passes, before, field, after, trees, split, failing, taken, same⟩
    refine ⟨passes, before, field, after, trees, split, fun earlier member => ?_, taken, same⟩
    exact (free (by simp [split, member])).fails_iff.mpr (failing earlier member)

theorem parse_choice_isMatch (found : grammar.find? name = some (.ok rule))
    (combinator : rule.combinator = .oneOf) (guard : Constraint) (start : Cursor) :
    (grammar.parse (.rule name) guard start).outcome.isMatch = true ↔
      (guard.isEmpty = true ∨ (guard.find? (start.skip rule.drop).peek).isSome = true) ∧
      ∃ field ∈ rule.fields,
        (grammar.tryField rule field (start.skip rule.drop)).outcome.isMatch = true := by
  simp only [isMatch_iff, parse_choice_matches total wellFounded sized found combinator]
  constructor
  · intro ⟨_, next, passes, before, field, after, trees, split, _, taken, _⟩
    exact ⟨passes, field, by simp [split], trees, next, taken⟩
  · intro ⟨passes, field, member, trees, next, taken⟩
    let matching (field : FieldDescriptor) : Bool :=
      (grammar.tryField rule field (start.skip rule.drop)).outcome.isMatch
    have some : (rule.fields.find? matching).isSome = true :=
      List.find?_isSome.mpr ⟨field, member, isMatch_iff.mpr ⟨trees, next, taken⟩⟩
    obtain ⟨first, chosen⟩ := Option.isSome_iff_exists.mp some
    obtain ⟨matched, before, after, split, failing⟩ := List.find?_eq_some_iff_append.mp chosen
    obtain ⟨trees, next, taken⟩ := isMatch_iff.mp matched
    exact ⟨_, next, passes, before, first, after, trees, split,
      fun earlier member => by simpa using failing earlier member, taken, rfl⟩

end

end Grammar

namespace Session

open Grammar TokenGrammar.Parser

/-- A session matches a choice as a new session does the first of its fields that matches on its
own: with the same value, up to the same place. It does so whenever there is such a field and the
guard passes. Nor does any other parse depend on what a session has noted before, and the routines
that change the session step by step do the same. -/
theorem run_choice (declarations : List Declaration) (admissible : Admissible declarations)
    (name : String) (rule : Descriptor)
    (found : (ofDeclarations declarations).find? name = some (.ok rule))
    (combinator : rule.combinator = .oneOf) (guard : Constraint) (session : Session) :
    let grammar := ofDeclarations declarations
    let ran := session.run (grammar.parse (.rule name) guard)
    let place := session.stream.cursor.skip rule.drop
    let alone := fun field =>
      run { stream := session.stream.restore place.pos } (grammar.tryField rule field)
    (ran.1.isStuck = false ∧ ∀ field ∈ rule.fields, (alone field).1.isStuck = false) ∧
    (ran.1.isMatch = true ↔
      (guard.isEmpty = true ∨ (guard.find? place.peek).isSome = true) ∧
      ∃ field ∈ rule.fields, (alone field).1.isMatch = true) ∧
    (∀ tree next, ran.1 = .matched tree next → ∃ before field after trees,
      rule.fields = before ++ field :: after ∧
      (∀ earlier ∈ before, (alone earlier).1.isMatch = false) ∧
      (alone field).1 = .matched trees next ∧ ran.2.stream = (alone field).2.stream ∧
      tree = .node rule.name
        (before.map (·.slot []) ++ field.slot trees :: after.map (·.slot []))) ∧
    (∀ (symbol : Symbol) (constraint : Constraint) (other : Session),
      other.stream = session.stream →
        (other.run (grammar.parse symbol constraint)).1 =
          (session.run (grammar.parse symbol constraint)).1 ∧
        (other.run (grammar.parse symbol constraint)).2.stream =
          (session.run (grammar.parse symbol constraint)).2.stream) ∧
    ∀ (symbol : Symbol) (constraint : Constraint) (other : Session),
      grammar.parseIn symbol constraint other =
        ((other.run (grammar.parse symbol constraint)).1.ended,
          (other.run (grammar.parse symbol constraint)).2) := by
  intro grammar ran place alone
  have total := admissible.total
  have wellFounded := admissible.wellFounded
  have defined : grammar.Defines (.rule name) := by
    intro other content
    cases content
    exact ⟨rule, found⟩
  have tried (field : FieldDescriptor) :
      (alone field).1 = (grammar.tryField rule field place).outcome := by
    simp only [alone, run, place, session.stream.cursor_skip]
  refine ⟨⟨free_parse total wellFounded defined guard _, fun field member => ?_⟩, ?_, ?_, ?_,
    grammar.parseIn_eq⟩
  · rw [tried]
    exact free_tryField total wellFounded found combinator member place
  · simp only [tried]
    exact parse_choice_isMatch total wellFounded (sized declarations) found combinator guard _
  · intro tree next matched
    obtain ⟨_, before, field, after, trees, split, failing, taken, same⟩ :=
      (parse_choice_matches total wellFounded (sized declarations) found combinator guard _).mp
        matched
    refine ⟨before, field, after, trees, split, fun earlier member => ?_, ?_, ?_, same⟩
    · rw [tried]
      exact failing earlier member
    · rw [tried]
      exact taken
    · have ends := taken
      rw [Matches, ← tried] at ends
      have own : (alone field).2.stream = session.stream.restore (alone field).1.cursor.pos := rfl
      have whole : ran.2.stream = session.stream.restore ran.1.cursor.pos := rfl
      rw [own, whole, ends, matched]
      rfl
  · intro symbol constraint other same
    simp only [run, same, and_self]

open Declaration in
/-- Words may be a call, which is tried first: it takes a word and fails at the next one. What is on
record lies further than both. -/
theorem run_choice_words :
    let declarations : List Declaration := [
      ⟨"Expression", some ⟨.oneOf, "space"⟩, [optional (ruleField "call" "Call"),
        ⟨"words", .token, .repeated, "word", "", ""⟩], "Expression"⟩,
      seq "Call" "" [tokenField "name" "word", markField "open" "op,("]]
    let grammar := ofDeclarations declarations
    let call : FieldDescriptor :=
      ⟨"call", 0, .rule "Call", .optional, .anyToken, .unbounded, .anyToken⟩
    let words : FieldDescriptor :=
      ⟨"words", 1, .token, .repeated, ⟨[.ofType "word"]⟩, .unbounded, .anyToken⟩
    let rule : Descriptor :=
      ⟨"Expression", .oneOf, [call, words], none, ⟨[.ofType "space"]⟩⟩
    let stream : TokenStream :=
      ⟨[.ordinary "space" " ", .ordinary "word" "a", .ordinary "word" "b"], 0⟩
    let furthest : ParseError := ⟨.endOfInput, 9, .unexpectedEnd⟩
    let session : Session := { stream, furthest := some furthest, depth := 4, traced := true }
    let ran := session.run (grammar.parse (.rule "Expression") .anyToken)
    let fresh := run { stream } (grammar.parse (.rule "Expression") .anyToken)
    let tree : Tree := .node "Expression" [.mk "call" .optional [],
      .mk "words" .repeated [.token (.ordinary "word" "a"), .token (.ordinary "word" "b")]]
    Admissible declarations ∧ grammar.find? "Expression" = some (.ok rule) ∧
      rule.combinator = .oneOf ∧ ran.1.isMatch = true ∧
      fresh.1.result? = some (.ok tree) ∧ fresh.1 = ran.1 ∧
      (grammar.parseIn (.rule "Expression") .anyToken session).1 = ran.1.ended := by
  intro declarations grammar call words rule stream furthest session ran fresh tree
  have ranked : ranked declarations (fun name => if name = "Expression" then 1 else 0) = true := by
    decide +kernel
  have admissible := admissible_of_ranked ranked
  have found : grammar.find? "Expression" = some (.ok rule) := by rfl
  obtain ⟨_, matching, _, alike, threads⟩ :=
    run_choice declarations admissible "Expression" rule found rfl .anyToken session
  have threaded : (grammar.parseIn (.rule "Expression") .anyToken session).1 = ran.1.ended := by
    rw [threads]
  exact ⟨admissible, found, rfl,
    matching.mpr ⟨.inl rfl, words, by simp [rule], by decide +kernel⟩, by decide +kernel,
    (alike (.rule "Expression") .anyToken { stream } rfl).1, threaded⟩

end Session
end TokenGrammar
