import TokenGrammar.Proofs.Grammar.Blank
import TokenGrammar.Proofs.Grammar.Ranking
import TokenGrammar.Proofs.Parser.Backtracking
import TokenGrammar.Proofs.Parser.Matching
import TokenGrammar.Proofs.Parser.Termination

namespace TokenGrammar

/-! # Nodes that are filled field by field

A call that parses a field changes that field of the node and moves on, or it changes nothing. What
a node holds after any number of calls is what it held before, and what they have parsed. -/

namespace Outcome

/-- An outcome with another value, if it has one. -/
def map (change : α → β) : Outcome α → Outcome β
  | matched value next => matched (change value) next
  | failed error stop => failed error stop
  | stuck fault stop => stuck fault stop

/-- The value of a match. -/
def valueD (otherwise : α) : Outcome α → α
  | matched value _ => value
  | _ => otherwise

end Outcome

namespace FieldDeclaration

/-- What a field holds when one more tree is put into it. -/
def put (field : FieldDeclaration) (held : List Tree) (tree : Tree) : List Tree :=
  if field.cardinality = .repeated then held ++ [tree] else [tree]

/-- What it holds when trees are put into it one after another. -/
def putAll (field : FieldDeclaration) (held trees : List Tree) : List Tree :=
  if field.cardinality = .repeated then held ++ trees
  else (trees.getLast?.map fun tree => [tree]).getD held

theorem put_ne_nil (field : FieldDeclaration) (held : List Tree) (tree : Tree) :
    field.put held tree ≠ [] := by
  unfold put
  split <;> simp

theorem putAll_nil (field : FieldDeclaration) (held : List Tree) : field.putAll held [] = held := by
  unfold putAll
  split <;> simp

theorem putAll_cons (field : FieldDeclaration) (held : List Tree) (tree : Tree)
    (rest : List Tree) :
    field.putAll held (tree :: rest) = field.putAll (field.put held tree) rest := by
  unfold putAll put
  split
  · simp
  · rw [List.getLast?_cons]
    cases rest.getLast? <;> rfl

end FieldDeclaration

namespace Draft

/-- A node has a place for each field of its rule. -/
def Fits (draft : Draft) : Prop := draft.values.length = draft.declaration.fields.length

/-- The node and the session after a call for the field of an index. Only a match changes the
node. -/
def fill (grammar : Grammar) (state : Draft × Session) (call : Nat × Constraint) :
    Draft × Session :=
  let ran := state.2.run (state.1.parseField grammar call.1 call.2)
  (ran.1.valueD state.1, ran.2)

/-- A tree has been put into one field of a node. -/
structure Puts (draft filled : Draft) (index : Nat) (field : FieldDeclaration) (tree : Tree) :
    Prop where
  declared : draft.declaration.fields[index]? = some field
  declaration : filled.declaration = draft.declaration
  fits : filled.Fits
  others : ∀ other, other ≠ index → filled.values[other]? = draft.values[other]?
  own : filled.view index = ⟨field.cardinality, field.put (draft.view index).values tree⟩

variable {draft : Draft} {field : FieldDeclaration} {index : Nat}

/-- Nodes begin with a place for each field. -/
theorem fits_blank {declarations : List Declaration} {declaration : Declaration}
    (blanked : blank? declarations declaration = some draft) : draft.Fits := by
  obtain ⟨values, found, rfl⟩ := Option.map_eq_some_iff.mp blanked
  exact (forall₂_of_mapM_some found).length_eq.symm

theorem view_of_declared (fits : draft.Fits)
    (declared : draft.declaration.fields[index]? = some field) :
    ∃ held, draft.values[index]? = some held ∧ draft.view index = ⟨field.cardinality, held⟩ := by
  obtain ⟨inside, _⟩ := List.getElem?_eq_some_iff.mp declared
  rw [← fits] at inside
  have place : draft.values[index]? = some draft.values[index] := List.getElem?_eq_getElem inside
  exact ⟨_, place, by simp only [view, declared, place]⟩

theorem puts_store (fits : draft.Fits)
    (declared : draft.declaration.fields[index]? = some field) (tree : Tree) :
    draft.Puts (draft.store index field tree) index field tree where
  declared := declared
  declaration := rfl
  fits := by simpa [Fits, store] using fits
  others other apart := by simp [store, apart.symm]
  own := by
    obtain ⟨held, place, shown⟩ := view_of_declared fits declared
    have kept : (draft.store index field tree).declaration.fields[index]? = some field := declared
    have put : (draft.store index field tree).values[index]? = some (field.put held tree) := by
      simp [store, place, FieldDeclaration.put]
    simp only [view, kept, put, declared, place]

theorem Puts.view_other {filled : Draft} {tree : Tree} {other : Nat}
    (puts : draft.Puts filled index field tree) (apart : other ≠ index) :
    filled.view other = draft.view other := by
  simp only [view, puts.declaration, puts.others other apart]

end Draft

theorem Grammar.parse_content (grammar : Grammar) (symbol : Symbol) (constraint : Constraint) :
    grammar.parse symbol.content constraint = grammar.parse symbol constraint :=
  funext fun start => congrFun (contentParser_content _ symbol constraint) start

open Draft

namespace Session

variable {grammar : Grammar} {draft : Draft} {field : FieldDeclaration} {index : Nat}

/-- A parse matches and takes the stream to the end of the match, or it fails and leaves the stream
where it is. -/
theorem run_parse {declarations : List Declaration} {symbol : Symbol}
    (admissible : Grammar.Admissible declarations)
    (known : Grammar.Declares declarations symbol) (constraint : Constraint) (session : Session) :
    (∃ tree next after,
      session.run ((Grammar.ofDeclarations declarations).parse symbol constraint) =
        (.matched tree next, after) ∧ after.stream = session.stream.restore next.pos) ∨
    ∃ error after, session.run ((Grammar.ofDeclarations declarations).parse symbol constraint) =
      (.failed error session.stream.cursor, after) ∧ after.stream = session.stream := by
  have free := Grammar.free_parse admissible.total admissible.wellFounded
    (admissible.defines known) constraint session.stream.cursor
  cases ends : ((Grammar.ofDeclarations declarations).parse symbol constraint
      session.stream.cursor).outcome with
  | matched tree next =>
      refine .inl ⟨tree, next, _, Prod.ext ends rfl, ?_⟩
      simp only [run, ends]
      rfl
  | failed error stop =>
      cases Grammar.parse_failed ends
      refine .inr ⟨error, _, Prod.ext ends rfl, ?_⟩
      simp only [run, ends]
      rfl
  | stuck fault stop => simp [Parser.Free, ends, Outcome.isStuck] at free

/-- A call for a field does what a parse of its content does, and puts the tree in its place. -/
theorem run_parseField (declared : draft.declaration.fields[index]? = some field)
    (constraint : Constraint) (session : Session) :
    session.run (draft.parseField grammar index constraint) =
      ((session.run (grammar.parse field.symbol.content constraint)).1.map
          (draft.store index field),
        (session.run (grammar.parse field.symbol.content constraint)).2) := by
  simp only [run, parseField, declared, Grammar.parse_content]
  rw [Parser.bind_run]
  generalize grammar.parse field.symbol constraint session.stream.cursor = ran
  obtain ⟨journal, outcome⟩ := ran
  cases outcome <;> simp [Parser.pure_run, Outcome.map, Outcome.cursor]

/-- A call for an index that is no field fails where it stands, and the failure is not put on
record. -/
theorem run_parseField_absent (absent : draft.declaration.fields[index]? = none)
    (constraint : Constraint) (session : Session) :
    session.run (draft.parseField grammar index constraint) =
      (.failed (session.errorHere (draft.noField index)) session.stream.cursor, session) := by
  simp only [run, parseField, absent]
  rw [Parser.here_bind_run, Parser.fail_run]
  simp [Outcome.cursor, TokenStream.restore, TokenStream.cursor, Event.errors, Trace.depthAfter,
    Trace.lines, errorHere]

end Session

namespace Draft

open Grammar

variable {grammar : Grammar} {draft : Draft} {field : FieldDeclaration} {index : Nat}

theorem fill_field (declared : draft.declaration.fields[index]? = some field)
    (constraint : Constraint) (session : Session) :
    fill grammar (draft, session) (index, constraint) =
      (((session.run (grammar.parse field.symbol.content constraint)).1.map
          (draft.store index field)).valueD draft,
        (session.run (grammar.parse field.symbol.content constraint)).2) := by
  simp only [fill, Session.run_parseField declared]

theorem fill_absent (absent : draft.declaration.fields[index]? = none) (constraint : Constraint)
    (session : Session) :
    fill grammar (draft, session) (index, constraint) = (draft, session) := by
  simp only [fill, Session.run_parseField_absent absent, Outcome.valueD]

/-- A call fails and leaves the node and the stream as they are, if it is for no field or if what
the field holds does not parse. Otherwise what has been parsed is in the field, and in no other
one, the stream stands behind it, and the session has gone on as in a parse of that alone, without
the boxes around it. -/
theorem parseField_fills (declarations : List Declaration) (admissible : Admissible declarations)
    (draft : Draft) (fits : draft.Fits)
    (known : ∀ field ∈ draft.declaration.fields, Declares declarations field.symbol)
    (index : Nat) (constraint : Constraint) (session : Session) :
    let grammar := ofDeclarations declarations
    let ran := session.run (draft.parseField grammar index constraint)
    let filled := fill grammar (draft, session) (index, constraint)
    (∃ error, ran.1 = .failed error session.stream.cursor ∧
      filled.1 = draft ∧ filled.2.stream = session.stream ∧
      (draft.declaration.fields[index]? = none ∧
          error = session.errorHere (draft.noField index) ∧ filled.2 = session ∨
        ∃ field, draft.declaration.fields[index]? = some field ∧
          session.run (grammar.parse field.symbol.content constraint) =
            (.failed error session.stream.cursor, filled.2))) ∨
    ∃ field tree next, ran.1 = .matched filled.1 next ∧
      draft.Puts filled.1 index field tree ∧ (filled.1.view index).isEmpty = false ∧
      session.run (grammar.parse field.symbol constraint) = (.matched tree next, filled.2) ∧
      session.run (grammar.parse field.symbol.content constraint) =
        (.matched tree next, filled.2) ∧
      filled.2.stream = session.stream.restore next.pos := by
  intro grammar ran filled
  cases declared : draft.declaration.fields[index]? with
  | none =>
      have absent : filled = (draft, session) := fill_absent declared constraint session
      have failed : ran = _ := Session.run_parseField_absent declared constraint session
      rw [absent]
      exact .inl ⟨_, congrArg Prod.fst failed, rfl, rfl, .inl ⟨rfl, rfl, rfl⟩⟩
  | some field =>
      have stored : filled = _ := fill_field declared constraint session
      have performed : ran = _ := Session.run_parseField declared constraint session
      have inside : Declares declarations field.symbol.content := fun name content =>
        known field (List.mem_of_getElem? declared) name (by simpa using content)
      rcases session.run_parse admissible inside constraint with
        ⟨tree, next, after, parsed, advanced⟩ | ⟨error, after, parsed, stays⟩
      · rw [parsed] at stored performed
        have puts := puts_store fits declared tree
        have shown : ((draft.store index field tree).view index).isEmpty = false := by
          simp [puts.own, FieldView.isEmpty, field.put_ne_nil]
        rw [stored, performed]
        refine .inr ⟨field, tree, next, rfl, puts, shown, ?_, parsed, advanced⟩
        rw [← Grammar.parse_content]
        exact parsed
      · rw [parsed] at stored performed
        rw [stored, performed]
        exact .inl ⟨error, rfl, rfl, stays, .inr ⟨field, rfl, parsed⟩⟩

open Declaration in
/-- Pairs in boxes, behind something else. The second half of another pair is missing when all of
its first half has been read, and there is no second field. -/
theorem parseField_fills_pairs :
    let pairs : FieldDeclaration :=
      { name := "pairs", symbol := .boxed (.rule "Pair"), cardinality := .repeated }
    let declarations := [seq "Pair" "" [tokenField "first" "a", tokenField "second" "b"],
      seq "Pairs" "" [pairs]]
    let grammar := ofDeclarations declarations
    let draft : Draft := ⟨seq "Pairs" "" [pairs], [[.mark]]⟩
    let a := Token.ordinary "a" ""
    let b := Token.ordinary "b" ""
    let tree : Tree :=
      .node "Pair" [.mk "first" .single [.token a], .mk "second" .single [.token b]]
    let whole : Session := { stream := ⟨[b, a, b], 1⟩ }
    let broken : Session := { stream := ⟨[a, a], 0⟩ }
    Admissible declarations ∧ draft.Fits ∧
      (fill grammar (draft, whole) (0, .anyToken)).1.view 0 = ⟨.repeated, [.mark, tree]⟩ ∧
      (fill grammar (draft, whole) (0, .anyToken)).2.stream = whole.stream.restore 3 ∧
      (fill grammar (draft, broken) (0, .anyToken)).1 = draft ∧
      (fill grammar (draft, broken) (0, .anyToken)).2.stream = broken.stream ∧
      fill grammar (draft, whole) (1, .anyToken) = (draft, whole) := by
  intro pairs declarations grammar draft a b tree whole broken
  have ranked : ranked declarations (fun name => if name = "Pairs" then 1 else 0) = true := by
    decide +kernel
  have admissible := admissible_of_ranked ranked
  have checked : declares declarations (fun _ => true) pairs.symbol = true := by decide
  have known : ∀ field ∈ draft.declaration.fields, Declares declarations field.symbol := by
    intro field member
    cases List.mem_singleton.mp member
    exact fun name content => (declares_of_check checked content).1
  have calls := parseField_fills declarations admissible draft rfl known
  have shows : (fill grammar (draft, whole) (0, .anyToken)).1.view 0 =
      ⟨.repeated, [.mark, tree]⟩ ∧
      (fill grammar (draft, whole) (0, .anyToken)).2.stream = whole.stream.restore 3 := by
    have matching : (whole.run (draft.parseField grammar 0 .anyToken)).1.isMatch = true := by
      decide +kernel
    have own : (whole.run (grammar.parse (.rule "Pair") .anyToken)).1 = .matched tree ⟨3, []⟩ := by
      decide +kernel
    obtain ⟨_, failed, _⟩ | ⟨field, read, next, _, puts, _, _, parsed, moved⟩ := calls 0 .anyToken whole
    · rw [failed] at matching
      cases matching
    · cases puts.declared
      cases own.symm.trans (congrArg Prod.fst parsed)
      exact ⟨puts.own, moved⟩
  have absent : fill grammar (draft, whole) (1, .anyToken) = (draft, whole) := by
    obtain ⟨_, _, same, _, ⟨_, _, stays⟩ | ⟨_, declared, _⟩⟩ | ⟨_, _, _, _, puts, _⟩ :=
      calls 1 .anyToken whole
    · exact Prod.ext same stays
    · cases declared
    · cases puts.declared
  have failing : (broken.run (draft.parseField grammar 0 .anyToken)).1.isFailure = true := by
    decide +kernel
  obtain ⟨_, _, same, stays, _⟩ | ⟨_, _, _, matched, _⟩ := calls 0 .anyToken broken
  · exact ⟨admissible, rfl, shows.1, shows.2, same, stays, absent⟩
  · rw [matched] at failing
    cases failing

end Draft

/-! A run of calls, in any order and with failures among them. -/

section Calls

/-- What calls for the fields of a rule parse in a session, with the indices of the fields, and the
session after them. -/
def Declaration.parses (declaration : Declaration) (grammar : Grammar) :
    List (Nat × Constraint) → Session → List (Nat × Tree) × Session
  | [], session => ([], session)
  | (index, constraint) :: later, session =>
    match declaration.fields[index]? with
    | none => declaration.parses grammar later session
    | some field =>
      let ran := session.run (grammar.parse field.symbol.content constraint)
      let more := declaration.parses grammar later ran.2
      match ran.1 with
      | .matched tree _ => ((index, tree) :: more.1, more.2)
      | _ => more

/-- The trees for one of the fields. -/
def treesFor (index : Nat) (parsed : List (Nat × Tree)) : List Tree :=
  parsed.filterMap fun entry => if entry.1 = index then some entry.2 else none

variable {grammar : Grammar}

theorem treesFor_cons_self (index : Nat) (tree : Tree) (parsed : List (Nat × Tree)) :
    treesFor index ((index, tree) :: parsed) = tree :: treesFor index parsed := by
  simp [treesFor]

theorem treesFor_cons_other {index other : Nat} (apart : other ≠ index) (tree : Tree)
    (parsed : List (Nat × Tree)) :
    treesFor other ((index, tree) :: parsed) = treesFor other parsed := by
  simp [treesFor, apart.symm]

namespace Draft

/-- After a run of calls a field holds what it held before, with all that was parsed for it put
into it in turn. Calls that fail leave nothing behind but their failures in the session. -/
theorem view_fills (draft : Draft) (fits : draft.Fits) (calls : List (Nat × Constraint))
    (session : Session) :
    let filled := calls.foldl (fill grammar) (draft, session)
    let parsed := draft.declaration.parses grammar calls session
    filled.2 = parsed.2 ∧ filled.1.declaration = draft.declaration ∧ filled.1.Fits ∧
      ∀ index field, draft.declaration.fields[index]? = some field →
        filled.1.view index = ⟨field.cardinality,
          field.putAll (draft.view index).values (treesFor index parsed.1)⟩ := by
  -- The calls that are left find the node as the first one has left it: with one more tree in the
  -- field of that call, or as it was.
  induction calls generalizing draft session with
  | nil =>
      refine ⟨rfl, rfl, fits, fun index field declared => ?_⟩
      obtain ⟨held, _, shown⟩ := view_of_declared fits declared
      simp only [List.foldl_nil, Declaration.parses, treesFor, List.filterMap_nil,
        FieldDeclaration.putAll_nil, shown]
  | cons call later ih =>
      obtain ⟨index, constraint⟩ := call
      simp only [List.foldl_cons]
      cases declared : draft.declaration.fields[index]? with
      | none =>
          simp only [fill_absent declared, Declaration.parses, declared]
          exact ih draft fits session
      | some field =>
          simp only [fill_field declared, Declaration.parses, declared]
          generalize session.run (grammar.parse field.symbol.content constraint) = ran
          obtain ⟨outcome, after⟩ := ran
          cases outcome with
          | failed | stuck => exact ih draft fits after
          | matched tree next =>
              have puts := puts_store fits declared tree
              obtain ⟨ends, same, fitting, views⟩ :=
                ih (draft.store index field tree) puts.fits after
              simp only [puts.declaration] at ends same views
              refine ⟨ends, same, fitting, fun other another known => ?_⟩
              rw [Outcome.map, Outcome.valueD, views other another known]
              by_cases own : other = index
              · subst own
                cases declared.symm.trans known
                rw [treesFor_cons_self, FieldDeclaration.putAll_cons, puts.own]
              · rw [treesFor_cons_other own, puts.view_other own]

end Draft
end Calls
end TokenGrammar
