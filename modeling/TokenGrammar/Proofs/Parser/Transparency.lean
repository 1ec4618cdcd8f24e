import TokenGrammar.Proofs.Grammar.Ranking
import TokenGrammar.Proofs.Parser.Absorption
import TokenGrammar.Proofs.Parser.Place
import TokenGrammar.Proofs.Parser.Record
import TokenGrammar.Proofs.Parser.SideBySide

namespace TokenGrammar

/-! # Filters are transparent

If all rules of a grammar skip the same tokens, those tokens make no difference: a list is parsed
like any other from which it differs in them alone. -/

namespace Constraint

/-- The tokens that a filter leaves. -/
def kept (drop : Constraint) (tokens : List Token) : List Token :=
  tokens.filter fun token => (drop.find? token).isNone

/-- How many tokens before a position a filter leaves. -/
def keptBefore (drop : Constraint) (tokens : List Token) (pos : Nat) : Nat :=
  (drop.kept (tokens.take pos)).length

variable {drop : Constraint}

theorem kept_append (first second : List Token) :
    drop.kept (first ++ second) = drop.kept first ++ drop.kept second := List.filter_append _ _

theorem kept_cons_of_none (keeps : drop.find? token = none) (rest : List Token) :
    drop.kept (token :: rest) = token :: drop.kept rest := by
  simp [kept, keeps]

theorem kept_of_drops (drops : drop.Drops tokens) : drop.kept tokens = [] := by
  simp only [kept, List.filter_eq_nil_iff, Option.isNone_iff_eq_none]
  intro token member none
  simpa [none] using drops token member

end Constraint

namespace Cursor

variable {drop : Constraint} {tokens taken : List Token} {place start next : Cursor}

def In (tokens : List Token) (place : Cursor) : Prop :=
  place.pos ≤ tokens.length ∧ place.rest = tokens.drop place.pos

theorem In.consumes (inside : start.In tokens) (consumes : start.Consumes taken next) :
    next.In tokens := by
  obtain ⟨bound, rest⟩ := inside
  obtain ⟨split, moved⟩ := consumes
  rw [rest] at split
  have length := congrArg List.length split
  simp only [List.length_drop, List.length_append] at length
  refine ⟨by omega, ?_⟩
  rw [moved, ← List.drop_drop, split, List.drop_left]

/-- A place where a filter stops. -/
def Settled (drop : Constraint) (place : Cursor) : Prop := drop.find? place.peek = none

theorem Settled.peek_eq (settled : place.Settled drop) :
    place.peek = (drop.kept place.rest).headD .endOfInput := by
  obtain ⟨pos, _ | ⟨token, rest⟩⟩ := place
  · rfl
  · have keeps : drop.find? token = none := settled
    rw [Constraint.kept_cons_of_none keeps]
    rfl

theorem Settled.kept_advance (settled : place.Settled drop) :
    drop.kept place.advance.rest = (drop.kept place.rest).tail := by
  obtain ⟨pos, _ | ⟨token, rest⟩⟩ := place
  · rfl
  · have keeps : drop.find? token = none := settled
    rw [Constraint.kept_cons_of_none keeps]
    rfl

/-- Of two places the later one has fewer tokens after it that the filter leaves. -/
theorem Settled.kept_lt {later : Cursor} (settled : place.Settled drop) (inside : place.In tokens)
    (laterInside : later.In tokens) (further : place.pos < later.pos) :
    (drop.kept later.rest).length < (drop.kept place.rest).length := by
  obtain ⟨_, rest⟩ := inside
  obtain ⟨laterBound, laterRest⟩ := laterInside
  have present : place.pos < tokens.length := by omega
  have split : place.rest = tokens[place.pos] :: tokens.drop (place.pos + 1) := by
    rw [rest, List.drop_eq_getElem_cons present]
  have keeps : drop.find? tokens[place.pos] = none := by
    simpa only [Settled, peek, split, List.headD_cons] using settled
  have fewer : (drop.kept (tokens.drop later.pos)).length ≤
      (drop.kept (tokens.drop (place.pos + 1))).length :=
    ((List.drop_sublist_drop_left tokens further).filter _).length_le
  rw [split, laterRest, Constraint.kept_cons_of_none keeps, List.length_cons]
  omega

end Cursor

section Comparison

variable (drop : Constraint) (left right : List Token)

/-- Two places with the same tokens ahead, but for those that the filter drops. -/
structure Beside (start other : Cursor) : Prop where
  inside : start.In left
  otherInside : other.In right
  kept : drop.kept start.rest = drop.kept other.rest

/-- Two such places where the filter stops. -/
structure Faces (start other : Cursor) : Prop extends Beside drop left right start other where
  settled : start.Settled drop
  otherSettled : other.Settled drop

/-- Two errors that tell of the same token and the same cause. -/
structure Alike (error other : ParseError) : Prop where
  token : error.token = other.token
  cause : error.cause = other.cause
  place : ∃ start otherStart, Faces drop left right start otherStart ∧
    error.pos = start.pos ∧ other.pos = otherStart.pos

end Comparison

variable {drop : Constraint} {left right : List Token} {start other next otherNext : Cursor}
  {error otherError later otherLater : ParseError}

theorem Faces.peek (faces : Faces drop left right start other) : start.peek = other.peek := by
  rw [faces.settled.peek_eq, faces.otherSettled.peek_eq, faces.kept]

theorem Faces.advance (faces : Faces drop left right start other)
    (present : start.peek.isEnd = false) :
    Beside drop left right start.advance other.advance := by
  have also : other.peek.isEnd = false := by rwa [← faces.peek]
  exact ⟨faces.inside.consumes (Cursor.consumes_advance present),
    faces.otherInside.consumes (Cursor.consumes_advance also),
    by rw [faces.settled.kept_advance, faces.otherSettled.kept_advance, faces.kept]⟩

theorem Beside.skip (beside : Beside drop left right start other) :
    Faces drop left right (start.skip drop) (other.skip drop) := by
  obtain ⟨dropped, drops, consumes⟩ := start.consumes_skip drop
  obtain ⟨otherDropped, otherDrops, otherConsumes⟩ := other.consumes_skip drop
  refine ⟨⟨beside.inside.consumes consumes, beside.otherInside.consumes otherConsumes, ?_⟩,
    start.find_peek_skip drop, other.find_peek_skip drop⟩
  have same := beside.kept
  rwa [consumes.rest, otherConsumes.rest, Constraint.kept_append, Constraint.kept_append,
    Constraint.kept_of_drops drops, Constraint.kept_of_drops otherDrops] at same

theorem Beside.keptBefore (beside : Beside drop left right start other)
    (same : drop.kept left = drop.kept right) :
    drop.keptBefore left start.pos = drop.keptBefore right other.pos := by
  have ahead := congrArg List.length beside.kept
  have whole := congrArg List.length same
  rw [beside.inside.2, beside.otherInside.2] at ahead
  rw [← List.take_append_drop start.pos left, ← List.take_append_drop other.pos right,
    Constraint.kept_append, Constraint.kept_append, List.length_append, List.length_append] at whole
  simp only [Constraint.keptBefore]
  omega

namespace Alike

theorem pos_lt (first : Alike drop left right error otherError)
    (second : Alike drop left right later otherLater) (further : error.pos < later.pos) :
    otherError.pos < otherLater.pos := by
  obtain ⟨_, _, start, other, faces, pos, otherPos⟩ := first
  obtain ⟨_, _, next, otherNext, facesNext, nextPos, otherNextPos⟩ := second
  have fewer := faces.settled.kept_lt faces.inside facesNext.inside (by omega)
  rw [faces.kept, facesNext.kept] at fewer
  rw [otherPos, otherNextPos]
  rcases Nat.lt_trichotomy other.pos otherNext.pos with ahead | level | behind
  · exact ahead
  · have same : other.rest = otherNext.rest := by
      rw [faces.otherInside.2, facesNext.otherInside.2, level]
    rw [same] at fewer
    omega
  · have more := facesNext.otherSettled.kept_lt facesNext.otherInside faces.otherInside behind
    omega

theorem symm (alike : Alike drop left right error otherError) :
    Alike drop right left otherError error := by
  obtain ⟨token, cause, start, other, faces, pos, otherPos⟩ := alike
  exact ⟨token.symm, cause.symm, other, start,
    ⟨⟨faces.otherInside, faces.inside, faces.kept.symm⟩, faces.otherSettled, faces.settled⟩,
    otherPos, pos⟩

theorem pos_eq (first : Alike drop left right error otherError)
    (second : Alike drop left right later otherLater) (level : later.pos = error.pos) :
    otherLater.pos = otherError.pos := by
  rcases Nat.lt_trichotomy otherLater.pos otherError.pos with behind | same | ahead
  · have := pos_lt second.symm first.symm behind
    omega
  · exact same
  · have := pos_lt first.symm second.symm ahead
    omega

theorem merge (first : Alike drop left right error otherError)
    (second : Alike drop left right later otherLater) :
    Alike drop left right (error.merge later) (otherError.merge otherLater) := by
  rcases Nat.lt_trichotomy error.pos later.pos with further | level | behind
  · rwa [ParseError.merge_of_lt further, ParseError.merge_of_lt (pos_lt first second further)]
  · rw [ParseError.merge_of_level level.symm,
      ParseError.merge_of_level (pos_eq first second level.symm), ← first.cause, ← second.cause]
    cases error.cause <;> cases later.cause <;>
      first | exact ⟨first.token, rfl, first.place⟩ | exact first | exact second
  · rwa [ParseError.merge_of_gt behind, ParseError.merge_of_gt (pos_lt second first behind)]

theorem gather (gathered : Option.Rel (Alike drop left right) record otherRecord)
    (alike : Alike drop left right error otherError) :
    Alike drop left right (.gather record error) (.gather otherRecord otherError) := by
  cases gathered with
  | some earlier => exact earlier.merge alike
  | none => exact alike

theorem recordAll {errors others : List ParseError}
    (alike : List.Forall₂ (Alike drop left right) errors others)
    (gathered : Option.Rel (Alike drop left right) record otherRecord) :
    Option.Rel (Alike drop left right) (ParseError.recordAll record errors)
      (ParseError.recordAll otherRecord others) := by
  induction alike generalizing record otherRecord with
  | nil => exact gathered
  | cons first _ ih => exact ih (.some (gather gathered first))

theorem keptBefore (alike : Alike drop left right error otherError)
    (same : drop.kept left = drop.kept right) :
    drop.keptBefore left error.pos = drop.keptBefore right otherError.pos := by
  obtain ⟨_, _, start, other, faces, pos, otherPos⟩ := alike
  rw [pos, otherPos]
  exact faces.toBeside.keptBefore same

theorem atCursor (faces : Faces drop left right start other) (cause : Cause) :
    Alike drop left right (.atCursor cause start) (.atCursor cause other) :=
  ⟨faces.peek, rfl, start, other, faces, rfl, rfl⟩

end Alike

namespace Correspondence

open ParseError (checks checks_append)

/-- The parses of two lists that differ in dropped tokens. The failures of rules themselves do not
count, since they may lie before or behind such tokens. -/
def besides (drop : Constraint) (left right : List Token) : Correspondence where
  Place := Beside drop left right
  Facing := Faces drop left right
  Error _ _ := True
  Notes first second := List.Forall₂ (Alike drop left right) (checks first) (checks second)
  Beyond _ := False
  place_of_facing faces := faces.toBeside
  peek faces := faces.peek
  advance faces present := .inr (faces.advance present)
  merge _ _ := trivial
  notes_nil := .nil
  notes_append first second := by
    rw [checks_append, checks_append]
    exact List.rel_append first second
  error_check _ := trivial
  notes_check {_ _ cause} faces := by
    cases own : cause.ofRule
    · simpa [checks, ParseError.atCursor, own] using Alike.atCursor faces cause
    · simp [checks, ParseError.atCursor, own]
  error_rule _ _ := trivial
  notes_rule _ own := by simp [checks, ParseError.atCursor, own]

end Correspondence

namespace Grammar

open ParseError Correspondence

/-- All rules skip the same tokens, no field looks ahead, and no alternative is repeated. -/
structure Filters (grammar : Grammar) (drop : Constraint) : Prop where
  uniform : ∀ name rule, grammar.find? name = some (.ok rule) → rule.drop = drop
  consuming : grammar.Consuming
  lists : ∀ name rule, grammar.find? name = some (.ok rule) → rule.combinator = .oneOf →
    ∀ field ∈ rule.fields, field.cardinality ≠ .repeated

variable {grammar : Grammar} {declarations : List Declaration}

theorem Filters.suits (filters : grammar.Filters drop)
    (found : grammar.find? name = some (.ok rule)) :
    (besides drop left right).Suits grammar rule where
  drop start other place := by
    rw [filters.uniform name rule found]
    exact .inr place.skip
  lists combinator field member repeated :=
    absurd repeated (filters.lists name rule found combinator field member)
  moves field member _ := .inr (filters.consuming.not_mayIdle found (.inl member))

/-- The outcomes of two parses that differ in dropped tokens alone. -/
inductive Transparent (drop : Constraint) (left right : List Token) :
    Outcome Tree → Outcome Tree → Prop
  | matched {next otherNext : Cursor}
      (consumed : drop.keptBefore left next.pos = drop.keptBefore right otherNext.pos) :
      Transparent drop left right (.matched tree next) (.matched tree otherNext)
  | failed {error otherError : ParseError}
      (token : error.token = otherError.token) (cause : error.cause = otherError.cause)
      (place : drop.keptBefore left error.pos = drop.keptBefore right otherError.pos) :
      Transparent drop left right (.failed error stop) (.failed otherError otherStop)

theorem start_in (tokens : List Token) : (Cursor.start tokens).In tokens := ⟨Nat.zero_le _, rfl⟩

theorem start_beside (same : drop.kept left = drop.kept right) :
    Beside drop left right (.start left) (.start right) :=
  ⟨start_in left, start_in right, same⟩

theorem Filters.progresses (filters : (ofDeclarations declarations).Filters drop) :
    ∀ name rule, (ofDeclarations declarations).find? name = some (.ok rule) →
      (∀ field ∈ rule.fields, (ofDeclarations declarations).Progresses field) ∧
        rule.fields ≠ [] := by
  intro name rule found
  obtain ⟨some, sound⟩ := sized declarations name rule found
  exact ⟨fun field member => ⟨sound field member, filters.consuming.not_mayIdle found (.inl member)⟩,
    some⟩

/-- The errors of a parse are recorded as those of its checks are. -/
theorem Filters.furthest_checks (filters : (ofDeclarations declarations).Filters drop)
    (symbol : Symbol) (constraint : Constraint) (start : Cursor)
    (free : ((ofDeclarations declarations).parse symbol constraint start).outcome.isStuck = false) :
    let journal := ((ofDeclarations declarations).parse symbol constraint start).journal
    furthest (Event.errors journal) = furthest (checks (Event.errors journal)) := by
  have performed := (ofDeclarations declarations).parse_carriesOut symbol constraint start
  generalize (ofDeclarations declarations).parse symbol constraint start = run at performed free
  obtain ⟨journal, outcome⟩ := run
  cases outcome with
  | matched tree next => exact (performed _ rfl).absorbed filters.progresses none trivial
  | failed error stop => exact (performed _ rfl).absorbed filters.progresses none trivial
  | stuck => cases free

theorem Filters.furthest_alike (filters : (ofDeclarations declarations).Filters drop)
    (symbol : Symbol) (constraint : Constraint) {start other : Cursor}
    (free : ((ofDeclarations declarations).parse symbol constraint start).outcome.isStuck = false)
    (freeToo : ((ofDeclarations declarations).parse symbol constraint other).outcome.isStuck =
      false)
    (notes : (besides drop left right).Notes
      (Event.errors ((ofDeclarations declarations).parse symbol constraint start).journal)
      (Event.errors ((ofDeclarations declarations).parse symbol constraint other).journal)) :
    Option.Rel (Alike drop left right)
      (furthest (Event.errors ((ofDeclarations declarations).parse symbol constraint start).journal))
      (furthest
        (Event.errors ((ofDeclarations declarations).parse symbol constraint other).journal)) := by
  rw [filters.furthest_checks symbol constraint start free,
    filters.furthest_checks symbol constraint other freeToo]
  exact Alike.recordAll notes .none

theorem skipTrailing_rule (found : grammar.find? name = some (.ok rule)) (start : Cursor) :
    grammar.skipTrailing (.rule name) start = start.skip rule.drop := by
  simp only [skipTrailing, dropFilter?, found, Option.map_some]
  rfl

/-- Two lists of tokens that are the same but for what all rules of a grammar skip are parsed
alike: with the same tree from the same other tokens, or up to the same failure. -/
theorem parseFrom_transparent (declarations : List Declaration)
    (admissible : Admissible declarations) (drop : Constraint)
    (filters : (ofDeclarations declarations).Filters drop) (root : String)
    (declared : Declares declarations (.rule root)) (complete : Bool) (left right : List Token)
    (same : drop.kept left = drop.kept right) :
    Transparent drop left right
      ((ofDeclarations declarations).parseFrom (.rule root) complete (.start left)).outcome
      ((ofDeclarations declarations).parseFrom (.rule root) complete (.start right)).outcome := by
  have total := admissible.total
  have defined : (ofDeclarations declarations).Defines (.rule root) := admissible.defines declared
  obtain ⟨rule, found⟩ := defined root rfl
  have goesOn (start : Cursor) := free_parse total admissible.wellFounded defined .anyToken start
  have alike := corresponds_parse total admissible.wellFounded (sized declarations)
    (fun _ _ found => filters.suits found) defined .anyToken
    (.inr ⟨root, rfl, start_beside same⟩)
  have recorded (notes : (besides drop left right).Notes _ _) := filters.furthest_alike
    (.rule root) .anyToken (goesOn (.start left)) (goesOn (.start right)) notes
  have held := (ofDeclarations declarations).records_parse (.rule root) .anyToken none (.start left)
  have heldToo :=
    (ofDeclarations declarations).records_parse (.rule root) .anyToken none (.start right)
  have free := goesOn (.start left)
  unfold Parser.Free at free
  rw [parseFrom_run, parseFrom_run]
  generalize (ofDeclarations declarations).parse (.rule root) .anyToken (.start left) = run
    at alike recorded held free
  generalize (ofDeclarations declarations).parse (.rule root) .anyToken (.start right) = other
    at alike recorded heldToo
  cases alike with
  | stuck => cases free
  | escaped escapes =>
      obtain ⟨_, beyond, _⟩ := escapes
      cases beyond
  | matched notes agree place =>
      cases agree
      have skips (start : Cursor) :
          (ofDeclarations declarations).skipTrailing (.rule root) start = start.skip drop := by
        rw [skipTrailing_rule found, filters.uniform root rule found]
      have faces := Beside.skip place
      have trailing := Alike.gather (recorded notes) (Alike.atCursor faces .trailingInput)
      simp only [skips, faces.peek]
      split
      · exact .failed trailing.token trailing.cause (trailing.keptBefore same)
      · exact .matched (place.keptBefore same)
  | failed notes _ =>
      -- A root that fails has put its failure on record.
      have reported := recorded notes
      have first : some (ParseError.gather (furthest _) _) = furthest _ := held _ _ rfl
      have second : some (ParseError.gather (furthest _) _) = furthest _ := heldToo _ _ rfl
      rw [← first, ← second] at reported
      cases reported with
      | some alike => exact .failed alike.token alike.cause (alike.keptBefore same)

/-- A list with comments at every place where there may be one, and the list without them; and both
of them without their ends. -/
theorem parseFrom_transparent_comments :
    let declarations := Language.Sexpr.declarations
    let grammar := ofDeclarations declarations
    let parse tokens := (grammar.parseFrom (.rule "SExpr") true (.start tokens)).outcome
    let drop : Constraint := ⟨[.ofType "comment"]⟩
    let comment := Token.ordinary "comment" "; note"
    let plain : List Token :=
      [.ordinary "bkt" "(", .ordinary "atom" "a", .ordinary "bkt" ")"]
    let annotated : List Token := [comment, .ordinary "bkt" "(", comment, comment,
      .ordinary "atom" "a", comment, .ordinary "bkt" ")", comment]
    let atom : Tree := .node "SExpr" [.mk "number" .optional [], .mk "string" .optional [],
      .mk "atom" .optional [.token (.ordinary "atom" "a")], .mk "list" .optional []]
    let list : Tree := .node "SExpr" [.mk "number" .optional [], .mk "string" .optional [],
      .mk "atom" .optional [], .mk "list" .optional [.node "List" [
        .mk "open" .single [.mark], .mk "items" .repeated [atom], .mk "close" .single [.mark]]]]
    let cause : Cause := .expected [.ofType "number", .ofType "string", .ofType "atom",
      .ofValue "bkt" "(", .ofValue "bkt" ")"]
    Admissible declarations ∧ grammar.Filters drop ∧ Declares declarations (.rule "SExpr") ∧
      drop.kept plain = drop.kept annotated ∧
      Transparent drop plain annotated (parse plain) (parse annotated) ∧
      parse plain = .matched list ⟨3, []⟩ ∧ parse annotated = .matched list ⟨7, [comment]⟩ ∧
      Transparent drop (plain.take 2) (annotated.take 6) (parse (plain.take 2))
        (parse (annotated.take 6)) ∧
      parse (plain.take 2) = .failed ⟨.endOfInput, 2, cause⟩ (.start (plain.take 2)) ∧
      parse (annotated.take 6) = .failed ⟨.endOfInput, 6, cause⟩ (.start (annotated.take 6)) := by
  intro declarations grammar parse drop comment plain annotated atom list cause
  have ranked : ranked declarations (fun name => if name = "SExpr" then 1 else 0) = true := by
    decide +kernel
  have checked : declares declarations (fun _ => true) (.rule "SExpr") = true := by decide
  have declared : Declares declarations (.rule "SExpr") :=
    fun name content => (declares_of_check checked content).1
  have filters : grammar.Filters drop := by
    have uniform : allRules declarations (fun rule => rule.drop = drop) = true := by
      decide +kernel
    have lists : allRules declarations (fun rule => rule.combinator = .oneOf →
        ∀ field ∈ rule.fields, field.cardinality ≠ .repeated) = true := by
      decide +kernel
    exact ⟨fun _ _ found => of_decide_eq_true (of_allRules uniform found),
      consuming_of_ranked ranked, fun _ _ found => of_decide_eq_true (of_allRules lists found)⟩
  have same : drop.kept plain = drop.kept annotated := by decide
  have transparent (left right : List Token) (same : drop.kept left = drop.kept right) :=
    parseFrom_transparent declarations (admissible_of_ranked ranked) drop filters "SExpr" declared
      true left right same
  exact ⟨admissible_of_ranked ranked, filters, declared, same, transparent plain annotated same,
    by decide +kernel, by decide +kernel, transparent _ _ (by decide), by decide +kernel,
    by decide +kernel⟩

end Grammar
end TokenGrammar
