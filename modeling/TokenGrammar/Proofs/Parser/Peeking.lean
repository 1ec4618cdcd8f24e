import TokenGrammar.Proofs.Grammar.Ranking
import TokenGrammar.Proofs.Parser.Matching
import TokenGrammar.Proofs.Parser.Skipping

namespace TokenGrammar

/-! # Repetitions that only look

A field that is repeated ends where a repetition moves nothing. What is skipped before an item and
the separators there are part of its repetition: an item that is only looked at may be matched once
more from where it stands if something has been passed before it. -/

theorem Parser.CarriesOut.consumes {grammar : Grammar} {task : Task} {size : α → Nat}
    {parser : Parser α} (done : CarriesOut grammar task size parser)
    (matched : Matches parser start value next) : ∃ taken, start.Consumes taken next := by
  have performed := done start (.matched (size value) next) (by rw [matched]; rfl)
  exact performed.follows _ _ rfl

namespace Parser

/-- A repetition of a field: where it begins, where its item begins and where both end. -/
structure Turn where
  start : Cursor
  place : Cursor
  next : Cursor
  tree : Tree

namespace Turn

/-- The item has not consumed a token. -/
def idle (turn : Turn) : Bool := turn.next.pos == turn.place.pos

/-- The item has been preceded by tokens that were skipped, or by a separator. -/
def preceded (turn : Turn) : Bool := turn.place.pos != turn.start.pos

end Turn

section Turns

variable {content : Symbol → Constraint → Parser Tree} {between : Gap} {field : FieldDescriptor}
  {before : Nat}

variable (content between field before) in
/-- What comes before the item of a repetition. -/
def approach (count : Nat) : Parser Unit := do
  if count ≠ 0 ∧ field.separator.isEmpty = false then
    dropTokens between.drop
    let _ ← matchNext field.separator
  gap content between (before + count)

variable (content between field before) in
/-- The turns that the repetitions of a field take from one count on. -/
inductive Turns : Nat → Cursor → List Turn → Cursor → Prop
  | full (last : field.size.allowsMore count = false) : Turns count start [] start
  | stopped (failed : Fails (repetition content between field before count) start) :
      Turns count start [] start
  | stalled (approached : Matches (approach content between field before count) start () place)
      (matched : Matches (content field.symbol field.tokens) place tree next)
      (unmoved : next.pos = start.pos) : Turns count start [⟨start, place, next, tree⟩] next
  | more (approached : Matches (approach content between field before count) start () place)
      (matched : Matches (content field.symbol field.tokens) place tree next)
      (moved : next.pos ≠ start.pos) (rest : Turns (count + 1) next turns stop) :
      Turns count start (⟨start, place, next, tree⟩ :: turns) stop

variable {count : Nat} {start next stop : Cursor} {tree : Tree} {turns : List Turn}

theorem repetition_matches_approach :
    Matches (repetition content between field before count) start tree next ↔
      ∃ place, Matches (approach content between field before count) start () place ∧
        Matches (content field.symbol field.tokens) place tree next := by
  by_cases separated : count ≠ 0 ∧ field.separator.isEmpty = false
  · simp only [repetition, approach, item, if_pos separated, bind_matches]
    constructor
    · intro matched
      obtain ⟨_, first, dropped, token, second, separator, _, place, gap, own⟩ := matched
      exact ⟨place, ⟨_, first, dropped, token, second, separator, gap⟩, own⟩
    · intro matched
      obtain ⟨place, ⟨_, first, dropped, token, second, separator, gap⟩, own⟩ := matched
      exact ⟨_, first, dropped, token, second, separator, _, place, gap, own⟩
  · simp only [repetition, approach, item, if_neg separated, bind_matches]
    constructor
    · intro matched
      obtain ⟨_, place, gap, own⟩ := matched
      exact ⟨place, gap, own⟩
    · intro matched
      obtain ⟨place, gap, own⟩ := matched
      exact ⟨_, place, gap, own⟩

theorem Repeats.takes_turns {trees : List Tree}
    (repeats : Repeats content between field before count start journal trees error stop) :
    ∃ turns, Turns content between field before count start turns stop ∧
      turns.map (·.tree) = trees := by
  induction repeats with
  | full last => exact ⟨[], .full last, rfl⟩
  | stopped _ failed => exact ⟨[], .stopped ⟨_, _, congrArg Run.outcome failed⟩, rfl⟩
  | stalled _ matched unmoved =>
      obtain ⟨place, approached, own⟩ :=
        repetition_matches_approach.mp (congrArg Run.outcome matched)
      exact ⟨_, .stalled approached own unmoved, rfl⟩
  | more _ matched moved _ ih =>
      obtain ⟨place, approached, own⟩ :=
        repetition_matches_approach.mp (congrArg Run.outcome matched)
      obtain ⟨turns, rest, same⟩ := ih
      exact ⟨_, .more approached own moved rest, by rw [List.map_cons, same]⟩

namespace Turns

/-- Every turn but the last moves. -/
theorem moves {earlier later : List Turn} {turn : Turn}
    (takes : Turns content between field before count start (earlier ++ turn :: later) stop)
    (goesOn : later ≠ []) : turn.next.pos ≠ turn.start.pos := by
  induction earlier generalizing count start with
  | nil =>
      cases takes with
      | stalled => exact absurd rfl goesOn
      | more _ _ moved _ => exact moved
  | cons head earlier ih =>
      rw [List.cons_append] at takes
      generalize rest : earlier ++ turn :: later = turns at takes
      cases takes with
      | stalled => simp at rest
      | more _ _ _ others =>
          subst rest
          exact ih others

/-- A turn that only looks is the last, or something has been passed before its item. -/
theorem preceded_of_idle {earlier later : List Turn} {turn : Turn}
    (takes : Turns content between field before count start (earlier ++ turn :: later) stop)
    (idle : turn.idle = true) (goesOn : later ≠ []) : turn.preceded = true := by
  have moved := takes.moves goesOn
  have same : turn.next.pos = turn.place.pos := by simpa [Turn.idle] using idle
  rw [same] at moved
  simpa [Turn.preceded] using moved

/-- If nothing is passed before an item that is only looked at, there is one such item at most. -/
theorem count_idle (takes : Turns content between field before count start turns stop)
    (direct : ∀ turn ∈ turns, turn.idle = true → turn.preceded = false) :
    turns.countP (·.idle) ≤ 1 := by
  obtain rfl | ⟨earlier, last, rfl⟩ := turns.eq_nil_or_concat
  · simp
  · have none : earlier.countP (·.idle) = 0 := by
      refine List.countP_eq_zero.mpr fun turn member idle => ?_
      obtain ⟨first, second, rfl⟩ := List.append_of_mem member
      rw [List.concat_eq_append, List.append_assoc, List.cons_append] at takes
      have preceded := takes.preceded_of_idle idle (by simp)
      rw [direct turn (by simp) idle] at preceded
      cases preceded
    rw [List.concat_eq_append, List.countP_append, none, Nat.zero_add]
    exact List.countP_le_length

section Order

variable {grammar : Grammar} (contents : ∀ symbol constraint,
  CarriesOut grammar (.content symbol constraint) (fun _ => 1) (content symbol constraint))

include contents

theorem pos_le_approach {place : Cursor}
    (approached : Matches (approach content between field before count) start () place) :
    start.pos ≤ place.pos := by
  have gaps (items : Nat) := gap_carriesOut contents between items
  by_cases separated : count ≠ 0 ∧ field.separator.isEmpty = false
  · simp only [approach, if_pos separated, bind_matches] at approached
    obtain ⟨_, first, dropped, token, second, separator, rest⟩ := approached
    cases dropped
    obtain ⟨_, _, further⟩ := matchNext_takes separator
    obtain ⟨_, consumes⟩ := (gaps _).consumes rest
    have skipped := start.pos_le_skip between.drop
    have second := further.pos
    have third := consumes.pos
    omega
  · simp only [approach, if_neg separated] at approached
    obtain ⟨_, consumes⟩ := (gaps _).consumes approached
    have moved := consumes.pos
    omega

/-- A turn begins before its item and ends behind it, and the next turn begins there. -/
theorem ordered (takes : Turns content between field before count start turns stop) :
    (∀ turn ∈ turns, start.pos ≤ turn.start.pos ∧ turn.start.pos ≤ turn.place.pos ∧
      turn.place.pos ≤ turn.next.pos) ∧
    turns.Pairwise fun earlier later => earlier.next.pos ≤ later.start.pos := by
  have own {place next : Cursor} {tree : Tree}
      (matched : Matches (content field.symbol field.tokens) place tree next) :
      place.pos ≤ next.pos := by
    obtain ⟨_, consumes⟩ := (contents field.symbol field.tokens).consumes matched
    have moved := consumes.pos
    omega
  induction takes with
  | full | stopped => simp
  | stalled approached matched _ =>
      simpa using ⟨pos_le_approach contents approached, own matched⟩
  | more approached matched _ _ ih =>
      obtain ⟨within, sorted⟩ := ih
      have reached := pos_le_approach contents approached
      have ended := own matched
      refine ⟨List.forall_mem_cons.mpr ⟨⟨Nat.le_refl _, reached, ended⟩, fun turn member => ?_⟩,
        List.pairwise_cons.mpr ⟨fun turn member => (within turn member).1, sorted⟩⟩
      obtain ⟨later, rest⟩ := within turn member
      exact ⟨by omega, rest⟩

/-- A place is looked at twice at most, and then by the last two turns. -/
theorem looks_twice {earlier middle later : List Turn} {first second : Turn}
    (takes : Turns content between field before count start
      (earlier ++ first :: (middle ++ second :: later)) stop)
    (idle : first.idle = true) (again : second.idle = true)
    (same : second.place = first.place) : middle = [] ∧ later = [] := by
  obtain ⟨within, sorted⟩ := takes.ordered contents
  obtain ⟨_, tail, _⟩ := List.pairwise_append.mp sorted
  obtain ⟨behindFirst, rest⟩ := List.pairwise_cons.mp tail
  obtain ⟨_, _, before⟩ := List.pairwise_append.mp rest
  have place := congrArg Cursor.pos same
  have looked : first.next.pos = first.place.pos := by simpa [Turn.idle] using idle
  have lookedAgain : second.next.pos = second.place.pos := by simpa [Turn.idle] using again
  have reached := behindFirst second (by simp)
  obtain ⟨_, begun, _⟩ := within second (by simp)
  constructor
  · cases middle with
    | nil => rfl
    | cons turn middle =>
        -- Between the two there is no room to move.
        have after := behindFirst turn (by simp)
        have further := before turn (by simp) second (by simp)
        obtain ⟨_, forward, onward⟩ := within turn (by simp)
        rw [← List.concat_append] at takes
        refine absurd ?_ (takes.moves (by simp))
        omega
  · cases later with
    | nil => rfl
    | cons turn later =>
        rw [← List.concat_append, ← List.append_assoc] at takes
        refine absurd ?_ (takes.moves (by simp))
        omega

end Order

section Unseparated

variable (plain : between.separator = none) (unseparated : field.separator.isEmpty = true)

include plain unseparated

/-- Without separators only skipped tokens come before an item. -/
theorem approach_plain {place : Cursor} :
    Matches (approach content between field before count) start () place ↔
      place = start.skip between.drop := by
  have first : ¬ (count ≠ 0 ∧ field.separator.isEmpty = false) := by simp [unseparated]
  simp only [approach, if_neg first, gap, plain, Matches, dropTokens_bind_run, pure_run,
    Outcome.matched.injEq, true_and]
  exact eq_comm

/-- An item that is looked at where nothing is skipped is looked at once and no more. -/
theorem looked_at {place : Cursor} {later : List Turn} {tree : Tree}
    (takes : Turns content between field before count place later stop)
    (settled : place.skip between.drop = place)
    (matched : Matches (content field.symbol field.tokens) place tree place)
    (allowed : field.size.allowsMore count = true) :
    ∃ again, later = [again] ∧ again.place = place ∧ again.tree = tree := by
  have approached (count : Nat) {other : Cursor} :
      Matches (approach content between field before count) place () other ↔ other = place := by
    rw [approach_plain plain unseparated, settled]
  cases takes with
  | full last =>
      rw [allowed] at last
      cases last
  | stopped failed =>
      have matches_again := repetition_matches_approach.mpr ⟨_, (approached count).mpr rfl, matched⟩
      obtain ⟨error, stop, fails⟩ := failed
      rw [matches_again] at fails
      cases fails
  | stalled before again =>
      cases (approached count).mp before
      rw [Matches, matched] at again
      cases again
      exact ⟨_, rfl, rfl, rfl⟩
  | more before again moved =>
      cases (approached count).mp before
      rw [Matches, matched] at again
      cases again
      exact absurd rfl moved

variable {grammar : Grammar} (contents : ∀ symbol constraint,
  CarriesOut grammar (.content symbol constraint) (fun _ => 1) (content symbol constraint))

include contents

/-- An item that is looked at behind tokens that were skipped is looked at once more, as long as the
field may have one more. -/
theorem looked_at_again {earlier later : List Turn} {turn : Turn}
    (takes : Turns content between field before count start (earlier ++ turn :: later) stop)
    (idle : turn.idle = true) (preceded : turn.preceded = true)
    (allowed : field.size.allowsMore (count + (earlier.length + 1)) = true) :
    ∃ again, later = [again] ∧ again.place = turn.place ∧ again.tree = turn.tree := by
  induction earlier generalizing count start with
  | nil =>
      cases takes with
      | stalled _ _ unmoved =>
          simp only [Turn.idle, Turn.preceded, beq_iff_eq, bne_iff_ne, unmoved] at idle preceded
          exact absurd idle.symm preceded
      | more approached matched _ rest =>
          obtain ⟨taken, consumes⟩ := (contents field.symbol field.tokens).consumes matched
          have none : taken = [] := by
            have moved := consumes.pos
            simp only [Turn.idle, beq_iff_eq] at idle
            exact List.eq_nil_of_length_eq_zero (by omega)
          subst none
          cases consumes.eq_of_nil
          refine looked_at plain unseparated rest ?_ matched allowed
          rw [(approach_plain plain unseparated).mp approached, Cursor.skip_skip]
  | cons head earlier ih =>
      rw [List.cons_append] at takes
      generalize rest : earlier ++ turn :: later = turns at takes
      cases takes with
      | stalled => simp at rest
      | more _ _ _ others =>
          subst rest
          rw [List.length_cons, ← Nat.add_assoc, Nat.add_right_comm] at allowed
          exact ih others allowed

end Unseparated

end Turns
end Turns
end Parser

namespace Grammar

open TokenGrammar.Parser

/-- The repetitions of a field in which the item consumes nothing: one at most, and the last, unless
something is passed before them. One behind skipped tokens is found once more where it stands, and
never again. -/
theorem repeated_looks (grammar : Grammar) (depth : Nat) (rule : String) (between : Gap)
    (field : FieldDescriptor) (before least : Nat) (start : Cursor)
    (matched : Matches (repeated (contentParser (grammar.ruleParser depth)) rule between field
      before least) start trees stop) :
    ∃ turns, Turns (contentParser (grammar.ruleParser depth)) between field before 0 start turns
        stop ∧ turns.map (·.tree) = trees ∧
      ((∀ turn ∈ turns, turn.idle = true → turn.preceded = false) →
        turns.countP (·.idle) ≤ 1) ∧
      ∀ earlier first later, turns = earlier ++ first :: later → first.idle = true →
        (later ≠ [] → first.preceded = true) ∧
        (∀ middle second rest, later = middle ++ second :: rest → second.idle = true →
          second.place = first.place → middle = [] ∧ rest = []) ∧
        (between.separator = none → field.separator.isEmpty = true → first.preceded = true →
          field.size.allowsMore (earlier.length + 1) = true →
          ∃ again, later = [again] ∧ again.place = first.place ∧ again.tree = first.tree) := by
  have contents := contentParser_carriesOut (grammar.ruleParser_carriesOut depth)
  obtain ⟨_, journal, error, repeats⟩ := repeated_matched matched
  obtain ⟨turns, takes, same⟩ := repeats.takes_turns
  refine ⟨turns, takes, same, takes.count_idle, fun earlier first later split idle => ?_⟩
  subst split
  refine ⟨takes.preceded_of_idle idle, fun middle second rest split again place => ?_,
    fun plain unseparated preceded allowed => ?_⟩
  · subst split
    exact takes.looks_twice contents idle again place
  · rw [← Nat.zero_add (_ + 1)] at allowed
    exact takes.looked_at_again plain unseparated contents idle preceded allowed

/-- Names up to a full stop, which is looked at and left: it follows the last name at once. -/
theorem repeated_looks_names :
    let field : FieldDescriptor := ⟨"names", 0, .token, .repeated,
      ⟨[.ofType "name", ⟨some "stop", none, true⟩]⟩, .unbounded, .anyToken⟩
    let between : Gap := ⟨⟨[.ofType "space"]⟩, none⟩
    let start := Cursor.start [.ordinary "space" " ", .ordinary "name" "x",
      .ordinary "space" " ", .ordinary "name" "y", .ordinary "stop" "."]
    let trees := [.ordinary "name" "x", .ordinary "name" "y", .ordinary "stop" "."].map Tree.token
    let content := contentParser ((.ofDeclarations [] : Grammar).ruleParser 1)
    Matches (repeated content "Names" between field 0 0) start trees
        ⟨4, [.ordinary "stop" "."]⟩ ∧
      ∃ turns, Turns content between field 0 0 start turns ⟨4, [.ordinary "stop" "."]⟩ ∧
        turns.map (·.tree) = trees ∧
        ((∀ turn ∈ turns, turn.idle = true → turn.preceded = false) →
          turns.countP (·.idle) ≤ 1) := by
  intro field between start trees content
  have matched : (repeated content "Names" between field 0 0 start).outcome =
      .matched trees ⟨4, [.ordinary "stop" "."]⟩ := by decide +kernel
  obtain ⟨turns, takes, same, once, _⟩ :=
    repeated_looks (.ofDeclarations []) 1 "Names" between field 0 0 start matched
  exact ⟨matched, turns, takes, same, once⟩

/-- A name behind a space is looked at twice, one at the start of the input once. -/
theorem parse_looks_twice :
    let names : FieldDeclaration := ⟨"names", .token, .repeated, "name*", "", ""⟩
    let declarations := [Declaration.seq "Peeks" "space" [names]]
    let grammar := ofDeclarations declarations
    let space := Token.ordinary "space" " "
    let name := Token.ordinary "name" "x"
    let spaced := (grammar.parse (.rule "Peeks") .anyToken (.start [space, name])).outcome
    let plain := (grammar.parse (.rule "Peeks") .anyToken (.start [name])).outcome
    Admissible declarations ∧
      spaced = .matched (.node "Peeks" [.mk "names" .repeated [.token name, .token name]])
        ⟨1, [name]⟩ ∧
      plain = .matched (.node "Peeks" [.mk "names" .repeated [.token name]]) ⟨0, [name]⟩ := by
  intro names declarations grammar space name spaced plain
  exact ⟨admissible_of_flat (by decide +kernel), by decide +kernel, by decide +kernel⟩

end Grammar
end TokenGrammar
