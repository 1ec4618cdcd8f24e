import Mathlib.Data.Option.Basic
import TokenGrammar.Proofs.Pattern.Naming

namespace TokenGrammar.Pattern

/-! What a match reports, and which of several patterns a match is of. -/

namespace Matcher

/-- A matcher passes on what comes after it. -/
def Natural (matcher : Matcher) : Prop :=
  ∀ spot next (change : Spot → Spot),
    matcher spot (fun after => (next after).map change) = (matcher spot next).map change

/-- A match goes on from some place, and has reported no names before but some. -/
def Reports (names : List String) (matcher : Matcher) : Prop :=
  ∀ spot next last, matcher spot next = some last →
    ∃ after, next after = some last ∧ ∀ name ∈ after.names, name ∈ names ∨ name ∈ spot.names

section Natural

variable {body : Matcher}

theorem natural_times (natural : body.Natural) (count : Nat) : (body.times count).Natural := by
  induction count with
  | zero => exact fun _ _ _ => rfl
  | succ count ih =>
      intro spot next change
      simp only [times, ih _ next change]
      exact natural _ _ _

theorem natural_upTo (natural : body.Natural) (greedy : Bool) (count : Nat) :
    (body.upTo greedy count).Natural := by
  induction count with
  | zero => exact fun _ _ _ => rfl
  | succ count ih =>
      intro spot next change
      have further := natural spot (fun after => body.upTo greedy count after next) change
      simp only [upTo, ih _ next change, further]
      cases greedy <;> simp [Option.map_or]

theorem natural_more (natural : body.Natural) (greedy : Bool) (steps : Nat) :
    (body.more greedy steps).Natural := by
  induction steps with
  | zero => exact fun _ _ _ => rfl
  | succ steps ih =>
      intro spot next change
      have further := natural spot (fun after =>
        if after.rest.length < spot.rest.length then body.more greedy steps after next
        else none) change
      have inside : (fun after : Spot => if after.rest.length < spot.rest.length then
          body.more greedy steps after (fun after => (next after).map change) else none) =
          fun after => (if after.rest.length < spot.rest.length then
            body.more greedy steps after next else none).map change := by
        funext after
        rw [ih]
        split <;> rfl
      simp only [more, inside, further]
      cases greedy <;> simp [Option.map_or]

theorem natural_plus (natural : body.Natural) (greedy : Bool) : (body.plus greedy).Natural := by
  intro spot next change
  have inside : (fun after : Spot => if after.rest.length < spot.rest.length then
      body.more greedy after.rest.length after (fun after => (next after).map change)
      else (next after).map change) =
      fun after => (if after.rest.length < spot.rest.length then
        body.more greedy after.rest.length after next else next after).map change := by
    funext after
    rw [natural_more natural]
    split <;> rfl
  simp only [plus, inside]
  exact natural _ _ _

theorem natural_atLeast (natural : body.Natural) (greedy : Bool) (min : Nat) :
    (body.atLeast greedy min).Natural := by
  have plus := natural_plus natural greedy
  intro spot next change
  cases min with
  | zero =>
      simp only [atLeast, plus spot next change]
      cases greedy <;> simp [Option.map_or]
  | succ min =>
      simp only [atLeast, plus _ next change]
      exact natural_times natural min _ _ _

end Natural

section Reports

variable {names : List String} {body : Matcher}

/-- What reports names, followed by what reports the same names. -/
theorem Reports.followed {first second : Matcher} (reports : first.Reports names)
    (further : second.Reports names) (matched : first spot (fun middle => second middle next) = some last) :
    ∃ after, next after = some last ∧ ∀ name ∈ after.names, name ∈ names ∨ name ∈ spot.names := by
  obtain ⟨middle, matched, told⟩ := reports spot _ last matched
  obtain ⟨after, goes, later⟩ := further middle next last matched
  exact ⟨after, goes, fun name member => (later name member).elim .inl (told name)⟩

theorem reports_skip : Matcher.Reports names fun spot next => next spot :=
  fun spot _ _ matched => ⟨spot, matched, fun _ => .inr⟩

theorem reports_times (reports : body.Reports names) (count : Nat) :
    (body.times count).Reports names := by
  induction count with
  | zero => exact reports_skip
  | succ count ih => exact fun _ _ _ matched => reports.followed ih matched

theorem reports_upTo (reports : body.Reports names) (greedy : Bool) (count : Nat) :
    (body.upTo greedy count).Reports names := by
  induction count with
  | zero => exact reports_skip
  | succ count ih =>
      intro spot next last matched
      unfold upTo at matched
      split at matched <;> rcases (Option.orElse_eq_some _ _ _).mp matched with matched | ⟨_, matched⟩
      · exact reports.followed ih matched
      · exact reports_skip spot next last matched
      · exact reports_skip spot next last matched
      · exact reports.followed ih matched

theorem reports_more (reports : body.Reports names) (greedy : Bool) (steps : Nat) :
    (body.more greedy steps).Reports names := by
  induction steps with
  | zero => exact reports_skip
  | succ steps ih =>
      intro spot next last matched
      have again : Reports names fun after next => if after.rest.length < spot.rest.length then
          body.more greedy steps after next else none := by
        intro after next last matched
        by_cases shorter : after.rest.length < spot.rest.length
        · simp only [if_pos shorter] at matched
          exact ih after next last matched
        · simp only [if_neg shorter] at matched
          cases matched
      simp only [more] at matched
      split at matched <;> rcases (Option.orElse_eq_some _ _ _).mp matched with matched | ⟨_, matched⟩
      · exact reports.followed again matched
      · exact reports_skip spot next last matched
      · exact reports_skip spot next last matched
      · exact reports.followed again matched

theorem reports_plus (reports : body.Reports names) (greedy : Bool) :
    (body.plus greedy).Reports names := by
  intro spot next last matched
  have again : Reports names fun after next => if after.rest.length < spot.rest.length then
      body.more greedy after.rest.length after next else next after := by
    intro after next last matched
    by_cases shorter : after.rest.length < spot.rest.length
    · simp only [if_pos shorter] at matched
      exact reports_more reports greedy _ after next last matched
    · simp only [if_neg shorter] at matched
      exact reports_skip after next last matched
  exact reports.followed again matched

theorem reports_atLeast (reports : body.Reports names) (greedy : Bool) (min : Nat) :
    (body.atLeast greedy min).Reports names := by
  have plus := reports_plus reports greedy
  intro spot next last matched
  cases min with
  | zero =>
      simp only [atLeast] at matched
      split at matched <;> rcases (Option.orElse_eq_some _ _ _).mp matched with matched | ⟨_, matched⟩
      · exact plus spot next last matched
      · exact reports_skip spot next last matched
      · exact reports_skip spot next last matched
      · exact plus spot next last matched
  | succ min => exact (reports_times reports min).followed plus matched

theorem Reports.mono (reports : body.Reports names) (more : ∀ name ∈ names, name ∈ larger) :
    body.Reports larger := by
  intro spot next last matched
  obtain ⟨after, goes, told⟩ := reports spot next last matched
  exact ⟨after, goes, fun name member => (told name member).imp_left (more name)⟩

end Reports
end Matcher

theorem matcher_natural (pattern : Pattern) : pattern.matcher.Natural := by
  induction pattern with
  | empty => exact fun _ _ _ => rfl
  | one set =>
      intro spot next change
      simp only [matcher]
      split
      · cases spot.next? <;> rfl
      · rfl
  | anchor condition =>
      intro spot next change
      simp only [matcher]
      split <;> rfl
  | seq first second ihFirst ihSecond =>
      intro spot next change
      simp only [matcher, ihSecond _ next change]
      exact ihFirst _ _ _
  | either left right ihLeft ihRight =>
      intro spot next change
      simp [matcher, ihLeft spot next change, ihRight spot next change, Option.map_or]
  | named name body ih => exact fun spot next change => ih spot _ change
  | repeated greedy min max body ih =>
      intro spot next change
      cases max with
      | some max =>
          simp only [matcher, Matcher.natural_upTo ih _ _ _ next change]
          exact Matcher.natural_times ih _ _ _ _
      | none => exact Matcher.natural_atLeast ih greedy min spot next change

theorem matcher_reports (pattern : Pattern) : pattern.matcher.Reports pattern.groupNames := by
  induction pattern with
  | empty => exact Matcher.reports_skip
  | one set =>
      intro spot next last matched
      simp only [matcher] at matched
      split at matched
      · obtain ⟨after, moved, matched⟩ := Option.bind_eq_some_iff.mp matched
        have same : after.names = spot.names := by
          unfold Spot.next? at moved
          split at moved <;> cases moved
          rfl
        exact ⟨after, matched, fun name member => .inr (same ▸ member)⟩
      · cases matched
  | anchor condition =>
      intro spot next last matched
      simp only [matcher] at matched
      split at matched
      · exact Matcher.reports_skip spot next last matched
      · cases matched
  | seq first second ihFirst ihSecond =>
      have reports : first.matcher.Reports (seq first second).groupNames :=
        ihFirst.mono fun name member => List.mem_append_left _ member
      have further : second.matcher.Reports (seq first second).groupNames :=
        ihSecond.mono fun name member => List.mem_append_right _ member
      exact fun spot next last matched => reports.followed further matched
  | either left right ihLeft ihRight =>
      intro spot next last matched
      rcases (Option.orElse_eq_some _ _ _).mp matched with matched | ⟨_, matched⟩
      · exact ihLeft.mono (fun name member => List.mem_append_left _ member) spot next last matched
      · exact ihRight.mono (fun name member => List.mem_append_right _ member) spot next last matched
  | named name body ih =>
      intro spot next last matched
      obtain ⟨after, goes, told⟩ := ih spot _ last matched
      refine ⟨{ after with names := name :: after.names }, goes, fun other member => ?_⟩
      rcases List.mem_cons.mp member with rfl | member
      · exact .inl (List.mem_cons_self ..)
      · exact (told other member).imp_left (List.mem_cons_of_mem _)
  | repeated greedy min max body ih =>
      intro spot next last matched
      cases max with
      | some max =>
          have further := Matcher.reports_upTo ih greedy (max - min)
          exact (Matcher.reports_times ih min).followed further matched
      | none => exact Matcher.reports_atLeast ih greedy min spot next last matched

/-- A named group matches what its body matches, and tells its name. -/
theorem matchAt_named (name : String) (body : Pattern) (spot : Spot) :
    (named name body).matchAt spot =
      (body.matchAt spot).map fun after => { after with names := name :: after.names } :=
  body.matcher_natural spot some _

/-- The names a match reports are those of groups of the pattern. -/
theorem names_of_matchAt {pattern : Pattern} {spot after : Spot}
    (matched : pattern.matchAt spot = some after) :
    ∀ name ∈ after.names, name ∈ pattern.groupNames ∨ name ∈ spot.names := by
  obtain ⟨_, ⟨⟩, told⟩ := pattern.matcher_reports spot some after matched
  exact told

/-- What comes first, if there is anything, is what matches first. -/
theorem matchAt_choice {patterns : List Pattern} (some : patterns ≠ []) (spot : Spot) :
    (choice patterns).matchAt spot = patterns.findSome? (·.matchAt spot) := by
  induction patterns with
  | nil => exact absurd rfl some
  | cons pattern rest ih =>
      cases rest with
      | nil => cases found : pattern.matchAt spot <;> simp [choice, found]
      | cons other rest =>
          have further := ih (by simp)
          change (pattern.matchAt spot <|> (choice (other :: rest)).matchAt spot) = _
          cases found : pattern.matchAt spot with
          | none => simp [List.findSome?_cons, found, further]
          | some after => simp [found]

theorem searchFrom_anchored (pattern : Pattern) {spot : Spot} (inside : spot.before ≠ none) :
    (seq (anchor .textStart) pattern).searchFrom steps spot = none := by
  have fails (spot : Spot) (inside : spot.before ≠ none) :
      (seq (anchor .textStart) pattern).matchAt spot = none := by
    simp [matchAt, matcher, Anchor.holds, inside]
  induction steps generalizing spot with
  | zero => exact fails spot inside
  | succ steps ih =>
      rw [searchFrom, fails spot inside]
      cases moved : spot.next? with
      | none => rfl
      | some next =>
          refine ih ?_
          unfold Spot.next? at moved
          split at moved <;> cases moved
          simp

/-- A pattern that holds to the start of the text is not looked for behind it. -/
theorem search_anchored (pattern : Pattern) (text : List Char) :
    (seq (anchor .textStart) pattern).search text = pattern.matchAt (.start text) := by
  have here : (seq (anchor .textStart) pattern).matchAt (.start text) =
      pattern.matchAt (.start text) := rfl
  have later (steps : Nat) : (Spot.start text).next?.bind ((seq (anchor .textStart) pattern).searchFrom steps) =
      none := by
    cases text with
    | nil => rfl
    | cons c rest => exact searchFrom_anchored pattern (by simp)
  cases length : text.length with
  | zero => rw [search, length, searchFrom, here]
  | succ steps =>
      rw [search, length, searchFrom, here, later]
      cases pattern.matchAt (.start text) <;> rfl

end TokenGrammar.Pattern
