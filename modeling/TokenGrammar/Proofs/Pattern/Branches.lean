import Mathlib.Data.List.Basic
import TokenGrammar.Proofs.Pattern.Grouping

namespace TokenGrammar.Pattern

/-! Groups with names, one after the other, as the branches of one pattern. -/

/-- A text that is read as a pattern, and can be put in brackets: it leaves no comment open that
would take in the closing one. -/
def Standalone (text : List Char) (pattern : Pattern) : Prop :=
  ofText text = .ok pattern ∧
    ∃ bracketed, ofText ('(' :: '?' :: ':' :: (text ++ [')'])) = .ok bracketed

theorem run_of_ofText (read : ofText text = .ok pattern) :
    ∃ last, Reader.start.run text.length text = .ok last ∧ last.around = [] ∧
      last.group.pattern = pattern := by
  obtain ⟨last, ran, finished⟩ := Except.ok_of_bind_ok read
  unfold Reader.finish at finished
  split at finished
  · rename_i closed
    cases finished
    exact ⟨last, ran, List.isEmpty_iff.mp closed, rfl⟩
  · cases finished

namespace Reader

theorem run_nil (reader : Reader) : reader.run steps [] = .ok reader := by
  cases steps <;> rfl

theorem step_unnamed (rest : List Char) :
    start.step ('(' :: '?' :: ':' :: rest) = .ok (start.openGroup none {}, rest) := rfl

theorem opened_of_step {reader : Reader} (plain : reader.flags = {}) {name : String}
    (readable : readName text = .ok (name, rest))
    (stepped : reader.step ('(' :: '?' :: 'P' :: '<' :: text) = .ok (next, left)) :
    next = { reader.openGroup name {} with names := name :: reader.names } ∧ left = rest := by
  have skipped (text : List Char) : reader.flags.skip text = text :=
    skip_of_plain (by rw [plain]) text
  rw [step, skipped, readItem_special reader (skipped _)] at stepped
  obtain ⟨⟨_, _⟩, read, stepped⟩ := Except.ok_of_bind_ok stepped
  cases readable.symm.trans read
  obtain ⟨_, opened, same⟩ := Except.ok_of_bind_ok stepped
  cases same
  unfold openNamed at opened
  split at opened
  · cases opened
  · cases opened
    rw [plain]
    exact ⟨rfl, rfl⟩

theorem closed_of_step (reader : Reader) (around : reader.around = outer :: others)
    (stepped : reader.step (')' :: text) = .ok (next, left)) :
    next = { reader with
        group := outer.push reader.group.pattern
        around := others
        flags := reader.group.outer
        repeatable := true } ∧ left = text := by
  rw [step, skip_bracket] at stepped
  obtain ⟨_, closed, same⟩ := Except.ok_of_bind_ok stepped
  cases same
  rw [closeGroup, around] at closed
  cases closed
  exact ⟨rfl, rfl⟩

/-- A reader inside a new group reads as one that has just begun. -/
theorem placedIn_start (reader : Reader) (plain : reader.flags = {}) (name : Option String)
    (names : List String) :
    PlacedIn name (reader.group :: reader.around) names start
      { reader.openGroup name {} with names } := by
  refine ⟨?_, rfl, rfl, rfl⟩
  simp only [openGroup, plain]
  exact .outermost

/-- A reader after a group with a name. -/
def withGroup (reader : Reader) (name : String) (pattern : Pattern) (inside : List String) : Reader :=
  { reader.push (named name pattern) with names := inside ++ name :: reader.names }

/-- A group with a name is read as the pattern in it is read by itself. -/
theorem run_group {reader : Reader} (plain : reader.flags = {}) (naming : reader.Naming)
    (standalone : Standalone text pattern)
    (readable : ∀ rest, readName (spelled ++ '>' :: rest) = .ok (name, rest))
    (accepted : reader.run steps
      ('(' :: '?' :: 'P' :: '<' :: (spelled ++ '>' :: (text ++ ')' :: more))) = .ok result) :
    ∃ inside left, pattern.NamedBy inside ∧ (reader.withGroup name pattern inside).Naming ∧
      (reader.withGroup name pattern inside).run left more = .ok result := by
  obtain ⟨read, bracketed, tested⟩ := standalone
  obtain ⟨last, alone, done, same⟩ := run_of_ofText read
  obtain ⟨final, tests, closed, _⟩ := run_of_ofText tested
  obtain ⟨_, _, _, _, stepped, tests⟩ := run_cons (by simp) tests
  cases (step_unnamed _).symm.trans stepped
  obtain ⟨_, opened, _, rfl, enters, accepted⟩ := run_cons (by simp) accepted
  have inner := naming.step enters
  obtain ⟨rfl, rfl⟩ := opened_of_step plain (readable _) enters
  obtain ⟨other, _, placing, inner, accepted⟩ := PlacedIn.run alone
    (placedIn_start start rfl none []) tests closed (placedIn_start reader plain name _) inner accepted
  obtain ⟨left, next, _, rfl, leaves, goes⟩ := run_cons (by simp) accepted
  have after := inner.step leaves
  have groups := placing.groups
  rw [done] at groups
  obtain ⟨around, flags, built⟩ := groups.settled
  obtain ⟨rfl, rfl⟩ := closed_of_step other around leaves
  have whole : reader.withGroup name pattern last.names = { other with
      group := reader.group.push other.group.pattern
      around := reader.around
      flags := other.group.outer
      repeatable := true } := by
    rw [withGroup, push, built, same, flags, placing.names, plain]
    rfl
  have named := (Naming.start.run alone).group.pattern
  rw [same] at named
  exact ⟨last.names, left, named, whole ▸ after, whole ▸ goes⟩

theorem step_bar {reader : Reader} (plain : reader.flags = {}) (rest : List Char) :
    reader.step ('|' :: rest) = .ok (reader.endBranch, rest) := by
  rw [step, skip_of_plain (by rw [plain])]
  rfl

theorem withGroup_new {reader : Reader} {name : String} {inside : List String}
    (named : pattern.NamedBy inside) (naming : (reader.withGroup name pattern inside).Naming) :
    ∀ other ∈ (Pattern.named name pattern).groupNames,
      other ∈ inside ++ [name] ∧ other ∉ reader.names := by
  have distinct := naming.distinct
  simp only [withGroup, List.nodup_append, List.nodup_cons, List.mem_cons] at distinct
  obtain ⟨_, ⟨absent, _⟩, apart⟩ := distinct
  intro other member
  rcases List.mem_cons.mp member with rfl | member
  · exact ⟨by simp, absent⟩
  · exact ⟨by simp [named other member],
      fun known => apart other (named other member) other (.inr known) rfl⟩

/-- What a reader inside a group comes to that has read branches and the bracket behind them. No
two of the branches have a name in common. -/
structure Branched (reader : Reader) (outer : Group) (others : List Group) (branches : List Pattern)
    (result : Reader) : Prop where
  around : result.around = others
  group : result.group = outer.push (choice (reader.group.branches.reverse ++ branches))
  fresh : ∀ branch ∈ branches, ∀ name ∈ branch.groupNames, name ∉ reader.names
  apart : branches.Pairwise fun one other => one.groupNames.Disjoint other.groupNames

theorem branched_last {reader : Reader} (around : reader.around = outer :: others)
    (unnamed : reader.group.name = none) (opened : reader.group.items = [])
    (named : pattern.NamedBy inside) (naming : (reader.withGroup name pattern inside).Naming)
    (accepted : (reader.withGroup name pattern inside).run steps [')'] = .ok result) :
    reader.Branched outer others [.named name pattern] result := by
  obtain ⟨left, _, _, rfl, closes, ended⟩ := run_cons (by simp) accepted
  obtain ⟨rfl, rfl⟩ := closed_of_step (reader.withGroup name pattern inside) around closes
  rw [run_nil] at ended
  cases ended
  have fresh := withGroup_new named naming
  refine ⟨rfl, ?_, ?_, List.pairwise_singleton ..⟩
  · simp [withGroup, push, Group.push, Group.pattern, Group.endBranch, unnamed, opened, chain]
  · intro branch member other mine
    rw [List.mem_singleton.mp member] at mine
    exact (fresh other mine).2

theorem branched_cons {reader : Reader} (opened : reader.group.items = [])
    (named : pattern.NamedBy inside) (naming : (reader.withGroup name pattern inside).Naming)
    (further : (reader.withGroup name pattern inside).endBranch.Branched outer others branches result) :
    reader.Branched outer others (.named name pattern :: branches) result := by
  have fresh := withGroup_new named naming
  refine ⟨further.around, ?_, ?_, List.pairwise_cons.mpr ⟨?_, further.apart⟩⟩
  · rw [further.group]
    simp [withGroup, push, endBranch, Group.push, Group.endBranch, opened, chain]
  · intro branch member other named known
    rcases List.mem_cons.mp member with rfl | member
    · exact (fresh other named).2 known
    · exact further.fresh branch member other named (by simp [withGroup, endBranch, known])
  · intro branch member other mine its
    have known := (fresh other mine).1
    exact further.fresh branch member other its (by
      simp only [List.mem_append, List.mem_singleton] at known
      rcases known with known | rfl <;> simp [withGroup, endBranch, *])

end Reader

end TokenGrammar.Pattern
