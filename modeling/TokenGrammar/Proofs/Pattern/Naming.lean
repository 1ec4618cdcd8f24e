import TokenGrammar.Proofs.Pattern.Locality

namespace TokenGrammar.Pattern

/-! The names of the groups of a pattern, each of which the reader hands out once. -/

def groupNames : Pattern → List String
  | empty | one _ | anchor _ => []
  | seq first second => first.groupNames ++ second.groupNames
  | either left right => left.groupNames ++ right.groupNames
  | named name body => name :: body.groupNames
  | repeated _ _ _ body => body.groupNames

/-- All names of a pattern are among some names. -/
def NamedBy (names : List String) (pattern : Pattern) : Prop :=
  ∀ name ∈ pattern.groupNames, name ∈ names

section Reading

variable {names : List String}

theorem namedBy_choice {patterns : List Pattern} (each : ∀ pattern ∈ patterns, pattern.NamedBy names) :
    (choice patterns).NamedBy names := by
  induction patterns with
  | nil => simp [choice, NamedBy, groupNames]
  | cons pattern rest ih =>
      cases rest with
      | nil => exact each pattern (by simp)
      | cons other rest =>
          have first := each pattern (by simp)
          have others := ih fun pattern member => each pattern (by simp [member])
          intro name member
          simp only [choice, groupNames, List.mem_append] at member
          exact member.elim (first name) (others name)

theorem namedBy_chain {patterns : List Pattern} (each : ∀ pattern ∈ patterns, pattern.NamedBy names) :
    (chain patterns).NamedBy names := by
  induction patterns with
  | nil => simp [chain, NamedBy, groupNames]
  | cons pattern rest ih =>
      cases rest with
      | nil => exact each pattern (by simp)
      | cons other rest =>
          have first := each pattern (by simp)
          have others := ih fun pattern member => each pattern (by simp [member])
          intro name member
          simp only [chain, groupNames, List.mem_append] at member
          exact member.elim (first name) (others name)

/-- A group whose items and branches, and whose own name, are among some names. -/
structure Group.NamedBy (names : List String) (group : Group) : Prop where
  items : ∀ item ∈ group.items, item.NamedBy names
  branches : ∀ branch ∈ group.branches, branch.NamedBy names
  name : ∀ name, group.name = some name → name ∈ names

namespace Group.NamedBy

variable {group : Group}

theorem push (namedBy : group.NamedBy names) (item : Pattern) (own : item.NamedBy names) :
    (group.push item).NamedBy names := by
  refine ⟨fun other member => ?_, namedBy.branches, namedBy.name⟩
  rcases List.mem_cons.mp member with rfl | member
  · exact own
  · exact namedBy.items other member

theorem endBranch (namedBy : group.NamedBy names) : group.endBranch.NamedBy names := by
  refine ⟨by simp [Group.endBranch], fun branch member => ?_, namedBy.name⟩
  rcases List.mem_cons.mp member with rfl | member
  · exact namedBy_chain fun item member => namedBy.items item (by simpa using member)
  · exact namedBy.branches branch member

theorem pattern (namedBy : group.NamedBy names) : group.pattern.NamedBy names := by
  have body : (choice group.endBranch.branches.reverse).NamedBy names :=
    namedBy_choice fun branch member => namedBy.endBranch.branches branch (by simpa using member)
  unfold Group.pattern
  cases called : group.name with
  | none => exact body
  | some name =>
      intro other member
      rcases List.mem_cons.mp member with rfl | member
      · exact namedBy.name _ called
      · exact body other member

theorem mono (namedBy : group.NamedBy names) (more : ∀ name ∈ names, name ∈ larger) :
    group.NamedBy larger :=
  ⟨fun item member name named => more name (namedBy.items item member name named),
    fun branch member name named => more name (namedBy.branches branch member name named),
    fun name called => more name (namedBy.name name called)⟩

end Group.NamedBy

namespace Reader

theorem run_cons {reader : Reader} {text : List Char} (present : text ≠ [])
    (ran : reader.run steps text = .ok last) :
    ∃ fewer next rest, steps = fewer + 1 ∧ reader.step text = .ok (next, rest) ∧
      next.run fewer rest = .ok last := by
  obtain ⟨c, tail, rfl⟩ := List.exists_cons_of_ne_nil present
  cases steps with
  | zero => cases ran
  | succ fewer =>
      obtain ⟨⟨next, rest⟩, stepped, ran⟩ := Except.ok_of_bind_ok ran
      exact ⟨fewer, next, rest, rfl, stepped, ran⟩

theorem run_of_step {reader : Reader} {text : List Char} (present : text ≠ [])
    (stepped : reader.step text = .ok (next, rest)) (ran : next.run steps rest = .ok last) :
    reader.run (steps + 1) text = .ok last := by
  obtain ⟨c, tail, rfl⟩ := List.exists_cons_of_ne_nil present
  rw [run, stepped]
  · exact ran
  · simp

/-- The names of a reader are those of its groups, each of which has been handed out once. -/
structure Naming (reader : Reader) : Prop where
  group : reader.group.NamedBy reader.names
  around : ∀ group ∈ reader.around, group.NamedBy reader.names
  distinct : reader.names.Nodup

namespace Naming

variable {reader : Reader}

theorem start : Reader.start.Naming := by
  refine ⟨⟨?_, ?_, ?_⟩, ?_, List.nodup_nil⟩ <;> simp [Reader.start, Group.opened]

theorem push (naming : reader.Naming) (item : Pattern) (own : item.NamedBy reader.names) :
    (reader.push item).Naming :=
  ⟨naming.group.push item own, naming.around, naming.distinct⟩

theorem pushPlain (naming : reader.Naming) (item : Pattern) (plain : item.groupNames = []) :
    (reader.push item).Naming :=
  naming.push item fun name member => by simp [plain] at member

theorem openGroup (naming : reader.Naming) (flags : Flags) :
    (reader.openGroup none flags).Naming := by
  refine ⟨⟨?_, ?_, ?_⟩, fun group member => ?_, naming.distinct⟩
  · simp [Reader.openGroup, Group.opened]
  · simp [Reader.openGroup, Group.opened]
  · simp [Reader.openGroup, Group.opened]
  · rcases List.mem_cons.mp member with rfl | member
    · exact naming.group
    · exact naming.around group member

theorem openNamed (naming : reader.Naming) (read : reader.openNamed name = .ok next) :
    next.Naming := by
  unfold Reader.openNamed at read
  split at read
  · cases read
  · rename_i fresh
    cases read
    have more : ∀ other ∈ reader.names, other ∈ name :: reader.names :=
      fun _ member => List.mem_cons_of_mem _ member
    refine ⟨⟨?_, ?_, ?_⟩, fun group member => ?_, List.nodup_cons.mpr ⟨fresh, naming.distinct⟩⟩
    · simp [Reader.openGroup, Group.opened]
    · simp [Reader.openGroup, Group.opened]
    · simp [Reader.openGroup, Group.opened]
    · rcases List.mem_cons.mp member with rfl | member
      · exact naming.group.mono more
      · exact (naming.around group member).mono more

theorem closeGroup (naming : reader.Naming) (read : reader.closeGroup = .ok next) :
    next.Naming := by
  unfold Reader.closeGroup at read
  split at read
  · cases read
  · rename_i outer around enclosing
    cases read
    have outside := naming.around
    rw [enclosing] at outside
    exact ⟨(outside outer (by simp)).push _ naming.group.pattern,
      fun group member => outside group (by simp [member]), naming.distinct⟩

theorem repeatLast (naming : reader.Naming) {min : Nat} {max : Option Nat}
    (read : reader.repeatLast min max mark = .ok (next, rest)) : next.Naming := by
  unfold Reader.repeatLast at read
  split at read
  · rename_i item items _ listed
    cases read
    have each := naming.group.items
    rw [listed] at each
    refine ⟨⟨fun other member => ?_, naming.group.branches, naming.group.name⟩, naming.around,
      naming.distinct⟩
    rcases List.mem_cons.mp member with rfl | member
    · exact each item (by simp)
    · exact each other (by simp [member])
  · cases read

theorem special (naming : reader.Naming) (read : reader.special text = .ok (next, rest)) :
    next.Naming := by
  unfold Reader.special at read
  split at read
  · obtain ⟨⟨name, after⟩, _, read⟩ := Except.ok_of_bind_ok read
    obtain ⟨opened, found, same⟩ := Except.ok_of_bind_ok read
    cases same
    exact naming.openNamed found
  · unfold Reader.flagged at read
    split at read
    · obtain ⟨flags, _, same⟩ := Except.ok_of_bind_ok read
      cases same
      exact naming.openGroup flags
    · obtain ⟨flags, _, same⟩ := Except.ok_of_bind_ok read
      cases same
      exact ⟨naming.group, naming.around, naming.distinct⟩
    · cases read

theorem step (naming : reader.Naming) (read : reader.step text = .ok (next, rest)) :
    next.Naming := by
  unfold Reader.step Reader.readItem at read
  split at read
  · cases read
    exact naming
  · split at read
    · exact naming.special read
    · cases read
      exact naming.openGroup _
  · obtain ⟨closed, found, same⟩ := Except.ok_of_bind_ok read
    cases same
    exact naming.closeGroup found
  · cases read
    exact ⟨naming.group.endBranch, naming.around, naming.distinct⟩
  · exact naming.repeatLast read
  · exact naming.repeatLast read
  · exact naming.repeatLast read
  · split at read
    · obtain ⟨⟨⟨min, max⟩, after⟩, _, read⟩ := Except.ok_of_bind_ok read
      exact naming.repeatLast read
    · cases read
  · obtain ⟨⟨set, after⟩, _, same⟩ := Except.ok_of_bind_ok read
    cases same
    exact naming.pushPlain _ rfl
  · cases read
    exact naming.pushPlain _ rfl
  · cases read
    exact naming.pushPlain _ rfl
  · cases read
    exact naming.pushPlain _ rfl
  · obtain ⟨⟨escape, after⟩, _, same⟩ := Except.ok_of_bind_ok read
    cases escape <;> cases same <;> exact naming.pushPlain _ rfl
  · cases read
    exact naming.pushPlain _ rfl

theorem run (naming : reader.Naming) (read : reader.run steps text = .ok last) : last.Naming := by
  induction steps generalizing reader text with
  | zero =>
      cases text with
      | nil =>
          cases read
          exact naming
      | cons => cases read
  | succ steps ih =>
      by_cases none : text = []
      · subst none
        cases read
        exact naming
      · obtain ⟨_, next, rest, ⟨⟩, stepped, read⟩ := run_cons none read
        exact ih (naming.step stepped) read

end Naming
end Reader
end Reading

end TokenGrammar.Pattern
