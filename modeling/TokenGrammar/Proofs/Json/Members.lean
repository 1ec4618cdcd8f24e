import TokenGrammar.Entries
import TokenGrammar.Json.Value

namespace TokenGrammar.JsonValue

open Entries (lookup_cons_eq)

/-! The members of an object: the last of each key, in the order of the keys. -/

variable {key other : String} {value : JsonValue} {members held : List (String × JsonValue)}

def lastMembers : List (String × JsonValue) → List (String × JsonValue)
  | [] => []
  | (key, value) :: rest =>
    if rest.any (·.1 == key) then lastMembers rest else (key, value) :: lastMembers rest

def notAbove (left right : String × JsonValue) : Bool := decide (left.1 ≤ right.1)

/-- The keys go up, so that each occurs once. -/
def Ordered (members : List (String × JsonValue)) : Prop := members.Pairwise (·.1 < ·.1)

def Distinct (members : List (String × JsonValue)) : Prop := (members.map (·.1)).Nodup

theorem Ordered.distinct (ordered : Ordered members) : Distinct members := by
  rw [Distinct, List.Nodup, List.pairwise_map]
  refine ordered.imp fun {left right} below same => ?_
  rw [same] at below
  exact String.lt_irrefl _ below

theorem Distinct.nodup (distinct : Distinct members) : members.Nodup :=
  (List.pairwise_map.mp distinct).imp fun apart same => apart (congrArg Prod.fst same)

theorem mem_insertMember {entry : String × JsonValue}
    (inside : entry ∈ insertMember key value members) : entry = (key, value) ∨ entry ∈ members := by
  induction members with
  | nil => simpa [insertMember] using inside
  | cons head rest ih =>
      obtain ⟨other, kept⟩ := head
      simp only [insertMember] at inside
      split at inside
      · simpa using inside
      · split at inside
        · rcases List.mem_cons.mp inside with same | later
          · exact .inl same
          · exact .inr (List.mem_cons_of_mem _ later)
        · rcases List.mem_cons.mp inside with same | later
          · exact .inr (by simp [same])
          · exact (ih later).imp_right (List.mem_cons_of_mem _)

theorem Ordered.insertMember (ordered : Ordered members) :
    Ordered (insertMember key value members) := by
  induction members with
  | nil => exact List.pairwise_singleton _ _
  | cons head rest ih =>
      obtain ⟨other, kept⟩ := head
      obtain ⟨above, later⟩ := List.pairwise_cons.mp ordered
      simp only [JsonValue.insertMember]
      split
      · rename_i before
        refine List.pairwise_cons.mpr ⟨fun entry inside => ?_, ordered⟩
        rcases List.mem_cons.mp inside with rfl | behind
        · exact before
        · exact String.lt_trans before (above entry behind)
      · rename_i notBefore
        split
        · rename_i same
          subst same
          exact List.pairwise_cons.mpr ⟨above, later⟩
        · rename_i apart
          refine List.pairwise_cons.mpr ⟨fun entry inside => ?_, ih later⟩
          rcases mem_insertMember inside with rfl | behind
          · exact Std.lt_of_le_of_ne (String.not_lt.mp notBefore) (Ne.symm apart)
          · exact above entry behind

/-- Puts members into their places, one after another. -/
def insertAll (members held : List (String × JsonValue)) : List (String × JsonValue) :=
  members.foldl (fun sorted (key, value) => insertMember key value sorted) held

theorem ordered_insertAll (ordered : Ordered held) : Ordered (insertAll members held) := by
  induction members generalizing held with
  | nil => exact ordered
  | cons entry rest ih => exact ih ordered.insertMember

theorem lookup_insertMember : (insertMember key value members).lookup other =
    if other = key then some value else members.lookup other := by
  induction members with
  | nil => simp only [insertMember, lookup_cons_eq]
  | cons head rest ih =>
      obtain ⟨first, kept⟩ := head
      simp only [insertMember]
      split
      · simp only [lookup_cons_eq]
      · split
        · rename_i same
          simp only [lookup_cons_eq, same]
          split <;> rfl
        · rename_i apart
          simp only [lookup_cons_eq, ih]
          by_cases found : other = first
          · rw [if_pos found, if_pos found, if_neg (found ▸ Ne.symm apart)]
          · rw [if_neg found, if_neg found]

theorem lookup_lastMembers_isSome :
    ((lastMembers members).lookup key).isSome = members.any (·.1 == key) := by
  induction members with
  | nil => rfl
  | cons head rest ih =>
      obtain ⟨first, kept⟩ := head
      by_cases later : rest.any (·.1 == first) = true
      · rw [lastMembers, if_pos later, ih, List.any_cons]
        by_cases same : first = key
        · rw [← same, later, Bool.or_true]
        · rw [beq_false_of_ne same, Bool.false_or]
      · rw [lastMembers, if_neg later, lookup_cons_eq, List.any_cons]
        by_cases same : key = first
        · rw [if_pos same, same, beq_self_eq_true, Bool.true_or, Option.isSome_some]
        · rw [if_neg same, ih, beq_false_of_ne (Ne.symm same), Bool.false_or]

theorem lookup_insertAll (members held : List (String × JsonValue)) (other : String) :
    (insertAll members held).lookup other =
      ((lastMembers members).lookup other).or (held.lookup other) := by
  induction members generalizing held with
  | nil => rfl
  | cons head rest ih =>
      obtain ⟨first, kept⟩ := head
      rw [insertAll, List.foldl_cons, ← insertAll, ih, lookup_insertMember]
      by_cases later : rest.any (·.1 == first) = true
      · rw [lastMembers, if_pos later]
        by_cases same : other = first
        · rw [← lookup_lastMembers_isSome, ← same] at later
          obtain ⟨found, lookup⟩ := Option.isSome_iff_exists.mp later
          rw [lookup, Option.some_or, Option.some_or]
        · rw [if_neg same]
      · rw [lastMembers, if_neg later, lookup_cons_eq]
        by_cases same : other = first
        · rw [← lookup_lastMembers_isSome, ← same] at later
          rw [Option.not_isSome_iff_eq_none.mp later, if_pos same, if_pos same, Option.none_or,
            Option.some_or]
        · rw [if_neg same, if_neg same]

theorem mem_lastMembers {entry : String × JsonValue} (inside : entry ∈ lastMembers members) :
    members.any (·.1 == entry.1) = true := by
  induction members with
  | nil => simp [lastMembers] at inside
  | cons head rest ih =>
      obtain ⟨first, kept⟩ := head
      simp only [lastMembers] at inside
      split at inside
      · simp [ih inside]
      · rcases List.mem_cons.mp inside with rfl | later
        · simp
        · simp [ih later]

theorem distinct_lastMembers (members : List (String × JsonValue)) :
    Distinct (lastMembers members) := by
  induction members with
  | nil => exact List.nodup_nil
  | cons head rest ih =>
      obtain ⟨first, kept⟩ := head
      simp only [lastMembers]
      split
      · exact ih
      · rename_i last
        refine List.nodup_cons.mpr ⟨fun again => ?_, ih⟩
        obtain ⟨entry, inside, same⟩ := List.mem_map.mp again
        have later := mem_lastMembers inside
        rw [show entry.1 = first from same] at later
        exact last later

theorem mem_iff_lookup (distinct : Distinct members) :
    (key, value) ∈ members ↔ members.lookup key = some value := by
  induction members with
  | nil => simp
  | cons head rest ih =>
      obtain ⟨first, kept⟩ := head
      obtain ⟨fresh, later⟩ := List.nodup_cons.mp distinct
      rw [lookup_cons_eq, List.mem_cons, Prod.mk.injEq]
      by_cases same : key = first
      · have absent : (key, value) ∉ rest := fun inside =>
          fresh (List.mem_map.mpr ⟨_, inside, same⟩)
        rw [if_pos same, Option.some_inj]
        exact ⟨fun either => (either.resolve_right absent).2.symm, fun own => .inl ⟨same, own.symm⟩⟩
      · rw [if_neg same, ih later]
        exact ⟨fun either => either.resolve_left fun own => same own.1, .inr⟩

theorem Ordered.notAbove (ordered : Ordered members) :
    members.Pairwise fun left right => notAbove left right = true :=
  ordered.imp fun below => decide_eq_true (Std.le_of_lt below)

theorem notAbove_trans (first second third : String × JsonValue)
    (below : notAbove first second = true) (above : notAbove second third = true) :
    notAbove first third = true :=
  decide_eq_true (String.le_trans (of_decide_eq_true below) (of_decide_eq_true above))

theorem notAbove_total (left right : String × JsonValue) :
    (notAbove left right || notAbove right left) = true := by
  simpa [notAbove] using String.le_total left.1 right.1

/-- The object of given members holds the last of each key, in the order of the keys. -/
theorem ofMembers_eq (members : List (String × JsonValue)) :
    ofMembers members = object ((lastMembers members).mergeSort notAbove) := by
  have ordered : Ordered (insertAll members []) := ordered_insertAll List.Pairwise.nil
  have distinct := distinct_lastMembers members
  have same : (insertAll members []).Perm (lastMembers members) := by
    refine (List.perm_ext_iff_of_nodup ordered.distinct.nodup distinct.nodup).mpr ?_
    rintro ⟨key, value⟩
    rw [mem_iff_lookup ordered.distinct, mem_iff_lookup distinct, lookup_insertAll]
    simp
  have perm := same.trans (List.mergeSort_perm _ notAbove).symm
  refine congrArg object (List.Perm.eq_of_pairwise ?_ ordered.notAbove
    (List.pairwise_mergeSort notAbove_trans notAbove_total _) perm)
  rintro ⟨key, value⟩ ⟨other, kept⟩ inside found below above
  cases String.le_antisymm (of_decide_eq_true below) (of_decide_eq_true above)
  have first := (mem_iff_lookup ordered.distinct).mp inside
  have second := (mem_iff_lookup ordered.distinct).mp (perm.mem_iff.mpr found)
  rw [first] at second
  cases second
  rfl

theorem lastMembers_of_distinct (distinct : Distinct members) : lastMembers members = members := by
  induction members with
  | nil => rfl
  | cons head rest ih =>
      obtain ⟨first, kept⟩ := head
      obtain ⟨fresh, later⟩ := List.nodup_cons.mp distinct
      have last : ¬ rest.any (·.1 == first) = true := by
        rw [List.any_eq_true]
        rintro ⟨entry, inside, same⟩
        exact fresh (List.mem_map.mpr ⟨entry, inside, beq_iff_eq.mp same⟩)
      rw [lastMembers, if_neg last, ih later]

theorem ofMembers_of_ordered (ordered : Ordered members) : ofMembers members = object members := by
  rw [ofMembers_eq, lastMembers_of_distinct ordered.distinct,
    List.mergeSort_of_pairwise ordered.notAbove]

end TokenGrammar.JsonValue
