import Mathlib.Data.Finset.Card
import Mathlib.Data.List.Forall2
import Mathlib.Logic.Relation
import TokenGrammar.Grammar.Draft

namespace TokenGrammar

/-! # Default values

The default value of a rule holds those of its single fields. There is one if these come to an end,
and it does not depend on how deep they are looked for. -/

theorem forall₂_of_mapM_some {f : α → Option β} {list : List α} {results : List β}
    (mapped : list.mapM f = some results) :
    List.Forall₂ (fun item result => f item = some result) list results := by
  induction list generalizing results with
  | nil =>
      cases mapped
      exact .nil
  | cons item rest ih =>
      simp only [List.mapM_cons, Option.bind_eq_bind, Option.bind_eq_some_iff] at mapped
      obtain ⟨result, own, others, further, built⟩ := mapped
      cases built
      exact .cons own (ih further)

theorem mapM_of_forall₂_some {f : α → Option β} {list : List α} {results : List β}
    (each : List.Forall₂ (fun item result => f item = some result) list results) :
    list.mapM f = some results := by
  induction each with
  | nil => rfl
  | cons own _ ih => simp [own, ih]

theorem isSome_mapM {f : α → Option β} (list : List α) :
    (list.mapM f).isSome = list.all fun item => (f item).isSome := by
  induction list with
  | nil => rfl
  | cons item rest ih =>
      rw [List.mapM_cons, List.all_cons, ← ih]
      cases f item <;> cases rest.mapM f <;> rfl

namespace Symbol

@[simp] theorem content_content (symbol : Symbol) : symbol.content.content = symbol.content := by
  induction symbol with
  | token | mark | rule name => rfl
  | boxed inner ih => exact ih

theorem content_ne_boxed (symbol inner : Symbol) : symbol.content ≠ .boxed inner := by
  induction symbol with
  | token | mark | rule name => simp [content]
  | boxed symbol ih => exact ih

end Symbol

namespace Grammar

/-- A node of one rule always holds a node of another one, in a single field. -/
def AlwaysHolds (declarations : List Declaration) (path other : String) : Prop :=
  ∃ declaration field, declarations.find? (·.path == path) = some declaration ∧
    field ∈ declaration.fields ∧ field.cardinality = .single ∧ field.symbol.content = .rule other

/-- A declared rule whose nodes come to an end, as far as they hold others in single fields. -/
inductive HasBlank (declarations : List Declaration) : String → Prop
  | of {path : String} (found : declarations.find? (·.path == path) = some declaration)
      (held : ∀ other, AlwaysHolds declarations path other → HasBlank declarations other) :
      HasBlank declarations path

variable {declarations : List Declaration} {path other : String} {depth : Nat}

theorem blankTo_content (declarations : List Declaration) (depth : Nat) (symbol : Symbol) :
    blankTo declarations depth symbol.content = blankTo declarations depth symbol := by
  unfold blankTo
  rw [Symbol.content_content]

theorem blankTo_rule (declarations : List Declaration) (depth : Nat) (path : String) :
    blankTo declarations (depth + 1) (.rule path) =
      (declarations.find? (·.path == path)).bind fun declaration =>
        (declaration.fields.mapM (blankField (blankTo declarations depth))).map fun values =>
          .node declaration.name <| declaration.fields.zipWith
            (fun field values => .mk field.name field.cardinality values) values := by
  simp [blankTo, Symbol.content, Option.map_eq_bind]

theorem isSome_blankField (blank : Symbol → Option Tree) (field : FieldDeclaration) :
    (blankField blank field).isSome = true ↔
      (field.cardinality = .single → (blank field.symbol).isSome = true) := by
  by_cases single : field.cardinality = .single <;> simp [blankField, single]

/-- A rule has a default value of some depth if the rules that it always holds have one that is less
deep. -/
theorem isSome_blankTo_rule : (blankTo declarations (depth + 1) (.rule path)).isSome = true ↔
    (declarations.find? (·.path == path)).isSome = true ∧
      ∀ other, AlwaysHolds declarations path other →
        (blankTo declarations depth (.rule other)).isSome = true := by
  rw [blankTo_rule]
  cases found : declarations.find? (·.path == path) with
  | none => simp
  | some declaration =>
      simp only [Option.bind_some, Option.isSome_map, isSome_mapM, List.all_eq_true,
        isSome_blankField, Option.isSome_some, true_and]
      constructor
      · rintro each other ⟨_, field, declared, member, single, content⟩
        cases found.symm.trans declared
        rw [← content, blankTo_content]
        exact each field member single
      · intro held field member single
        rw [← blankTo_content]
        cases content : field.symbol.content with
        | token | mark => cases depth <;> rfl
        | rule other => exact held other ⟨declaration, field, found, member, single, content⟩
        | boxed inner => exact absurd content (field.symbol.content_ne_boxed inner)

theorem blankField_mono {blank more : Symbol → Option Tree} {field : FieldDeclaration}
    (deeper : ∀ symbol tree, blank symbol = some tree → more symbol = some tree)
    (found : blankField blank field = some values) : blankField more field = some values := by
  by_cases single : field.cardinality = .single
  · simp only [blankField, if_pos single] at found ⊢
    obtain ⟨tree, own, rfl⟩ := Option.map_eq_some_iff.mp found
    rw [deeper _ _ own]
    rfl
  · simpa only [blankField, if_neg single] using found

/-- Only rules need depth. -/
theorem blankTo_of_rules (rules : ∀ path tree,
      blankTo declarations depth (.rule path) = some tree →
        blankTo declarations more (.rule path) = some tree)
    (found : blankTo declarations depth symbol = some tree) :
    blankTo declarations more symbol = some tree := by
  rw [← blankTo_content] at found ⊢
  cases content : symbol.content with
  | token | mark =>
      rw [content] at found
      cases depth <;> cases more <;> exact found
  | rule path => exact rules path tree (content ▸ found)
  | boxed inner => exact absurd content (symbol.content_ne_boxed inner)

/-- A default value is found at any larger depth, too. -/
theorem blankTo_rule_succ (found : blankTo declarations depth (.rule path) = some tree) :
    blankTo declarations (depth + 1) (.rule path) = some tree := by
  induction depth generalizing path tree with
  | zero => cases found
  | succ depth ih =>
      rw [blankTo_rule] at found
      obtain ⟨declaration, declared, found⟩ := Option.bind_eq_some_iff.mp found
      obtain ⟨values, mapped, rfl⟩ := Option.map_eq_some_iff.mp found
      have deeper := mapM_of_forall₂_some <| (forall₂_of_mapM_some mapped).imp fun field values =>
        blankField_mono fun _ _ => blankTo_of_rules fun _ _ => ih
      rw [blankTo_rule, declared, Option.bind_some, deeper]
      rfl

theorem hasBlank_of_blankTo (found : (blankTo declarations depth (.rule path)).isSome = true) :
    HasBlank declarations path := by
  induction depth generalizing path with
  | zero => cases found
  | succ depth ih =>
      obtain ⟨declared, held⟩ := isSome_blankTo_rule.mp found
      obtain ⟨declaration, declared⟩ := Option.isSome_iff_exists.mp declared
      exact .of declared fun other holds => ih (held other holds)

/-! The rules that a rule with a default value holds in the end are fewer than those that hold it,
as it is not among them itself. Hence it is enough to look as deep as there are rules. -/

theorem HasBlank.not_holds_itself (blank : HasBlank declarations path) :
    ¬ Relation.TransGen (AlwaysHolds declarations) path path := by
  induction blank with
  | @of path _ _ _ ih =>
      intro cycle
      obtain ⟨other, holds, back⟩ := Relation.TransGen.head'_iff.mp cycle
      exact ih other holds (.tail' back holds)

open Classical in
/-- The number of declared rules that a rule holds in the end, itself included. -/
noncomputable def held (declarations : List Declaration) (path : String) : Nat :=
  ((declarations.map (·.path)).toFinset.filter
    (Relation.ReflTransGen (AlwaysHolds declarations) path)).card

theorem held_le (declarations : List Declaration) (path : String) :
    held declarations path ≤ declarations.length := by
  classical
  calc held declarations path ≤ (declarations.map (·.path)).toFinset.card :=
        Finset.card_filter_le _ _
    _ ≤ (declarations.map (·.path)).length := List.toFinset_card_le _
    _ = declarations.length := List.length_map _

theorem mem_held (found : declarations.find? (·.path == path) = some declaration) :
    path ∈ (declarations.map (·.path)).toFinset := by
  have named : declaration.path = path := by simpa using List.find?_some found
  exact List.mem_toFinset.mpr (named ▸ List.mem_map_of_mem (List.mem_of_find?_eq_some found))

theorem held_pos (found : declarations.find? (·.path == path) = some declaration) :
    0 < held declarations path := by
  classical
  exact Finset.card_pos.mpr ⟨path, Finset.mem_filter.mpr ⟨mem_held found, .refl⟩⟩

theorem held_lt (found : declarations.find? (·.path == path) = some declaration)
    (blank : HasBlank declarations path) (holds : AlwaysHolds declarations path other) :
    held declarations other < held declarations path := by
  classical
  refine Finset.card_lt_card (Finset.ssubset_iff_of_subset ?_ |>.mpr ⟨path, ?_, ?_⟩)
  · intro third member
    simp only [Finset.mem_filter] at member ⊢
    exact ⟨member.1, member.2.head holds⟩
  · exact Finset.mem_filter.mpr ⟨mem_held found, .refl⟩
  · intro member
    simp only [Finset.mem_filter] at member
    exact blank.not_holds_itself (.head' holds member.2)

theorem HasBlank.isSome_blankTo (blank : HasBlank declarations path)
    (deep : held declarations path ≤ depth) :
    (blankTo declarations depth (.rule path)).isSome = true := by
  induction blank generalizing depth with
  | @of _ path found holds ih =>
      cases depth with
      | zero => exact absurd deep (Nat.not_le.mpr (held_pos found))
      | succ depth =>
          refine isSome_blankTo_rule.mpr ⟨Option.isSome_of_eq_some found, fun other within => ?_⟩
          have fewer := held_lt found (.of found holds) within
          exact ih other within (by omega)

/-- The rules that have a default value are those whose nodes come to an end. -/
theorem isSome_blank_iff : (blank? declarations (.rule path)).isSome = true ↔
    HasBlank declarations path :=
  ⟨hasBlank_of_blankTo, fun blank => blank.isSome_blankTo (held_le declarations path)⟩

/-- The default value of a rule holds, in each single field, the default value of that. -/
theorem blank_rule (declarations : List Declaration) (path : String) :
    blank? declarations (.rule path) =
      (declarations.find? (·.path == path)).bind fun declaration =>
        (declaration.fields.mapM (blankField (blank? declarations))).map fun values =>
          .node declaration.name <| declaration.fields.zipWith
            (fun field values => .mk field.name field.cardinality values) values := by
  refine Eq.trans ?_ (blankTo_rule declarations declarations.length path)
  cases found : blankTo declarations (declarations.length + 1) (.rule path) with
  | none =>
      cases less : blank? declarations (.rule path) with
      | none => rfl
      | some tree => cases found.symm.trans (blankTo_rule_succ less)
  | some tree =>
      have blank := hasBlank_of_blankTo (Option.isSome_of_eq_some found)
      obtain ⟨other, less⟩ := Option.isSome_iff_exists.mp (isSome_blank_iff.mpr blank)
      rw [less]
      exact (blankTo_rule_succ less).symm.trans found

end Grammar
end TokenGrammar
