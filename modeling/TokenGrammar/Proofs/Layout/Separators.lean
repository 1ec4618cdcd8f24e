import TokenGrammar.Grammar.Draft
import TokenGrammar.Proofs.Layout.Legible
import TokenGrammar.Record
import TokenGrammar.Session

namespace TokenGrammar

/-! # What the text of a node does not tell

The text tells the fields of a node and of all nodes in them. What it leaves out is what the
separators hold, and nothing else. -/

namespace Tree

variable (resting : String → List Record)

mutual

theorem tree_record : ∀ tree : Tree, (tree.record resting).tree = tree
  | .token _ | .mark => rfl
  | .node rule slots => by rw [record, Record.tree, slots_cells slots]

theorem slots_cells : ∀ slots : List Slot, Record.slots (cells resting slots) = slots
  | [] => rfl
  | .mk name cardinality values :: rest => by
      rw [cells, Record.slots, trees_records values, slots_cells rest]

theorem trees_records : ∀ trees : List Tree, Record.trees (records resting trees) = trees
  | [] => rfl
  | tree :: rest => by rw [records, Record.trees, tree_record tree, trees_records rest]

end

theorem slots_fields (held : FieldDescriptor → List Tree) : ∀ fields : List FieldDescriptor,
    Record.slots (fields.map fun field =>
        .mk field.name field.cardinality (records resting (held field))) =
      fields.map fun field => field.slot (held field)
  | [] => rfl
  | field :: rest => by
      rw [List.map_cons, List.map_cons, Record.slots, trees_records, slots_fields held rest]
      rfl

end Tree

/-- What is shown of a node that is filled field by field are the fields of what is stored. -/
theorem Draft.tree_record (resting : String → List Record) (draft : Draft) (rule : Descriptor) :
    (draft.record resting rule).tree = draft.tree rule := by
  rw [record, Record.tree, Tree.slots_fields, tree]

namespace Record

/-! Fields and separators make up a node. The separators of several nodes stand one behind the
other, and the fields say where those of each node end. -/

mutual

theorem separators_append_inj : ∀ {left right : Record} {rest others : List (List Record)},
    left.tree = right.tree → left.separators ++ rest = right.separators ++ others →
      left = right ∧ rest = others
  | .token _, .token _, _, _, alike, same => by
      cases alike
      exact ⟨rfl, same⟩
  | .mark, .mark, _, _, _, same => ⟨rfl, same⟩
  | .node rule cells separator, .node other otherCells otherSeparator, _, _, alike, same => by
      obtain ⟨rfl, fields⟩ := Tree.node.inj alike
      obtain ⟨rfl, inside⟩ := List.cons.inj same
      obtain ⟨rfl, behind⟩ := cellSeparators_append_inj fields inside
      exact ⟨rfl, behind⟩
  | .token _, .mark, _, _, alike, _ | .token _, .node _ _ _, _, _, alike, _
  | .mark, .token _, _, _, alike, _ | .mark, .node _ _ _, _, _, alike, _
  | .node _ _ _, .token _, _, _, alike, _ | .node _ _ _, .mark, _, _, alike, _ => by cases alike

theorem cellSeparators_append_inj : ∀ {left right : List Cell} {rest others : List (List Record)},
    slots left = slots right → cellSeparators left ++ rest = cellSeparators right ++ others →
      left = right ∧ rest = others
  | [], [], _, _, _, same => ⟨rfl, same⟩
  | .mk name cardinality values :: left, .mk other otherCardinality held :: right, _, _, alike,
      same => by
      obtain ⟨own, more⟩ := List.cons.inj alike
      obtain ⟨rfl, rfl, within⟩ := Slot.mk.inj own
      rw [cellSeparators, cellSeparators, List.append_assoc, List.append_assoc] at same
      obtain ⟨rfl, later⟩ := allSeparators_append_inj within same
      obtain ⟨rfl, behind⟩ := cellSeparators_append_inj more later
      exact ⟨rfl, behind⟩
  | [], .mk _ _ _ :: _, _, _, alike, _ | .mk _ _ _ :: _, [], _, _, alike, _ => by cases alike

theorem allSeparators_append_inj : ∀ {left right : List Record} {rest others : List (List Record)},
    trees left = trees right → allSeparators left ++ rest = allSeparators right ++ others →
      left = right ∧ rest = others
  | [], [], _, _, _, same => ⟨rfl, same⟩
  | record :: left, other :: right, _, _, alike, same => by
      obtain ⟨own, more⟩ := List.cons.inj alike
      rw [allSeparators, allSeparators, List.append_assoc, List.append_assoc] at same
      obtain ⟨rfl, later⟩ := separators_append_inj own same
      obtain ⟨rfl, behind⟩ := allSeparators_append_inj more later
      exact ⟨rfl, behind⟩
  | [], _ :: _, _, _, alike, _ | _ :: _, [], _, _, alike, _ => by cases alike

end

/-- A node is what its fields and the separators hold. -/
theorem eq_iff {left right : Record} :
    left = right ↔ left.tree = right.tree ∧ left.separators = right.separators := by
  refine ⟨fun same => same ▸ ⟨rfl, rfl⟩, fun ⟨alike, same⟩ => ?_⟩
  have behind : left.separators ++ [] = right.separators ++ [] := by rw [same]
  exact (separators_append_inj alike behind).1

open Grammar

/-- As a parse leaves separators as they are, the text of what it yields tells all of it. -/
theorem pretty_record {declarations : List Declaration} {symbol : Symbol} {left right : Tree}
    (names : ∀ declaration ∈ declarations, declaration.Legible) (width : Nat)
    (resting : String → List Record) (legible : (ofDeclarations declarations).Legible symbol left)
    (another : (ofDeclarations declarations).Legible symbol right) :
    (left.record resting).pretty width = (right.record resting).pretty width ↔
      left.record resting = right.record resting := by
  rw [pretty, pretty, Tree.tree_record, Tree.tree_record, pretty_inj names width legible another]
  refine ⟨congrArg _, fun same => ?_⟩
  have trees := congrArg tree same
  rwa [Tree.tree_record, Tree.tree_record] at trees

end Record
end TokenGrammar
