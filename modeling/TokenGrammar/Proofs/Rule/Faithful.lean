import Mathlib.Data.List.Forall2
import TokenGrammar.Proofs.Grammar.Admissible

namespace TokenGrammar

/-! What is left of a declaration in the rule that it is compiled to. -/

namespace Descriptor

/-- A rule with the fields of a declaration in their order, of which the separator is set apart.
Each field knows its place in the declaration, and its limits make sense. -/
structure Faithful (rule : Descriptor) (declaration : Declaration) : Prop where
  name : rule.name = declaration.name
  marked : ∃ marker, declaration.marker = some marker ∧ rule.combinator = marker.combinator ∧
    Constraint.ofDirective marker.drop = .ok rule.drop
  fields : List.Forall₂ FieldDescriptor.Compiles
    (declaration.fields.zipIdx.filter (! ·.1.isSeparator rule.combinator)) rule.fields
  separator : List.Forall₂ FieldDescriptor.Compiles
    (declaration.fields.zipIdx.filter (·.1.isSeparator rule.combinator)) rule.separator.toList
  ordered : (rule.fields.map (·.index)).Pairwise (· < ·)
  sizes : ∀ field, rule.Has field → field.size.Sound
  unrepeated : ∀ field, rule.Has field → field.cardinality ≠ .repeated →
    field.size = .unbounded ∧ field.separator = .anyToken

end Descriptor

namespace Declaration

variable {declaration : Declaration} {rule : Descriptor}

theorem length_separators (distinct : (declaration.fields.map (·.name)).Nodup)
    (combinator : Combinator) :
    (declaration.fields.filter (·.isSeparator combinator)).length ≤ 1 := by
  have apart : ((declaration.fields.filter (·.isSeparator combinator)).map (·.name)).Nodup :=
    distinct.sublist (List.filter_sublist.map _)
  have named : ∀ field ∈ declaration.fields.filter (·.isSeparator combinator),
      field.name = separatorName := by
    intro field member
    have separates := (List.mem_filter.mp member).2
    simp only [FieldDeclaration.isSeparator, decide_eq_true_eq] at separates
    exact separates.2
  generalize declaration.fields.filter (·.isSeparator combinator) = separators at apart named ⊢
  cases separators with
  | nil => simp
  | cons first rest =>
      cases rest with
      | nil => simp
      | cons second rest => simp [named first (by simp), named second (by simp)] at apart

theorem Compiles.separator_compiles (compiles : declaration.Compiles rule)
    (distinct : (declaration.fields.map (·.name)).Nodup) :
    List.Forall₂ FieldDescriptor.Compiles
      (declaration.fields.zipIdx.filter (·.1.isSeparator rule.combinator))
      rule.separator.toList := by
  obtain ⟨others, made, last⟩ := compiles.fields.apart
  have few : others.length ≤ 1 := by
    rw [← made.length_eq, ← List.length_map Prod.fst, filter_zipIdx]
    exact length_separators distinct rule.combinator
  simp only at last
  match others with
  | [] | [_] => simpa [last] using made
  | _ :: _ :: _ => simp at few

theorem Compiles.ordered (compiles : declaration.Compiles rule) :
    (rule.fields.map (·.index)).Pairwise (· < ·) := by
  have places : (declaration.fields.zipIdx.filter (! ·.1.isSeparator rule.combinator)).map
      Prod.snd = rule.fields.map (·.index) := by
    rw [← List.forall₂_eq_eq_eq, List.forall₂_map_left_iff, List.forall₂_map_right_iff]
    exact compiles.fields.kept.imp fun _ _ made => made.index.symm
  have increasing : (declaration.fields.zipIdx.map Prod.snd).Pairwise (· < ·) := by
    rw [List.zipIdx_map_snd]
    exact List.pairwise_lt_range'
  rw [← places]
  exact increasing.sublist (List.filter_sublist.map _)

theorem Compiles.unrepeated {marker : Marker} (compiles : declaration.Compiles rule)
    (formed : declaration.WellFormed marker) (has : rule.Has field)
    (once : field.cardinality ≠ .repeated) :
    field.size = .unbounded ∧ field.separator = .anyToken := by
  obtain ⟨declared, among, describes⟩ := compiles.describes.declared field has
  obtain ⟨size, separator⟩ := formed.placed declared among (describes.cardinality ▸ once)
  have sizeRead := describes.size
  have separatorRead := describes.separator
  rw [size] at sizeRead
  rw [separator] at separatorRead
  exact ⟨Except.ok.inj (sizeRead.symm.trans rfl), Except.ok.inj (separatorRead.symm.trans rfl)⟩

theorem Compiles.faithful {marker : Marker} (compiles : declaration.Compiles rule)
    (formed : declaration.WellFormed marker)
    (distinct : (declaration.fields.map (·.name)).Nodup) : rule.Faithful declaration where
  name := compiles.name
  marked := compiles.marked
  fields := compiles.fields.kept
  separator := compiles.separator_compiles distinct
  ordered := compiles.ordered
  sizes field has := by
    obtain ⟨declared, _, describes⟩ := compiles.describes.declared field has
    exact Repetition.sound_of_directive describes.size
  unrepeated _ has once := compiles.unrepeated formed has once

/-- The compiler accepts the well-formed declarations and no others, leaves out nothing of them,
and says of any other declaration what is wrong with it first. -/
theorem compile_accepts (declaration : Declaration)
    (distinct : (declaration.fields.map (·.name)).Nodup) :
    ((∃ rule, declaration.compile = .ok rule) ↔ ∃ marker, declaration.WellFormed marker) ∧
      (∀ rule, declaration.compile = .ok rule → rule.Faithful declaration) ∧
      ∀ error, declaration.compile = .error error ↔
        declaration.violations.head? = some error := by
  have verdict := declaration.compile_verdict
  refine ⟨verdict.ok_iff.trans violations_eq_nil, fun rule compiled => ?_, verdict.error_iff⟩
  obtain ⟨⟨marker, formed⟩, compiles⟩ := compiles_of_ok compiled
  exact compiles.faithful formed distinct

/-- A separator between two fields, and the same with a limit that only a repeated field may
have. -/
theorem compile_accepts_separated :
    let separated (limit : String) : Declaration := ⟨"Pair", some ⟨.seq, "space"⟩,
      [⟨"first", .token, .single, "word", "", ""⟩,
        ⟨"separator", .token, .optional, "op,;", "", limit⟩,
        ⟨"second", .token, .repeated, "word", "op,-", "1-3"⟩], "Pair"⟩
    (∀ limit, ((separated limit).fields.map (·.name)).Nodup) ∧
      (∃ rule, (separated "").compile = .ok rule ∧ rule.Faithful (separated "")) ∧
      (separated "2").compile = .error (.misplacedDirective "Pair" "separator" "size") := by
  intro separated
  have distinct (limit : String) : ((separated limit).fields.map (·.name)).Nodup := by
    simp only [separated, List.map_cons, List.map_nil]
    decide
  obtain ⟨_, faithful, _⟩ := compile_accepts (separated "") (distinct "")
  obtain ⟨_, _, refused⟩ := compile_accepts (separated "2") (distinct "2")
  have accepted : ∃ rule, (separated "").compile = .ok rule := ⟨_, by rfl⟩
  obtain ⟨rule, compiled⟩ := accepted
  exact ⟨distinct, ⟨rule, compiled, faithful rule compiled⟩,
    (refused _).mpr (by decide +kernel)⟩

end Declaration
end TokenGrammar
