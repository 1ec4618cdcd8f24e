import TokenGrammar.Proofs.Grammar.LeftRecursion
import TokenGrammar.Proofs.Repetition.Directive

namespace TokenGrammar

/-! Declarations that one can parse with, and what they make sure of for the compiled rules. -/

/-- A rule with fields, each of which has been declared. -/
structure Descriptor.Describes (rule : Descriptor) (declaration : Declaration) : Prop where
  name : rule.name = declaration.name
  present : rule.fields ≠ []
  declared : ∀ field, rule.Has field → ∃ declared ∈ declaration.fields, field.Describes declared

namespace Declaration

variable {declaration : Declaration} {rule : Descriptor}

theorem Compiles.describes (compiles : declaration.Compiles rule) : rule.Describes declaration := by
  refine ⟨compiles.name, compiles.present, fun field has => ?_⟩
  rcases has with member | present
  · obtain ⟨declared, among, _, describes⟩ := compiles.kept member
    exact ⟨declared, among, describes⟩
  · exact compiles.separator present

theorem compile_describes (compiled : declaration.compile = .ok rule) : rule.Describes declaration :=
  (compiles_of_ok compiled).2.describes

end Declaration

namespace Grammar

/-- A symbol whose rule, if it has one, is among the declarations. -/
def Declares (declarations : List Declaration) (symbol : Symbol) : Prop :=
  ∀ path, symbol.content = .rule path → ∃ declaration ∈ declarations, declaration.path = path

/-- Declarations that one can parse with: each of them compiles, what their fields hold is
declared, and no rule begins with itself. -/
structure Admissible (declarations : List Declaration) : Prop where
  compiled : ∀ declaration ∈ declarations, ∃ rule, declaration.compile = .ok rule
  closed : ∀ declaration ∈ declarations, ∀ field ∈ declaration.fields,
    Declares declarations field.symbol
  wellFounded : ¬ (ofDeclarations declarations).LeftRecursive

/-- A symbol whose rule, if it has one, has been compiled. -/
def Defines (grammar : Grammar) (symbol : Symbol) : Prop :=
  ∀ name, symbol.content = .rule name → ∃ rule, grammar.find? name = some (.ok rule)

/-- Whatever a rule of a grammar refers to has been compiled. -/
def Closed (grammar : Grammar) : Prop :=
  ∀ name rule field, grammar.find? name = some (.ok rule) → rule.Has field →
    grammar.Defines field.symbol

/-- A closed grammar in which the types of all rules have default values. -/
structure Total (grammar : Grammar) : Prop where
  closed : grammar.Closed
  made : ∀ path rule, grammar.find? path = some (.ok rule) → grammar.hasDefault path = true

/-- Rules have fields, and those can be repeated as often as they have to. -/
def Sized (grammar : Grammar) : Prop :=
  ∀ name rule, grammar.find? name = some (.ok rule) →
    rule.fields ≠ [] ∧ ∀ field ∈ rule.fields, field.size.Sound

variable {declarations : List Declaration} {hasDefault : String → Bool}

theorem find_of_mem (member : declaration ∈ declarations) :
    ∃ compiled, (ofDeclarations declarations hasDefault).find? declaration.path =
      some compiled := by
  induction declarations with
  | nil => cases member
  | cons head rest ih =>
      simp only [find?, ofDeclarations, List.map_cons, List.lookup_cons]
      by_cases same : declaration.path = head.path
      · simp only [same, BEq.rfl]
        exact ⟨_, rfl⟩
      · have other : (declaration.path == head.path) = false := by simpa using same
        simp only [other]
        refine ih ?_
        rcases List.mem_cons.mp member with rfl | later
        · exact absurd rfl same
        · exact later

theorem sized (declarations : List Declaration) :
    (ofDeclarations declarations hasDefault).Sized := by
  intro name rule found
  obtain ⟨declaration, _, _, compiled⟩ := mem_of_find found
  have describes := Declaration.compile_describes compiled
  refine ⟨describes.present, fun field member => ?_⟩
  obtain ⟨declared, _, described⟩ := describes.declared field (.inl member)
  exact Repetition.sound_of_directive described.size

namespace Admissible

theorem defines (admissible : Admissible declarations) (declares : Declares declarations symbol) :
    (ofDeclarations declarations hasDefault).Defines symbol := by
  intro name content
  obtain ⟨declaration, member, rfl⟩ := declares name content
  obtain ⟨compiled, found⟩ := find_of_mem member
  obtain ⟨other, otherMember, _, rfl⟩ := mem_of_find found
  obtain ⟨rule, succeeded⟩ := admissible.compiled other otherMember
  exact ⟨rule, by rw [found, succeeded]⟩

theorem closed_ofDeclarations (admissible : Admissible declarations) :
    (ofDeclarations declarations hasDefault).Closed := by
  intro name rule field found has
  obtain ⟨declaration, member, _, compiled⟩ := mem_of_find found
  obtain ⟨declared, declaredMember, describes⟩ :=
    (Declaration.compile_describes compiled).declared field has
  rw [describes.symbol]
  exact admissible.defines (admissible.closed declaration member declared declaredMember)

/-- Default values, or the want of them, do not make a grammar recurse. -/
theorem not_leftRecursive (admissible : Admissible declarations) :
    ¬ (ofDeclarations declarations hasDefault).LeftRecursive := by
  intro recursive
  refine admissible.wellFounded (LeftRecursive.of_find ?_ recursive)
  exact fun _ => rfl

theorem total (admissible : Admissible declarations) :
    (ofDeclarations declarations).Total where
  closed := admissible.closed_ofDeclarations
  made _ _ _ := rfl

end Admissible
end Grammar
end TokenGrammar
