import Mathlib.Data.Finset.Card
import Mathlib.Logic.Relation
import TokenGrammar.Grammar.Basic
import TokenGrammar.Parser.Rule

namespace TokenGrammar

/-! # Grammars without left recursion

What a rule may ask for before a token is consumed is computed from the declarations: the walk
over the fields of a sequence goes on past a field that may be absent, and past one that may match
without consuming anything, because it only looks ahead. A grammar recurses on the left if a rule
comes to itself in this way. -/

/-- A constraint that accepts some token and leaves it where it is. -/
def Constraint.LooksAhead (constraint : Constraint) : Prop :=
  ∃ token pattern, constraint.find? token = some pattern ∧ pattern.lookahead = true

/-- The fields of a rule and the separator between them. -/
def Descriptor.Has (rule : Descriptor) (field : FieldDescriptor) : Prop :=
  field ∈ rule.fields ∨ rule.separator = some field

mutual

/-- A symbol that may match without consuming a token. -/
inductive Grammar.MayIdle (grammar : Grammar) : Symbol → Constraint → Prop
  | token (looks : constraint.LooksAhead) : MayIdle grammar .token constraint
  | mark (looks : constraint.LooksAhead) : MayIdle grammar .mark constraint
  | boxed (content : Grammar.MayIdle grammar symbol constraint) :
      MayIdle grammar (.boxed symbol) constraint
  | sequence {guard : Constraint} (defined : grammar.find? name = some (.ok rule))
      (combinator : rule.combinator = .seq) (finished : Grammar.ComesTo grammar rule [] items)
      (some : items ≠ 0) : MayIdle grammar (.rule name) guard
  | choice {guard : Constraint} (defined : grammar.find? name = some (.ok rule))
      (combinator : rule.combinator = .oneOf) (member : field ∈ rule.fields)
      (few : field.cardinality = .repeated → field.size.min ≤ 1)
      (content : Grammar.MayIdle grammar field.symbol field.tokens) :
      MayIdle grammar (.rule name) guard

/-- A gap before an item, with a number of items ahead of it, that may be passed without
consuming a token. -/
inductive Grammar.MayAdjoin (grammar : Grammar) : Gap → Nat → Prop
  | first : MayAdjoin grammar between 0
  | unseparated (plain : between.separator = none) : MayAdjoin grammar between items
  | leftOut (present : between.separator = some field) (optional : field.cardinality = .optional) :
      MayAdjoin grammar between items
  | idle (present : between.separator = some field)
      (content : Grammar.MayIdle grammar field.symbol field.tokens) :
      MayAdjoin grammar between items

/-- What a sequence still has to match, and the number of its items so far, when it may not have
consumed a token yet. -/
inductive Grammar.ComesTo (grammar : Grammar) : Descriptor → List FieldDescriptor → Nat → Prop
  | start : ComesTo grammar rule rule.fields 0
  | without (before : Grammar.ComesTo grammar rule (field :: rest) items)
      (optional : field.cardinality ≠ .single)
      (unneeded : field.cardinality = .repeated → field.size.min = 0) :
      ComesTo grammar rule rest items
  | behind (before : Grammar.ComesTo grammar rule (field :: rest) items)
      (adjoins : Grammar.MayAdjoin grammar (.ofRule rule) items)
      (few : field.cardinality = .repeated → field.size.min ≤ 1)
      (content : Grammar.MayIdle grammar field.symbol field.tokens) :
      ComesTo grammar rule rest (items + 1)

end

namespace Grammar

/-- A field that a rule may ask for before it has consumed a token. -/
inductive Leads (grammar : Grammar) : Descriptor → FieldDescriptor → Prop
  | item (combinator : rule.combinator = .seq) (comes : grammar.ComesTo rule (field :: rest) items)
      (adjoins : grammar.MayAdjoin (.ofRule rule) items) : Leads grammar rule field
  | separator (combinator : rule.combinator = .seq)
      (comes : grammar.ComesTo rule (field :: rest) items) (later : items ≠ 0)
      (present : rule.separator = some separator) : Leads grammar rule separator
  | alternative (combinator : rule.combinator = .oneOf) (member : field ∈ rule.fields) :
      Leads grammar rule field

theorem ComesTo.members {grammar : Grammar} :
    ∀ {rule : Descriptor} {rest : List FieldDescriptor} {items : Nat},
      grammar.ComesTo rule rest items → ∀ field ∈ rest, field ∈ rule.fields
  | _, _, _, .start, _, member => member
  | _, _, _, .without before _ _, field, member => before.members field (by simp [member])
  | _, _, _, .behind before _ _ _, field, member => before.members field (by simp [member])

theorem Leads.has {grammar : Grammar} (leads : grammar.Leads rule field) : rule.Has field := by
  cases leads with
  | item _ comes => exact .inl (comes.members field (by simp))
  | separator _ _ _ present => exact .inr present
  | alternative _ member => exact .inl member

/-- One rule may ask for another before it has consumed a token. -/
def BeginsWith (grammar : Grammar) (name other : String) : Prop :=
  ∃ rule field, grammar.find? name = some (.ok rule) ∧ grammar.Leads rule field ∧
    field.symbol.content = .rule other

def LeftRecursive (grammar : Grammar) : Prop :=
  ∃ name, Relation.TransGen grammar.BeginsWith name name

/-! Left recursion lies in the rules alone: a grammar that has the rules of another one comes to all
that the other one comes to. -/

section SameRules

variable {grammar other : Grammar}

mutual

theorem MayIdle.of_find (same : ∀ path, other.find? path = grammar.find? path)
    {symbol : Symbol} {constraint : Constraint} :
    grammar.MayIdle symbol constraint → other.MayIdle symbol constraint
  | .token looks => .token looks
  | .mark looks => .mark looks
  | .boxed content => .boxed (content.of_find same)
  | .sequence defined combinator finished consumed =>
      .sequence (by rwa [same]) combinator (finished.of_find same) consumed
  | .choice defined combinator member few content =>
      .choice (by rwa [same]) combinator member few (content.of_find same)

theorem MayAdjoin.of_find (same : ∀ path, other.find? path = grammar.find? path)
    {between : Gap} {items : Nat} : grammar.MayAdjoin between items → other.MayAdjoin between items
  | .first => .first
  | .unseparated plain => .unseparated plain
  | .leftOut present optional => .leftOut present optional
  | .idle present content => .idle present (content.of_find same)

theorem ComesTo.of_find (same : ∀ path, other.find? path = grammar.find? path)
    {rule : Descriptor} {rest : List FieldDescriptor} {items : Nat} :
    grammar.ComesTo rule rest items → other.ComesTo rule rest items
  | .start => .start
  | .without before optional unneeded => .without (before.of_find same) optional unneeded
  | .behind before adjoins few content =>
      .behind (before.of_find same) (adjoins.of_find same) few (content.of_find same)

end

theorem Leads.of_find (same : ∀ path, other.find? path = grammar.find? path)
    (leads : grammar.Leads rule field) : other.Leads rule field := by
  cases leads with
  | item combinator comes adjoins =>
      exact .item combinator (comes.of_find same) (adjoins.of_find same)
  | separator combinator comes later present =>
      exact .separator combinator (comes.of_find same) later present
  | alternative combinator member => exact .alternative combinator member

theorem LeftRecursive.of_find (same : ∀ path, other.find? path = grammar.find? path)
    (recursive : grammar.LeftRecursive) : other.LeftRecursive := by
  obtain ⟨path, cycle⟩ := recursive
  refine ⟨path, cycle.lift id ?_⟩
  rintro path later ⟨rule, field, defined, leads, content⟩
  exact ⟨rule, field, by rwa [same], leads.of_find same, content⟩

end SameRules

/-! Without left recursion each rule has a rank, and the rules that it begins with have smaller
ones. The rank counts the rules that can be come to, so that no rank exceeds their number. -/

section Rank

variable {grammar : Grammar} {name other : String}

open Classical in
/-- The number of rules that a rule comes to before a token is consumed, itself included. -/
noncomputable def rank (grammar : Grammar) (name : String) : Nat :=
  ((grammar.rules.map (·.1)).toFinset.filter
    (Relation.ReflTransGen grammar.BeginsWith name)).card

theorem rank_le (grammar : Grammar) (name : String) : grammar.rank name ≤ grammar.rules.length := by
  classical
  calc grammar.rank name ≤ (grammar.rules.map (·.1)).toFinset.card := Finset.card_filter_le _ _
    _ ≤ (grammar.rules.map (·.1)).length := List.toFinset_card_le _
    _ = grammar.rules.length := List.length_map _

theorem mem_of_find_some (found : grammar.find? name = some compiled) :
    name ∈ grammar.rules.map (·.1) := by
  obtain ⟨rules⟩ := grammar
  simp only [find?] at found
  induction rules with
  | nil => cases found
  | cons entry rest ih =>
      obtain ⟨key, value⟩ := entry
      by_cases same : name = key
      · simp [same]
      · have apart : (name == key) = false := by simpa using same
        rw [List.lookup_cons, apart] at found
        exact List.mem_cons_of_mem _ (ih found)

theorem rank_pos (found : grammar.find? name = some compiled) : 0 < grammar.rank name := by
  classical
  refine Finset.card_pos.mpr ⟨name, ?_⟩
  simpa using ⟨by simpa using mem_of_find_some found, Relation.ReflTransGen.refl⟩

theorem rank_lt (wellFounded : ¬ grammar.LeftRecursive) (begins : grammar.BeginsWith name other) :
    grammar.rank other < grammar.rank name := by
  classical
  obtain ⟨rule, field, found, leads, content⟩ := id begins
  refine Finset.card_lt_card (Finset.ssubset_iff_of_subset ?_ |>.mpr ⟨name, ?_, ?_⟩)
  · intro third member
    simp only [Finset.mem_filter] at member ⊢
    exact ⟨member.1, member.2.head begins⟩
  · simpa using ⟨by simpa using mem_of_find_some found, Relation.ReflTransGen.refl⟩
  · intro member
    simp only [Finset.mem_filter] at member
    exact wellFounded ⟨name, .head' begins member.2⟩

end Rank
end Grammar
end TokenGrammar
