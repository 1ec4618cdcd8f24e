import TokenGrammar.Language.Json
import TokenGrammar.Language.Sexpr
import TokenGrammar.Proofs.Grammar.Admissible

namespace TokenGrammar

/-! How to see of given declarations that they are admissible. If nothing looks ahead, a rule
matches only by consuming a token, and begins with one of its first fields. It is enough to give
numbers to the rules such that each is above those that it may begin with. -/

/-- Every token that satisfies the constraint is consumed. -/
def Constraint.Consuming (constraint : Constraint) : Prop :=
  ∀ pattern ∈ constraint.patterns, pattern.lookahead = false

instance (constraint : Constraint) : Decidable constraint.Consuming :=
  inferInstanceAs (Decidable (∀ pattern ∈ constraint.patterns, pattern.lookahead = false))

theorem Constraint.Consuming.not_looksAhead {constraint : Constraint}
    (consuming : constraint.Consuming) : ¬ constraint.LooksAhead := by
  rintro ⟨token, pattern, found, looking⟩
  simp [consuming pattern (List.mem_of_find?_eq_some found)] at looking

/-- A field without which a sequence may do. -/
def FieldDescriptor.Dispensable (field : FieldDescriptor) : Prop :=
  field.cardinality ≠ .single ∧ (field.cardinality = .repeated → field.size.min = 0)

instance (field : FieldDescriptor) : Decidable field.Dispensable :=
  inferInstanceAs (Decidable (_ ∧ _))

namespace Descriptor

/-- The fields up to the first that has to be there. -/
def firstOf : List FieldDescriptor → List FieldDescriptor
  | [] => []
  | field :: rest => field :: if field.Dispensable then firstOf rest else []

/-- The fields with which a rule may begin. -/
def first (rule : Descriptor) : List FieldDescriptor :=
  match rule.combinator with
  | .oneOf => rule.fields
  | .seq => firstOf rule.fields

end Descriptor

namespace Grammar

/-- No field of a rule looks ahead. -/
def Consuming (grammar : Grammar) : Prop :=
  ∀ name rule field, grammar.find? name = some (.ok rule) → rule.Has field →
    field.tokens.Consuming

variable {grammar : Grammar}

mutual

/-- What may match without consuming a token is a leaf whose own constraint looks ahead. -/
theorem Consuming.looksAhead_of_idle (consuming : grammar.Consuming) :
    ∀ {symbol : Symbol} {constraint : Constraint}, grammar.MayIdle symbol constraint →
      constraint.LooksAhead
  | _, _, .token looks => looks
  | _, _, .mark looks => looks
  | _, _, .boxed content => consuming.looksAhead_of_idle content
  | _, _, .sequence defined _ finished later => absurd (consuming.comesTo finished ⟨_, defined⟩).1 later
  | _, _, .choice defined _ member _ content =>
    absurd (consuming.looksAhead_of_idle content)
      (consuming _ _ _ defined (.inl member)).not_looksAhead

/-- A sequence that has consumed nothing has matched nothing. -/
theorem Consuming.comesTo (consuming : grammar.Consuming) :
    ∀ {rule : Descriptor} {rest : List FieldDescriptor} {items : Nat},
      grammar.ComesTo rule rest items → (∃ name, grammar.find? name = some (.ok rule)) →
        items = 0 ∧ (∀ field ∈ rest, field ∈ rule.fields) ∧
          ∀ field ∈ Descriptor.firstOf rest, field ∈ Descriptor.firstOf rule.fields
  | _, _, _, .start, _ => ⟨rfl, fun _ member => member, fun _ member => member⟩
  | _, _, _, .without before optional unneeded, defined => by
    obtain ⟨empty, members, firsts⟩ := consuming.comesTo before defined
    refine ⟨empty, fun other member => members other (by simp [member]), fun other member => ?_⟩
    refine firsts other ?_
    rw [Descriptor.firstOf, if_pos (show FieldDescriptor.Dispensable _ from ⟨optional, unneeded⟩)]
    exact List.mem_cons_of_mem _ member
  | _, _, _, .behind before _ _ content, ⟨name, found⟩ => by
    obtain ⟨_, members, _⟩ := consuming.comesTo before ⟨name, found⟩
    exact absurd (consuming.looksAhead_of_idle content)
      (consuming name _ _ found (.inl (members _ (by simp)))).not_looksAhead

end

/-- If no field looks ahead, every repetition of a field consumes a token. -/
theorem Consuming.not_mayIdle (consuming : grammar.Consuming)
    (found : grammar.find? name = some (.ok rule)) (has : rule.Has field) :
    ¬ grammar.MayIdle field.symbol field.tokens :=
  fun idle => (consuming name rule field found has).not_looksAhead
    (consuming.looksAhead_of_idle idle)

theorem Consuming.mem_first (consuming : grammar.Consuming)
    (found : grammar.find? name = some (.ok rule)) (leads : grammar.Leads rule field) :
    field ∈ rule.first := by
  cases leads with
  | item combinator comes adjoins =>
      obtain ⟨_, _, firsts⟩ := consuming.comesTo comes ⟨name, found⟩
      simp only [Descriptor.first, combinator]
      exact firsts field (by simp [Descriptor.firstOf])
  | separator combinator comes later present =>
      exact absurd (consuming.comesTo comes ⟨name, found⟩).1 later
  | alternative combinator member => simpa only [Descriptor.first, combinator] using member

/-- A number for each rule, larger than those of the rules that it may begin with. -/
def Ranks (grammar : Grammar) (rank : String → Nat) : Prop :=
  ∀ name rule field other, grammar.find? name = some (.ok rule) → field ∈ rule.first →
    field.symbol.content = .rule other → rank other < rank name

theorem Ranks.not_leftRecursive {rank : String → Nat} (ranks : grammar.Ranks rank)
    (consuming : grammar.Consuming) : ¬ grammar.LeftRecursive := by
  have descends {name other : String} (begins : grammar.BeginsWith name other) :
      rank other < rank name := by
    obtain ⟨rule, field, found, leads, content⟩ := begins
    exact ranks name rule field other found (consuming.mem_first found leads) content
  rintro ⟨name, chain⟩
  have below : ∀ other, Relation.TransGen grammar.BeginsWith name other →
      rank other < rank name := by
    intro other chain
    induction chain with
    | single begins => exact descends begins
    | tail _ begins ih => exact (descends begins).trans ih
  exact absurd (below name chain) (Nat.lt_irrefl _)

/-! The conditions on given declarations, to be evaluated. -/

/-- Whether the rule of a symbol, if it has one, is declared and numbered below a bound. -/
def declares (declarations : List Declaration) (below : String → Bool) (symbol : Symbol) : Bool :=
  match symbol.content with
  | .rule other => declarations.any (·.path == other) && below other
  | _ => true

/-- Whether every declaration compiles to a rule that is numbered above those with which it may
begin, and that only refers to declared ones. -/
def ranked (declarations : List Declaration) (rank : String → Nat) : Bool :=
  declarations.all fun declaration =>
    match declaration.compile with
    | .error _ => false
    | .ok rule =>
      declaration.fields.all (fun field => declares declarations (fun _ => true) field.symbol) &&
        (rule.fields ++ rule.separator.toList).all (fun field => field.tokens.Consuming) &&
        rule.first.all fun field =>
          declares declarations (fun other => rank other < rank declaration.path) field.symbol

variable {declarations : List Declaration}

theorem declares_of_check {below : String → Bool} (checked : declares declarations below symbol = true)
    (content : symbol.content = .rule name) :
    (∃ declaration ∈ declarations, declaration.path = name) ∧ below name = true := by
  simp only [declares, content, Bool.and_eq_true, List.any_eq_true, beq_iff_eq] at checked
  exact checked

theorem ranked_cases {rank : String → Nat} (checked : ranked declarations rank = true)
    (member : declaration ∈ declarations) :
    ∃ rule, declaration.compile = .ok rule ∧
      (∀ field ∈ declaration.fields, Declares declarations field.symbol) ∧
      (∀ field, rule.Has field → field.tokens.Consuming) ∧
      ∀ field ∈ rule.first, ∀ other, field.symbol.content = .rule other →
        rank other < rank declaration.path := by
  simp only [ranked, List.all_eq_true] at checked
  have own := checked declaration member
  cases compiled : declaration.compile with
  | error error => simp [compiled] at own
  | ok rule =>
      simp only [compiled, Bool.and_eq_true, List.all_eq_true, decide_eq_true_eq] at own
      obtain ⟨⟨closed, consuming⟩, descends⟩ := own
      refine ⟨rule, rfl, fun field member name content => ?_, fun field has => ?_,
        fun field member other content => ?_⟩
      · exact (declares_of_check (closed field member) content).1
      · refine consuming field ?_
        rcases has with member | present
        · simp [member]
        · simp [present]
      · simpa using (declares_of_check (descends field member) content).2

theorem consuming_of_ranked {rank : String → Nat} (checked : ranked declarations rank = true) :
    (ofDeclarations declarations).Consuming := by
  intro name rule field found has
  obtain ⟨declaration, member, _, compiled⟩ := mem_of_find found
  obtain ⟨other, compiledToo, _, consuming, _⟩ := ranked_cases checked member
  cases compiled.symm.trans compiledToo
  exact consuming field has

theorem admissible_of_ranked {rank : String → Nat} (checked : ranked declarations rank = true) :
    Admissible declarations := by
  refine ⟨fun declaration member => ?_, fun declaration member => ?_, ?_⟩
  · obtain ⟨rule, compiled, _⟩ := ranked_cases checked member
    exact ⟨rule, compiled⟩
  · obtain ⟨_, _, closed, _⟩ := ranked_cases checked member
    exact closed
  · have ranks : (ofDeclarations declarations).Ranks rank := by
      intro name rule field other found first content
      obtain ⟨declaration, member, rfl, compiled⟩ := mem_of_find found
      obtain ⟨_, compiledToo, _, _, descends⟩ := ranked_cases checked member
      cases compiled.symm.trans compiledToo
      exact descends field first other content
    exact ranks.not_leftRecursive (consuming_of_ranked checked)

/-- Rules whose fields hold tokens and no other rules do not recurse at all, also if they look
ahead. -/
theorem not_leftRecursive_of_leaves
    (leaves : ∀ declaration ∈ declarations, ∀ field ∈ declaration.fields,
      ∀ name, field.symbol.content ≠ .rule name) :
    ¬ (ofDeclarations declarations).LeftRecursive := by
  intro ⟨name, cycle⟩
  obtain ⟨other, ⟨rule, field, found, leads, content⟩, _⟩ :=
    Relation.TransGen.head'_iff.mp cycle
  obtain ⟨declaration, member, _, compiled⟩ := mem_of_find found
  obtain ⟨declared, declaredMember, describes⟩ :=
    (Declaration.compile_describes compiled).declared field leads.has
  exact leaves declaration member declared declaredMember other (describes.symbol ▸ content)

/-- Whether every declaration compiles and has fields of tokens only. -/
def flat (declarations : List Declaration) : Bool :=
  declarations.all fun declaration =>
    declaration.compile.toOption.isSome &&
      declaration.fields.all fun field => decide (field.symbol.content = .token)

theorem admissible_of_flat (checked : flat declarations = true) : Admissible declarations := by
  simp only [flat, List.all_eq_true, Bool.and_eq_true, decide_eq_true_eq] at checked
  refine ⟨fun declaration member => ?_, fun declaration member field among name content => ?_, ?_⟩
  · obtain ⟨compiles, _⟩ := checked declaration member
    cases compiled : declaration.compile with
    | ok rule => exact ⟨rule, rfl⟩
    | error error => simp [compiled, Except.toOption] at compiles
  · obtain ⟨_, leaves⟩ := checked declaration member
    rw [leaves field among] at content
    cases content
  · refine not_leftRecursive_of_leaves fun declaration member field among name content => ?_
    obtain ⟨_, leaves⟩ := checked declaration member
    rw [leaves field among] at content
    cases content

/-- Whether all rules that are declared satisfy a condition. -/
def allRules (declarations : List Declaration) (condition : Descriptor → Bool) : Bool :=
  declarations.all fun declaration => declaration.compile.toOption.all condition

theorem of_allRules {condition : Descriptor → Bool}
    (checked : allRules declarations condition = true)
    (found : (ofDeclarations declarations).find? name = some (.ok rule)) :
    condition rule = true := by
  obtain ⟨declaration, member, _, compiled⟩ := mem_of_find found
  simp only [allRules, List.all_eq_true] at checked
  simpa [compiled, Except.toOption] using checked declaration member

example : ranked Language.Json.declarations
    (fun name => if name = "Json" ∨ name = "DictItem" then 1 else 0) = true := by
  decide +kernel

end Grammar
end TokenGrammar
