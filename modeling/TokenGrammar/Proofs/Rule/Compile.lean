import Mathlib.Data.List.Forall2
import TokenGrammar.Grammar.Basic

namespace TokenGrammar

/-! # What the compiler promises of a rule

Whatever is wrong with a declaration is listed in the order of the checks. The compiler refuses a
declaration with the first entry of that list, and compiles one for which the list is empty. -/

/-- A choice has no field that would always be there, and a sequence does not keep its
separator. -/
structure Descriptor.WellFormed (rule : Descriptor) : Prop where
  alternatives : rule.combinator = .oneOf → ∀ field ∈ rule.fields, field.cardinality ≠ .single
  kept : rule.combinator = .seq → ∀ field ∈ rule.fields, field.name ≠ separatorName

/-- The first step of a computation that succeeds. -/
theorem Except.ok_of_bind_ok {first : Except ε α} {next : α → Except ε β}
    (succeeded : (do let value ← first; next value) = .ok result) :
    ∃ value, first = .ok value ∧ next value = .ok result := by
  cases first with
  | error error => cases succeeded
  | ok value => exact ⟨value, rfl, succeeded⟩

/-- How checks come out: with the first of the violations, or with a value if there are none. -/
inductive Verdict (meets : α → Prop) : List ε → Except ε α → Prop
  | refused : Verdict meets (error :: later) (.error error)
  | accepted (holds : meets value) : Verdict meets [] (.ok value)

namespace Verdict

variable {meets : α → Prop} {further : β → Prop} {errors more : List ε} {result : Except ε α}

theorem bind {next : α → Except ε β} (head : Verdict meets errors result)
    (tail : ∀ value, meets value → Verdict further more (next value)) :
    Verdict further (errors ++ more) (result >>= next) := by
  cases head with
  | refused => exact .refused
  | accepted holds => exact tail _ holds

theorem check {condition : Prop} [Decidable condition] {error : ε}
    (rest : ¬ condition → Verdict meets more result) :
    Verdict meets ((if condition then [error] else []) ++ more)
      (if condition then .error error else result) := by
  by_cases violated : condition
  · simp only [if_pos violated]
    exact .refused
  · simp only [if_neg violated]
    exact rest violated

theorem ok_iff (verdict : Verdict meets errors result) :
    (∃ value, result = .ok value) ↔ errors = [] := by
  cases verdict <;> simp

theorem meets_of_ok (verdict : Verdict meets errors (.ok value)) : meets value := by
  cases verdict with
  | accepted holds => exact holds

theorem error_iff (verdict : Verdict meets errors result) (error : ε) :
    result = .error error ↔ errors.head? = some error := by
  cases verdict <;> simp

end Verdict

/-- A field whose directives have been read. -/
structure FieldDescriptor.Describes (field : FieldDescriptor) (declared : FieldDeclaration) :
    Prop where
  name : field.name = declared.name
  symbol : field.symbol = declared.symbol
  cardinality : field.cardinality = declared.cardinality
  tokens : Constraint.ofDirective declared.tok = .ok field.tokens
  size : Repetition.ofDirective declared.size = .ok field.size
  separator : Constraint.ofDirective declared.sep = .ok field.separator

/-- What is made of the field that is declared at some index. -/
structure FieldDescriptor.Compiles (declared : FieldDeclaration × Nat) (field : FieldDescriptor) :
    Prop where
  describes : field.Describes declared.1
  index : field.index = declared.2

def unreadable (read : String → Except DirectiveError α) (location directive value : String) :
    List GrammarError :=
  match read value with
  | .ok _ => []
  | .error reason => [.invalidDirective location directive value reason]

theorem readDirective_verdict (read : String → Except DirectiveError α)
    (location directive value : String) :
    Verdict (fun result => read value = .ok result) (unreadable read location directive value)
      (readDirective read location directive value) := by
  unfold unreadable readDirective
  cases ran : read value with
  | ok result => exact .accepted rfl
  | error reason => exact .refused

theorem unreadable_eq_nil {read : String → Except DirectiveError α} :
    unreadable read location directive value = [] ↔ ∃ result, read value = .ok result := by
  unfold unreadable
  cases read value <;> simp

namespace FieldDeclaration

/-- The directives of a field that only a repeated one may carry. -/
def misplaced (rule : String) (field : FieldDeclaration) : List GrammarError :=
  if field.cardinality = .repeated then []
  else (if field.size ≠ "" then [.misplacedDirective rule field.name "size"] else [])
    ++ if field.sep ≠ "" then [.misplacedDirective rule field.name "sep"] else []

/-- What is wrong with a field by itself. -/
def malformed (rule : String) (field : FieldDeclaration) : List GrammarError :=
  let location := rule ++ "." ++ field.name
  field.misplaced rule
    ++ (unreadable Constraint.ofDirective location "tok" field.tok
    ++ (unreadable Repetition.ofDirective location "size" field.size
    ++ unreadable Constraint.ofDirective location "sep" field.sep))

/-- Whether a rule sets a field apart as its separator. -/
def isSeparator (combinator : Combinator) (field : FieldDeclaration) : Bool :=
  combinator = .seq ∧ field.name = separatorName

/-- What makes a field unfit for its rule. -/
def unfit (rule : String) (combinator : Combinator) (field : FieldDeclaration) :
    List GrammarError :=
  match combinator with
  | .oneOf => if field.cardinality = .single then [.singleAlternative rule field.name] else []
  | .seq =>
    if field.name = separatorName ∧ field.cardinality = .repeated then [.repeatedSeparator rule]
    else []

theorem head_misplaced (rule : String) (field : FieldDeclaration) :
    (field.misplaced rule).head? = field.misplaced?.map (.misplacedDirective rule field.name) := by
  unfold misplaced misplaced?
  by_cases repeated : field.cardinality = .repeated
  · simp only [if_pos repeated, List.head?_nil, Option.map_none]
  · by_cases sized : field.size = ""
    · by_cases separated : field.sep = "" <;> simp [repeated, sized, separated]
    · simp [repeated, sized]

theorem compile_verdict (rule : String) (index : Nat) (field : FieldDeclaration) :
    Verdict (FieldDescriptor.Compiles (field, index)) (field.malformed rule)
      (field.compile rule index) := by
  have first := field.head_misplaced rule
  unfold compile malformed
  cases misplaced : field.misplaced? with
  | some directive =>
      rw [misplaced] at first
      obtain ⟨later, found⟩ := List.head?_eq_some_iff.mp first
      rw [found]
      exact .refused
  | none =>
      rw [misplaced] at first
      rw [List.head?_eq_none_iff.mp first]
      refine (readDirective_verdict ..).bind fun tokens tokensRead => ?_
      refine (readDirective_verdict ..).bind fun size sizeRead => ?_
      rw [← List.append_nil (unreadable ..)]
      refine (readDirective_verdict ..).bind fun separator separatorRead => ?_
      exact .accepted ⟨⟨rfl, rfl, rfl, tokensRead, sizeRead, separatorRead⟩, rfl⟩

theorem malformed_eq_nil {rule : String} {field : FieldDeclaration} :
    field.malformed rule = [] ↔
      (field.cardinality ≠ .repeated → field.size = "" ∧ field.sep = "") ∧
      (∃ tokens, Constraint.ofDirective field.tok = .ok tokens) ∧
      (∃ size, Repetition.ofDirective field.size = .ok size) ∧
      ∃ separator, Constraint.ofDirective field.sep = .ok separator := by
  have placed : field.misplaced rule = [] ↔
      (field.cardinality ≠ .repeated → field.size = "" ∧ field.sep = "") := by
    unfold misplaced
    by_cases repeated : field.cardinality = .repeated <;> simp [repeated]
  simp only [malformed, List.append_eq_nil_iff, placed, unreadable_eq_nil]

theorem unfit_eq_nil {rule : String} {combinator : Combinator} {field : FieldDeclaration} :
    field.unfit rule combinator = [] ↔
      (combinator = .oneOf → field.cardinality ≠ .single) ∧
      (combinator = .seq → field.name = separatorName → field.cardinality ≠ .repeated) := by
  cases combinator <;> simp [unfit]

end FieldDeclaration

namespace Declaration

variable {combinator : Combinator}

/-- What is made of the fields from some index on: those that the rule keeps and those it sets
apart, the last of which is its separator. -/
structure CompilesFields (combinator : Combinator) (declared : List (FieldDeclaration × Nat))
    (compiled : List FieldDescriptor × Option FieldDescriptor) : Prop where
  kept : List.Forall₂ FieldDescriptor.Compiles
    (declared.filter (! ·.1.isSeparator combinator)) compiled.1
  apart : ∃ others, List.Forall₂ FieldDescriptor.Compiles
    (declared.filter (·.1.isSeparator combinator)) others ∧ compiled.2 = others.getLast?

theorem filter_zipIdx (p : α → Bool) (list : List α) (start : Nat) :
    ((list.zipIdx start).filter (p ·.1)).map Prod.fst = list.filter p := by
  calc ((list.zipIdx start).filter (p ·.1)).map Prod.fst
      = ((list.zipIdx start).map Prod.fst).filter p := List.filter_map.symm
    _ = list.filter p := by rw [List.zipIdx_map_fst]

theorem CompilesFields.isEmpty_iff {declared : List FieldDeclaration}
    {compiled : List FieldDescriptor × Option FieldDescriptor}
    (compiles : CompilesFields combinator (declared.zipIdx index) compiled) :
    compiled.1.isEmpty = true ↔ declared.all (·.isSeparator combinator) = true := by
  have kept := filter_zipIdx (! ·.isSeparator combinator) declared index
  have length := compiles.kept.length_eq
  rw [List.isEmpty_iff, ← List.length_eq_zero_iff, ← length, ← List.length_map Prod.fst, kept,
    List.length_eq_zero_iff, List.filter_eq_nil_iff]
  simp

theorem compileFields_verdict (rule : String) (combinator : Combinator) (index : Nat)
    (declared : List FieldDeclaration) :
    Verdict (CompilesFields combinator (declared.zipIdx index))
      (declared.flatMap fun field => field.malformed rule ++ field.unfit rule combinator)
      (compileFields rule combinator index declared) := by
  induction declared generalizing index with
  | nil => exact .accepted ⟨.nil, [], .nil, rfl⟩
  | cons head rest ih =>
      have later := ih (index + 1)
      rw [List.flatMap_cons, List.append_assoc, List.zipIdx_cons]
      refine (head.compile_verdict rule index).bind fun compiled compiles => ?_
      have keep (kept : head.isSeparator combinator = false) :
          Verdict (CompilesFields combinator ((head, index) :: rest.zipIdx (index + 1)))
            (rest.flatMap fun field => field.malformed rule ++ field.unfit rule combinator)
            (do
              let made ← compileFields rule combinator (index + 1) rest
              return (compiled :: made.1, made.2)) := by
        rw [← List.append_nil (rest.flatMap _)]
        refine later.bind fun made makes => ?_
        obtain ⟨fields, separator⟩ := made
        obtain ⟨fieldsCompiled, separatorCompiled⟩ := makes
        refine .accepted ⟨?_, ?_⟩
        · simpa [kept] using ⟨compiles, fieldsCompiled⟩
        · simpa [kept] using separatorCompiled
      cases combinator with
      | oneOf => exact .check fun single => keep (by simp [FieldDeclaration.isSeparator])
      | seq =>
          by_cases named : head.name = separatorName
          · simp only [FieldDeclaration.unfit, named, true_and, if_true]
            refine .check fun single => ?_
            rw [← List.append_nil (rest.flatMap _)]
            refine later.bind fun made makes => ?_
            obtain ⟨fields, separator⟩ := made
            obtain ⟨fieldsCompiled, others, compiledToo, last⟩ := makes
            have apart : head.isSeparator .seq = true := by
              simp [FieldDeclaration.isSeparator, named]
            refine .accepted ⟨?_, compiled :: others, ?_, ?_⟩
            · simpa [apart] using fieldsCompiled
            · simpa [apart] using ⟨compiles, compiledToo⟩
            · simp only at last
              rw [last, List.getLast?_cons]
              cases others.getLast? <;> rfl
          · simp only [FieldDeclaration.unfit, named, false_and, if_false]
            exact keep (by simp [FieldDeclaration.isSeparator, named])

/-- All that is wrong with a declaration. Without a marker nothing else is checked. -/
def violations (declaration : Declaration) : List GrammarError :=
  match declaration.marker with
  | none => [.missingMarker declaration.name]
  | some marker =>
    unreadable Constraint.ofDirective declaration.name "drop" marker.drop
      ++ (declaration.fields.flatMap (fun field =>
        field.malformed declaration.name ++ field.unfit declaration.name marker.combinator)
      ++ if declaration.fields.all (·.isSeparator marker.combinator) then
          [.noFields declaration.name]
        else [])

/-- A declaration whose directives can be read and stand where they may, with fields that fit its
combinator. -/
structure WellFormed (declaration : Declaration) (marker : Marker) : Prop where
  marked : declaration.marker = some marker
  drop : ∃ drop, Constraint.ofDirective marker.drop = .ok drop
  placed : ∀ field ∈ declaration.fields, field.cardinality ≠ .repeated →
    field.size = "" ∧ field.sep = ""
  tokens : ∀ field ∈ declaration.fields, ∃ tokens, Constraint.ofDirective field.tok = .ok tokens
  sizes : ∀ field ∈ declaration.fields, ∃ size, Repetition.ofDirective field.size = .ok size
  separators : ∀ field ∈ declaration.fields,
    ∃ separator, Constraint.ofDirective field.sep = .ok separator
  alternatives : marker.combinator = .oneOf →
    ∀ field ∈ declaration.fields, field.cardinality ≠ .single
  apart : marker.combinator = .seq →
    ∀ field ∈ declaration.fields, field.name = separatorName → field.cardinality ≠ .repeated
  remains : ∃ field ∈ declaration.fields,
    ¬ (marker.combinator = .seq ∧ field.name = separatorName)

theorem violations_eq_nil {declaration : Declaration} :
    declaration.violations = [] ↔ ∃ marker, declaration.WellFormed marker := by
  constructor
  · intro sound
    unfold violations at sound
    cases marked : declaration.marker with
    | none => simp [marked] at sound
    | some marker =>
        simp only [marked, List.append_eq_nil_iff, List.flatMap_eq_nil_iff, unreadable_eq_nil,
          FieldDeclaration.malformed_eq_nil, FieldDeclaration.unfit_eq_nil] at sound
        obtain ⟨drop, fields, remains⟩ := sound
        refine ⟨marker, marked, drop, fun field member => (fields field member).1.1,
          fun field member => (fields field member).1.2.1,
          fun field member => (fields field member).1.2.2.1,
          fun field member => (fields field member).1.2.2.2,
          fun combinator field member => (fields field member).2.1 combinator,
          fun combinator field member => (fields field member).2.2 combinator, ?_⟩
        simpa [FieldDeclaration.isSeparator] using remains
  · intro formed
    obtain ⟨marker, formed⟩ := formed
    simp only [violations, formed.marked, List.append_eq_nil_iff, List.flatMap_eq_nil_iff,
      unreadable_eq_nil, FieldDeclaration.malformed_eq_nil, FieldDeclaration.unfit_eq_nil]
    refine ⟨formed.drop, fun field member => ⟨⟨formed.placed field member,
      formed.tokens field member, formed.sizes field member, formed.separators field member⟩,
      (formed.alternatives · field member), (formed.apart · field member)⟩, ?_⟩
    simpa [FieldDeclaration.isSeparator] using formed.remains

structure Compiles (declaration : Declaration) (rule : Descriptor) : Prop where
  name : rule.name = declaration.name
  present : rule.fields ≠ []
  marked : ∃ marker, declaration.marker = some marker ∧ rule.combinator = marker.combinator ∧
    Constraint.ofDirective marker.drop = .ok rule.drop
  fields : CompilesFields rule.combinator declaration.fields.zipIdx (rule.fields, rule.separator)

theorem compile_verdict (declaration : Declaration) :
    Verdict declaration.Compiles declaration.violations declaration.compile := by
  unfold violations compile
  cases marked : declaration.marker with
  | none => exact .refused
  | some marker =>
      refine (readDirective_verdict ..).bind fun drop dropRead => ?_
      refine (compileFields_verdict ..).bind fun (fields, separator) compiles => ?_
      simp only [← compiles.isEmpty_iff]
      rw [← List.append_nil (ite ..)]
      refine .check fun nonempty => ?_
      exact .accepted ⟨rfl, by simpa using nonempty, ⟨marker, marked, rfl, dropRead⟩, compiles⟩

variable {declaration : Declaration} {rule : Descriptor}

theorem compiles_of_ok (compiled : declaration.compile = .ok rule) :
    (∃ marker, declaration.WellFormed marker) ∧ declaration.Compiles rule := by
  have verdict := declaration.compile_verdict
  have formed := violations_eq_nil.mp (verdict.ok_iff.mp ⟨rule, compiled⟩)
  exact ⟨formed, (compiled ▸ verdict).meets_of_ok⟩

theorem mem_of_forall₂ {relation : α → β → Prop} {list : List α} {others : List β}
    (related : List.Forall₂ relation list others) (member : other ∈ others) :
    ∃ item ∈ list, relation item other := by
  induction related with
  | nil => cases member
  | cons first rest ih =>
      rcases List.mem_cons.mp member with rfl | later
      · exact ⟨_, by simp, first⟩
      · obtain ⟨item, among, relates⟩ := ih later
        exact ⟨item, by simp [among], relates⟩

theorem Compiles.kept (compiles : declaration.Compiles rule) (member : field ∈ rule.fields) :
    ∃ declared ∈ declaration.fields,
      declared.isSeparator rule.combinator = false ∧ field.Describes declared := by
  obtain ⟨⟨declared, index⟩, among, made⟩ := mem_of_forall₂ compiles.fields.kept member
  obtain ⟨among, kept⟩ := List.mem_filter.mp among
  exact ⟨declared, List.fst_mem_of_mem_zipIdx among, by simpa using kept, made.describes⟩

theorem Compiles.separator (compiles : declaration.Compiles rule)
    (present : rule.separator = some field) :
    ∃ declared ∈ declaration.fields, field.Describes declared := by
  obtain ⟨others, compiled, last⟩ := compiles.fields.apart
  rw [present] at last
  obtain ⟨⟨declared, index⟩, among, made⟩ :=
    mem_of_forall₂ compiled (List.mem_of_getLast? last.symm)
  exact ⟨declared, List.fst_mem_of_mem_zipIdx (List.mem_filter.mp among).1, made.describes⟩

theorem compile_wellFormed (compiled : declaration.compile = .ok rule) : rule.WellFormed := by
  obtain ⟨⟨marker, formed⟩, compiles⟩ := compiles_of_ok compiled
  obtain ⟨other, marked, same, _⟩ := compiles.marked
  obtain rfl : marker = other := Option.some.inj (formed.marked.symm.trans marked)
  constructor
  · intro combinator field member
    obtain ⟨declared, among, _, describes⟩ := compiles.kept member
    rw [describes.cardinality]
    exact formed.alternatives (same ▸ combinator) declared among
  · intro combinator field member named
    obtain ⟨declared, among, kept, describes⟩ := compiles.kept member
    simp [FieldDeclaration.isSeparator, combinator, ← describes.name, named] at kept

end Declaration

namespace Grammar

theorem mem_of_find {declarations : List Declaration} {hasDefault : String → Bool}
    (found : (ofDeclarations declarations hasDefault).find? path = some compiled) :
    ∃ declaration ∈ declarations, declaration.path = path ∧ declaration.compile = compiled := by
  induction declarations with
  | nil => cases found
  | cons head rest ih =>
      simp only [find?, ofDeclarations, List.map_cons, List.lookup_cons] at found
      by_cases same : path = head.path
      · simp only [same, BEq.rfl] at found
        cases found
        exact ⟨head, by simp, same.symm, rfl⟩
      · have other : (path == head.path) = false := by simpa using same
        simp only [other] at found
        obtain ⟨declaration, member, rest⟩ := ih found
        exact ⟨declaration, by simp [member], rest⟩

/-- A rule of a grammar that has been compiled is well-formed. -/
theorem wellFormed_of_find {declarations : List Declaration} {hasDefault : String → Bool}
    (found : (ofDeclarations declarations hasDefault).find? path = some (.ok rule)) :
    rule.WellFormed := by
  obtain ⟨declaration, _, _, compiled⟩ := mem_of_find found
  exact Declaration.compile_wellFormed compiled

end Grammar
end TokenGrammar
