import TokenGrammar.Proofs.Language.Node

namespace TokenGrammar

/-! # The values of JSON nodes

A node has a value if and only if everything that a walk over it comes by can be converted. The first thing
that cannot be is what the error is about. -/

theorem Verdict.imp {meets further : α → Prop} (verdict : Verdict meets errors result)
    (each : ∀ value, meets value → further value) : Verdict further errors result := by
  cases verdict with
  | refused => exact .refused
  | accepted holds => exact .accepted (each _ holds)

theorem Verdict.map {meets : α → Prop} {further : β → Prop} {result : Except ε α} {errors : List ε}
    {finish : α → β} (verdict : Verdict meets errors result)
    (each : ∀ value, meets value → further (finish value)) :
    Verdict further errors (do return finish (← result)) := by
  cases verdict with
  | refused => exact .refused
  | accepted holds => exact .accepted (each _ holds)

namespace JsonValue

/-- Of the members put into their places the last one with a key is the one that is found. -/
theorem lookup_insertAll_reverse (members held : List (String × JsonValue)) (key : String) :
    (insertAll members held).lookup key = (members.reverse.lookup key).or (held.lookup key) := by
  induction members generalizing held with
  | nil => rfl
  | cons entry members ih =>
      rw [insertAll, List.foldl_cons, ← insertAll, ih, lookup_insertMember, List.reverse_cons,
        List.lookup_append, Option.or_assoc]
      congr 1
      rw [Entries.lookup_cons_eq]
      split <;> rfl

end JsonValue

namespace Language

open Language.Json (compileKind_array compileKind_object)

namespace Visit

theorem verdict (rule : String) (visit : Visit) :
    Verdict (visit.Converts rule) ([visit].filterMap (·.fault? rule))
      (visit.value rule) := by
  cases converted : visit.value rule with
  | ok value =>
      simp only [List.filterMap_cons, fault?, converted]
      exact .accepted converted
  | error error =>
      simp only [List.filterMap_cons, fault?, converted]
      exact .refused

theorem key_verdict (rule : String) (key : Token) :
    Verdict (fun text => key.stringValue = .ok text) ([Visit.string key].filterMap (·.fault? rule))
      key.stringValue := by
  cases decoded : key.stringValue with
  | ok text =>
      simp only [List.filterMap_cons, fault?, value, decoded]
      exact .accepted rfl
  | error error =>
      simp only [List.filterMap_cons, fault?, value, decoded]
      exact .refused

theorem ofScalars_eq_none {number string : Option Token} {null : Option Null} {boolean : Option Token} :
    ofScalars number string null boolean = none ↔
      number = none ∧ string = none ∧ null = none ∧ boolean = none := by
  simp [ofScalars, Option.or_eq_none_iff]

end Visit

namespace Dialect

open Node

variable (dialect : Dialect Null)

/-- A scalar that is set hides the arrays and objects behind it. -/
theorem scalar_verdict {number string : Option Token} {null : Option Null} {boolean : Option Token}
    (first : Visit.ofScalars number string null boolean = some visit) (rule : String)
    (array : Option (List (Node Null))) (object : Option (List (Token × Node Null))) :
    let node := .mk number string null boolean array object
    Verdict (Means (Visit.Converts rule) node) (node.visits.filterMap (·.fault? rule))
      (visit.value rule) := by
  have verdict := visit.verdict rule
  rcases number with _ | number
  · rcases string with _ | string
    · rcases null with _ | null
      · rcases boolean with _ | boolean
        · cases first
        · cases first
          exact verdict.imp fun _ => .bool
      · cases first
        exact verdict.imp fun _ => .null
    · cases first
      exact verdict.imp fun _ => .string
  · cases first
    exact verdict.imp fun _ => .number

theorem compileMember_member (key : Token) (value : Tree) :
    (dialect.member key value).compileMember = (do return (← key.stringValue, ← value.compile)) := by
  simp [member, Tree.compileMember, Tree.keyToken, Tree.compileValue, dialect.scalar_key]

theorem means_ofMembers (each : MeansEach leaf items entries) :
    Means leaf (.mk none none none none none (some items)) (.ofMembers entries) := by
  refine .object each (JsonValue.ordered_insertAll List.Pairwise.nil) fun key => ?_
  have found := JsonValue.lookup_insertAll_reverse entries [] key
  rwa [List.lookup_nil, Option.or_none] at found

mutual

/-- The walk goes where the compiler goes, and in the same order. -/
theorem compile_verdict : (node : Node Null) →
    Verdict (Means (Visit.Converts dialect.rule) node) (node.visits.filterMap (·.fault? dialect.rule))
      (dialect.tree node).compile
  | .mk number string null boolean array object => by
    rw [tree, Tree.compile, dialect.compile_scalars]
    cases scalar : Visit.ofScalars number string null boolean with
    | some visit => exact scalar_verdict scalar dialect.rule array object
    | none =>
        obtain ⟨rfl, rfl, rfl, rfl⟩ := Visit.ofScalars_eq_none.mp scalar
        match array, object with
        | some items, _ =>
            simp only [arrays, Tree.compileAlternatives, dialect.arrayKind, compileKind_array, visits]
            exact (compileAll_verdict items).map fun _ => .array
        | none, some items =>
            simp only [arrays, objects, Tree.compileAlternatives, dialect.objectKind, compileKind_object,
              visits]
            exact (compileEach_verdict items).map fun _ => means_ofMembers
        | none, none => exact .refused

theorem compileAll_verdict : (nodes : List (Node Null)) →
    Verdict (MeansAll (Visit.Converts dialect.rule) nodes)
      ((visitsAll nodes).filterMap (·.fault? dialect.rule))
      (Tree.compileAll (dialect.trees nodes))
  | [] => .accepted .nil
  | node :: nodes => by
    rw [visitsAll, List.filterMap_append, trees, Tree.compileAll]
    refine (compile_verdict node).bind fun value means => ?_
    exact (compileAll_verdict nodes).map fun _ => .cons means

theorem compileEach_verdict : (items : List (Token × Node Null)) →
    Verdict (MeansEach (Visit.Converts dialect.rule) items)
      ((visitsEach items).filterMap (·.fault? dialect.rule))
      (Tree.compileEach (dialect.members items))
  | [] => .accepted .nil
  | (key, node) :: items => by
    have parts : visitsEach ((key, node) :: items) =
        ([.string key] ++ node.visits) ++ visitsEach items := by rw [visitsEach]; rfl
    have member : Verdict
        (fun entry => key.stringValue = .ok entry.1 ∧ Means (Visit.Converts dialect.rule) node entry.2)
        ([.string key].filterMap (Visit.fault? dialect.rule) ++
          node.visits.filterMap (·.fault? dialect.rule))
        (do return (← key.stringValue, ← (dialect.tree node).compile)) :=
      (Visit.key_verdict dialect.rule key).bind fun text decoded =>
        (compile_verdict node).map fun value means => ⟨decoded, means⟩
    rw [parts, List.filterMap_append, List.filterMap_append, members, Tree.compileEach,
      compileMember_member]
    exact member.bind fun entry ⟨decoded, means⟩ =>
      (compileEach_verdict items).map fun _ => .cons decoded means

end

/-- What the value of a node is, and why it may have none. -/
structure Evaluates (node : Node Null) : Prop where
  succeeds : (∃ value, (dialect.tree node).compile = .ok value) ↔
    ∀ visit ∈ node.visits, visit.fault? dialect.rule = none
  means : ∀ value, (dialect.tree node).compile = .ok value →
    Means (Visit.Converts dialect.rule) node value
  fails : ∀ error, (dialect.tree node).compile = .error error ↔
    node.visits.findSome? (·.fault? dialect.rule) = some error

theorem evaluates (node : Node Null) : dialect.Evaluates node := by
  have verdict := dialect.compile_verdict node
  refine ⟨verdict.ok_iff.trans List.filterMap_eq_nil_iff, fun value compiled => ?_, fun error => ?_⟩
  · exact (compiled ▸ verdict).meets_of_ok
  · rw [verdict.error_iff, List.head?_filterMap]

end Dialect

/-- In both languages a node has a value if and only if everything in it can be converted, those items of an
object included that a later one with the same key takes the place of. -/
theorem compile_walks :
    (∀ node : Node Token, Dialect.json.Evaluates node) ∧
      ∀ node : Node Empty, Dialect.sjson.Evaluates node :=
  ⟨Dialect.json.evaluates, Dialect.sjson.evaluates⟩

/-- An object with one key, which its two items spell in two ways. -/
def Node.spelledTwice (first second : Node Null) : Node Null :=
  .mk none none none none none (some [
    (.ordinary "string" "\"a\"", first), (.ordinary "string" "\"\\u0061\"", second)])

def Node.truth (text : String) : Node Null :=
  .mk none none none (some (.ordinary "bool" text)) none none

def Node.vacant : Node Null := .mk none none none none none none

/-- The later item takes the place of the first one, and what is wrong with the first one counts. -/
theorem compile_walks_twice :
    (Dialect.json.tree (.spelledTwice (.truth "true") (.truth "false"))).compile =
        .ok (.object [("a", .bool false)]) ∧
      (Dialect.json.tree (.spelledTwice (.truth "yes") .vacant)).compile =
        .error (.invalidBool "yes") ∧
      (Dialect.sjson.tree (.spelledTwice (.truth "true") (.truth "false"))).compile =
        .ok (.object [("a", .bool false)]) ∧
      (Dialect.sjson.tree (.spelledTwice .vacant (.truth "yes"))).compile =
        .error (.emptyNode "Sjson") := by
  obtain ⟨json, sjson⟩ := compile_walks
  exact ⟨rfl, ((json _).fails _).mpr rfl, rfl, ((sjson _).fails _).mpr rfl⟩

end Language
end TokenGrammar
