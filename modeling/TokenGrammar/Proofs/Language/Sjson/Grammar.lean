import TokenGrammar.Proofs.Language.Json.Literals

namespace TokenGrammar.Language.Sjson

open TokenGrammar.Parser TokenGrammar.Grammar
open Language.Json (op container containerRule field flatten map_fst_eq forall_map_snd)

/-! The trees of simplified JSON are those of JSON in other words, and are written alike. -/

def grammar : Grammar := Language.sjson.grammar

def member (key : Token) (value : Tree) : Tree :=
  .node "Pair" [.mk "key" .single [.token key], .mk "colon" .single [.mark],
    .mk "value" .single [value]]

def alternatives : List String := ["number", "string", "boolean", "list", "object"]

def alternative (name : String) (tree : Tree) : Tree :=
  .node "Sjson" <| alternatives.map fun field =>
    .mk field .optional (if field = name then [tree] else [])

/-- A tree of simplified JSON, and the tree of JSON that says the same. -/
inductive Restates : Tree → Tree → Prop
  | number (text : String) :
      Restates (alternative "number" (.token (.ordinary "number" text)))
        (Json.alternative "number" (Json.scalar "Number" (.ordinary "number" text)))
  | string (text : String) :
      Restates (alternative "string" (.token (.ordinary "string" text)))
        (Json.alternative "string" (Json.scalar "Str" (.ordinary "string" text)))
  | bool (text : String) :
      Restates (alternative "boolean" (.token (.ordinary "bool" text)))
        (Json.alternative "boolean" (Json.scalar "Bool" (.ordinary "bool" text)))
  | array {items : List (Tree × Tree)} (values : ∀ item ∈ items, Restates item.1 item.2) :
      Restates (alternative "list" (container "List" (items.map (·.1))))
        (Json.alternative "array" (container "Array" (items.map (·.2))))
  | dict {members : List (String × Tree × Tree)}
      (values : ∀ entry ∈ members, Restates entry.2.1 entry.2.2) :
      Restates
        (alternative "object" (container "Object" <|
          members.map fun entry => member (.ordinary "string" entry.1) entry.2.1))
        (Json.alternative "dict" (container "Dict" <|
          members.map fun entry => Json.member (.ordinary "string" entry.1) entry.2.2))

variable {tree other : Tree}

theorem Restates.wellFormed (restates : Restates tree other) : Json.WellFormed other := by
  induction restates with
  | number text => exact .number text
  | string text => exact .string text
  | bool text => exact .bool text
  | array values ih =>
      refine .array fun tree inside => ?_
      obtain ⟨item, known, rfl⟩ := List.mem_map.mp inside
      exact ih item known
  | @dict members values ih =>
      have entries := @Json.WellFormed.dict (members.map fun entry => (entry.1, entry.2.2)) (by
        intro entry inside
        obtain ⟨item, known, rfl⟩ := List.mem_map.mp inside
        exact ih item known)
      rwa [List.map_map] at entries

theorem compileAll_congr {items : List (Tree × Tree)}
    (each : ∀ item ∈ items, item.1.compile = item.2.compile) :
    Tree.compileAll (items.map (·.1)) = Tree.compileAll (items.map (·.2)) := by
  induction items with
  | nil => rfl
  | cons item items ih =>
      have others := ih fun other inside => each other (by simp [inside])
      simp only [List.map_cons, Tree.compileAll, each item (by simp), others]

theorem compileMember_restated (key : Token) (same : tree.compile = other.compile) :
    (member key tree).compileMember = (Json.member key other).compileMember := by
  simp only [member, Json.member, Tree.compileMember, Tree.keyToken, Tree.compileValue, same]
  rfl

theorem compileEach_congr {members : List (String × Tree × Tree)}
    (each : ∀ entry ∈ members, entry.2.1.compile = entry.2.2.compile) :
    Tree.compileEach (members.map fun entry => member (.ordinary "string" entry.1) entry.2.1) =
      Tree.compileEach
        (members.map fun entry => Json.member (.ordinary "string" entry.1) entry.2.2) := by
  induction members with
  | nil => rfl
  | cons entry members ih =>
      have others := ih fun other inside => each other (by simp [inside])
      simp only [List.map_cons, Tree.compileEach, others,
        compileMember_restated _ (each entry (by simp))]

theorem compile_alternative (name : String) (tree : Tree) (known : name ∈ alternatives) :
    (alternative name tree).compile = tree.compileKind (.ofField name) := by
  simp only [alternatives, List.mem_cons, List.not_mem_nil, or_false] at known
  rcases known with rfl | rfl | rfl | rfl | rfl <;> rfl

theorem Restates.compile (restates : Restates tree other) : tree.compile = other.compile := by
  induction restates with
  | number text => rfl
  | string text => rfl
  | bool text => rfl
  | array values ih =>
      rw [compile_alternative _ _ (by decide), TokenGrammar.Json.compile_alternative _ _ (by decide)]
      simp only [ValueKind.ofField, Json.compileKind_array, compileAll_congr ih]
  | dict values ih =>
      rw [compile_alternative _ _ (by decide), TokenGrammar.Json.compile_alternative _ _ (by decide)]
      simp only [ValueKind.ofField, Json.compileKind_object, compileEach_congr ih]

/-! The rules of simplified JSON, compiled, and what their parsers match. -/

def pairRule : Descriptor :=
  ⟨"Pair", .seq, [field "key" 0 .token .single [.ofType "string"],
    field "colon" 1 .mark .single [.ofValue "op" ":"],
    field "value" 2 (.rule "Sjson") .single []], none, .anyToken⟩

def valueRule : Descriptor :=
  ⟨"Sjson", .oneOf, [field "number" 0 .token .optional [.ofType "number"],
    field "string" 1 .token .optional [.ofType "string"],
    field "boolean" 2 .token .optional [.ofType "bool"],
    field "list" 3 (.rule "List") .optional [], field "object" 4 (.rule "Object") .optional []],
    none, .anyToken⟩

theorem find_list : grammar.find? "List" = some (.ok (containerRule "List" "Sjson" "[" "]")) := rfl

theorem find_object :
    grammar.find? "Object" = some (.ok (containerRule "Object" "Pair" "\x7b" "\x7d")) := rfl

theorem find_pair : grammar.find? "Pair" = some (.ok pairRule) := rfl

theorem find_value : grammar.find? "Sjson" = some (.ok valueRule) := rfl

theorem bare_pairRule : Bare (.ofRule pairRule) := ⟨rfl, rfl⟩

variable {depth : Nat} {start next : Cursor}

theorem token_matched {content : String → Constraint → Parser Tree}
    (matched : Matches (contentParser content .token ⟨[.ofType type]⟩) start tree next) :
    ∃ text, tree = .token (.ordinary type text) ∧ start.Consumes [.ordinary type text] next := by
  obtain ⟨token, accepts, consumes, rfl⟩ := (token_matches rfl).mp matched
  obtain ⟨text, rfl⟩ := TokenPattern.ofType_accepts.mp accepts
  exact ⟨text, rfl, consumes⟩

theorem pair_matched
    (reads : ∀ {start next tree},
      Matches (grammar.ruleParser (depth - 1) "Sjson" .anyToken) start tree next →
        ∃ other, Restates tree other ∧ start.Consumes (flatten other) next)
    (matched : Matches (grammar.ruleParser depth "Pair" .anyToken) start tree next) :
    ∃ entry : String × Tree × Tree, (tree = member (.ordinary "string" entry.1) entry.2.1 ∧
      Restates entry.2.1 entry.2.2) ∧
      start.Consumes (flatten (Json.member (.ordinary "string" entry.1) entry.2.2)) next := by
  obtain ⟨below, slots, rfl, whole, rfl⟩ := (ruleParser_matches find_pair rfl).mp matched
  obtain ⟨_, afterKey, _, own, later, rfl⟩ :=
    (sequence_matches_single bare_pairRule rfl).mp ((body_matches_sequence rfl).mp whole)
  obtain ⟨text, rfl, key⟩ := token_matched own
  obtain ⟨_, afterColon, _, colons, last, rfl⟩ :=
    (sequence_matches_single bare_pairRule rfl).mp later
  obtain ⟨_, accepts, colon, rfl⟩ := (mark_matches rfl).mp colons
  cases TokenPattern.ofValue_accepts.mp accepts
  obtain ⟨value, _, _, held, done, rfl⟩ := (sequence_matches_single bare_pairRule rfl).mp last
  obtain ⟨_, rfl, rfl⟩ := sequence_matches_nil.mp done
  obtain ⟨other, restates, consumes⟩ := reads held
  refine ⟨(text, value, other), ⟨rfl, restates⟩, ?_⟩
  rw [Json.flatten_member]
  exact (key.trans colon).trans consumes

theorem value_matched (matched : Matches (grammar.ruleParser depth "Sjson" .anyToken) start tree next) :
    ∃ below field inner, depth = below + 1 ∧ field ∈ valueRule.fields ∧
      Matches (contentParser (grammar.ruleParser below) field.symbol field.tokens) start inner next ∧
      tree = alternative field.name inner := by
  obtain ⟨below, field, inner, rfl, member, own, rfl⟩ := ruleParser_matched_choice find_value rfl rfl rfl
    (by decide) (by decide) matched
  exact ⟨below, field, inner, rfl, member, own, rfl⟩

theorem restates_of_matches
    (matched : Matches (grammar.ruleParser depth "Sjson" .anyToken) start tree next) :
    ∃ other, Restates tree other ∧ start.Consumes (flatten other) next := by
  -- The items of a list are matched two rules further down, the values of an object three.
  induction depth using Nat.strongRecOn generalizing start next tree with
  | _ depth ih =>
      obtain ⟨below, field, inner, rfl, alternative, own, rfl⟩ := value_matched matched
      simp only [valueRule, List.mem_cons, List.not_mem_nil, or_false] at alternative
      rcases alternative with rfl | rfl | rfl | rfl | rfl
      · obtain ⟨text, rfl, consumes⟩ := token_matched own
        exact ⟨_, .number text, consumes⟩
      · obtain ⟨text, rfl, consumes⟩ := token_matched own
        exact ⟨_, .string text, consumes⟩
      · obtain ⟨text, rfl, consumes⟩ := token_matched own
        exact ⟨_, .bool text, consumes⟩
      · cases below with
        | zero => cases own
        | succ below =>
            obtain ⟨items, rfl, values, consumes⟩ := Json.container_matched find_list rfl
              (fun matched => ih below (by omega) matched) own
            refine ⟨_, .array values, ?_⟩
            rw [Json.flatten_alternative "array" _ (by decide), Json.flatten_array, List.map_map]
            exact consumes
      · cases below with
        | zero => cases own
        | succ below =>
            obtain ⟨items, rfl, values, consumes⟩ := Json.container_matched find_object rfl
              (pair_matched fun matched => ih (below - 1) (by omega) matched) own
            let build := fun entry : String × Tree × Tree =>
              member (.ordinary "string" entry.1) entry.2.1
            rw [map_fst_eq build fun entry held => (values entry held).1]
            refine ⟨_, .dict (forall_map_snd fun entry held => (values entry held).2), ?_⟩
            rw [Json.flatten_alternative "dict" _ (by decide), Json.flatten_dict, List.map_map,
              List.map_map]
            exact consumes

end TokenGrammar.Language.Sjson
