import Mathlib.Data.List.Nodup
import TokenGrammar.Proofs.Language.Evaluation
import TokenGrammar.Proofs.Language.Separation
import TokenGrammar.Proofs.Language.Sjson.Agreement

namespace TokenGrammar.Language

/-! # What becomes of a document

Each part of a document that has a value becomes a value of its own kind, except for numbers that are too
large. -/

open Node
open Language.Json (op flatten)

namespace Visit

/-- What a scalar is kept as. -/
inductive Keeps : Visit → JsonValue → Prop
  | number (finite : Binary64.ofText? token.value.toList = some (.finite negative mantissa exponent)) :
      Keeps (.number token) (.number (.finite negative mantissa exponent))
  | string (decoded : TokenGrammar.Json.unquote? token.value = some text) :
      Keeps (.string token) (.string text)
  | null : Keeps .null .null
  | bool (written : token.value = toString flag) : Keeps (.bool token) (.bool flag)

/-- A number that rounds to an infinity. -/
def TooLarge : Visit → Prop
  | number token => ∃ negative, Binary64.ofText? token.value.toList = some (.infinite negative)
  | _ => False

/-- A number that is too large is lost, and all else is kept. -/
def Leaves (visit : Visit) (value : JsonValue) : Prop :=
  visit.Keeps value ∨ visit.TooLarge ∧ value = .null

theorem Keeps.not_tooLarge {visit : Visit} {value : JsonValue} (keeps : visit.Keeps value) :
    ¬ visit.TooLarge := by
  cases keeps with
  | number finite => simp [TooLarge, finite]
  | string | null | bool => exact id

end Visit

namespace Node

section Walk

variable {visit : Visit} {nodes : List (Node Null)} {items : List (Token × Node Null)}

theorem mem_visitsAll : visit ∈ visitsAll nodes ↔ ∃ node ∈ nodes, visit ∈ node.visits := by
  induction nodes with
  | nil => simp [visitsAll]
  | cons node nodes ih => simp [visitsAll, ih]

theorem mem_visitsEach : visit ∈ visitsEach items ↔
    ∃ item ∈ items, visit = .string item.1 ∨ visit ∈ item.2.visits := by
  induction items with
  | nil => simp [visitsEach]
  | cons item items ih => simp [visitsEach, ih, or_assoc]

variable {leaf other : Visit → JsonValue → Prop}

mutual

theorem Means.imp : ∀ {node : Node Null} {value : JsonValue},
    (∀ visit ∈ node.visits, ∀ value, leaf visit value → other visit value) →
    Means leaf node value → Means other node value
  | _, _, each, .number holds => .number (each _ (by simp [visits]) _ holds)
  | _, _, each, .string holds => .string (each _ (by simp [visits]) _ holds)
  | _, _, each, .null holds => .null (each _ (by simp [visits]) _ holds)
  | _, _, each, .bool holds => .bool (each _ (by simp [visits]) _ holds)
  | _, _, each, .array means => .array (means.imp (by simpa only [visits] using each))
  | _, _, each, .object means ordered last =>
    .object (means.imp (by simpa only [visits] using each)) ordered last

theorem MeansAll.imp : ∀ {nodes : List (Node Null)} {values : List JsonValue},
    (∀ visit ∈ visitsAll nodes, ∀ value, leaf visit value → other visit value) →
    MeansAll leaf nodes values → MeansAll other nodes values
  | _, _, _, .nil => .nil
  | _, _, each, .cons first later =>
    .cons (first.imp fun visit member => each visit (by simp [visitsAll, member]))
      (later.imp fun visit member => each visit (by simp [visitsAll, member]))

theorem MeansEach.imp : ∀ {items : List (Token × Node Null)} {entries : List (String × JsonValue)},
    (∀ visit ∈ visitsEach items, ∀ value, leaf visit value → other visit value) →
    MeansEach leaf items entries → MeansEach other items entries
  | _, _, _, .nil => .nil
  | _, _, each, .cons decoded first later =>
    .cons decoded (first.imp fun visit member => each visit (by simp [visitsEach, member]))
      (later.imp fun visit member => each visit (by simp [visitsEach, member]))

end

mutual

/-- No number is passed over. -/
theorem Means.number_mem : ∀ {node : Node Null} {value : JsonValue}, Means leaf node value →
    ∀ token, .number token ∈ node.visits → ∃ value, leaf (.number token) value
  | _, _, .number holds, token, member => by
    cases List.mem_singleton.mp (by simpa only [visits] using member)
    exact ⟨_, holds⟩
  | _, _, .string _, _, member => by simp [visits] at member
  | _, _, .null _, _, member => by simp [visits] at member
  | _, _, .bool _, _, member => by simp [visits] at member
  | _, _, .array means, token, member => means.number_mem token (by simpa only [visits] using member)
  | _, _, .object means _ _, token, member => means.number_mem token (by simpa only [visits] using member)

theorem MeansAll.number_mem : ∀ {nodes : List (Node Null)} {values : List JsonValue},
    MeansAll leaf nodes values →
    ∀ token, .number token ∈ visitsAll nodes → ∃ value, leaf (.number token) value
  | _, _, .nil, _, member => by simp [visitsAll] at member
  | _, _, .cons first later, token, member => by
    rw [visitsAll, List.mem_append] at member
    exact member.elim (first.number_mem token) (later.number_mem token)

theorem MeansEach.number_mem : ∀ {items : List (Token × Node Null)}
    {entries : List (String × JsonValue)}, MeansEach leaf items entries →
    ∀ token, .number token ∈ visitsEach items → ∃ value, leaf (.number token) value
  | _, _, .nil, _, member => by simp [visitsEach] at member
  | _, _, .cons _ first later, token, member => by
    simp only [visitsEach, List.mem_cons, reduceCtorEq, false_or, List.mem_append] at member
    exact member.elim (first.number_mem token) (later.number_mem token)

end

end Walk

/-- A node that has been parsed. It has one alternative. -/
inductive Parsed : Node Null → Prop
  | number (literal : TokenGrammar.Json.Literal) :
      Parsed (.mk (some (.ordinary "number" (String.ofList literal.text))) none none none none none)
  | string (text : String) : Parsed (.mk none (some (.ordinary "string" text)) none none none none)
  | null (word : Null) : Parsed (.mk none none (some word) none none none)
  | bool (text : String) : Parsed (.mk none none none (some (.ordinary "bool" text)) none none)
  | array (each : ∀ node ∈ nodes, Parsed node) : Parsed (.mk none none none none (some nodes) none)
  | object {items : List (Token × Node Null)} (each : ∀ item ∈ items, Parsed item.2) :
      Parsed (.mk none none none none none (some items))

theorem Parsed.literal {node : Node Null} (parsed : Parsed node) (member : .number token ∈ node.visits) :
    ∃ literal : TokenGrammar.Json.Literal, token.value.toList = literal.text := by
  induction parsed with
  | number literal =>
      simp only [visits, List.mem_singleton, Visit.number.injEq] at member
      exact ⟨literal, by simp [member, Token.value]⟩
  | string | null | bool => simp [visits] at member
  | array each ih =>
      rw [visits, mem_visitsAll] at member
      obtain ⟨node, inside, member⟩ := member
      exact ih node inside member
  | object each ih =>
      rw [visits, mem_visitsEach] at member
      obtain ⟨item, inside, own | member⟩ := member
      · cases own
      · exact ih item inside member

end Node

namespace Visit

/-- Where a number stands, its token is the text of one. -/
def Numeric (visit : Visit) : Prop :=
  ∀ token, visit = .number token → ∃ literal : TokenGrammar.Json.Literal, token.value.toList = literal.text

variable {visit : Visit} {rule : String} {value : JsonValue}

theorem Leaves.of_converts (converts : visit.Converts rule value) (numeric : visit.Numeric) :
    visit.Leaves value := by
  cases visit with
  | number token =>
      obtain ⟨literal, written⟩ := numeric token rfl
      obtain ⟨number, converted, isNumber⟩ := literal.converts
      rw [← written] at converted
      simp only [Converts, Visit.value, Token.numberValue, converted] at converts
      cases converts
      cases number with
      | finite => exact .inl (.number converted)
      | infinite negative => exact .inr ⟨⟨negative, converted⟩, rfl⟩
      | notANumber => exact absurd rfl isNumber
  | string token =>
      obtain ⟨text, decoded, same⟩ := Except.ok_of_bind_ok converts
      cases same
      unfold Token.stringValue at decoded
      split at decoded
      · cases decoded
        exact .inl (.string ‹_›)
      · cases decoded
  | null =>
      cases converts
      exact .inl .null
  | bool token =>
      simp only [Converts, Visit.value, Token.boolValue] at converts
      split at converts
      · cases converts
        exact .inl (.bool ‹_›)
      · split at converts
        · cases converts
          exact .inl (.bool ‹_›)
        · cases converts
  | vacant => cases converts

/-- No number is called invalid, however large it is. -/
theorem Numeric.fault (numeric : visit.Numeric) (text : String) :
    visit.fault? rule ≠ some (.invalidNumber text) := by
  unfold fault?
  cases visit with
  | number token =>
      obtain ⟨literal, written⟩ := numeric token rfl
      obtain ⟨number, converted, _⟩ := literal.converts
      rw [← written] at converted
      simp [Visit.value, Token.numberValue, converted]
  | string token =>
      cases decoded : TokenGrammar.Json.unquote? token.value <;>
        simp [Visit.value, Token.stringValue, decoded, bind, Except.bind, pure, Except.pure]
  | null => simp [Visit.value, pure, Except.pure]
  | bool token =>
      by_cases yes : token.value = "true"
      · simp [Visit.value, Token.boolValue, yes]
      · by_cases no : token.value = "false" <;> simp [Visit.value, Token.boolValue, yes, no]
  | vacant => simp [Visit.value]

end Visit

/-- A document is the tree of a node with one alternative everywhere. Its value has the parts of the node,
unless a number is too large. No number is called invalid. -/
structure Dialect.Preserves (dialect : Dialect Null) (node : Node Null) (document : Document) : Prop where
  tree : document.tree = dialect.tree node
  parsed : node.Parsed
  leaves : ∀ value, document.compile = .ok value → node.Means Visit.Leaves value
  keeps_iff : ∀ value, document.compile = .ok value →
    (node.Means Visit.Keeps value ↔ ∀ visit ∈ node.visits, ¬ visit.TooLarge)
  valid : ∀ text, document.compile ≠ .error (.invalidNumber text)

theorem Node.Means.keeps_iff {node : Node Null} (means : node.Means Visit.Leaves value) :
    node.Means Visit.Keeps value ↔ ∀ visit ∈ node.visits, ¬ visit.TooLarge := by
  constructor
  · intro keeps visit member tooLarge
    cases visit with
    | number token =>
        obtain ⟨value, kept⟩ := keeps.number_mem token member
        exact kept.not_tooLarge tooLarge
    | _ => exact tooLarge
  · intro small
    exact means.imp fun visit member value leaves =>
      leaves.resolve_right fun lost => small visit member lost.1

theorem Dialect.preserves (dialect : Dialect Null) {node : Node Null} (parsed : node.Parsed)
    {document : Document} (tree : document.tree = dialect.tree node)
    (compile : document.compile = document.tree.compile) : dialect.Preserves node document := by
  have numeric : ∀ visit ∈ node.visits, visit.Numeric := by
    rintro _ member token rfl
    exact parsed.literal member
  have evaluates := dialect.evaluates node
  rw [tree] at compile
  have leaves (value : JsonValue) (compiled : document.compile = .ok value) :
      node.Means Visit.Leaves value :=
    (evaluates.means value (compile.symm.trans compiled)).imp fun visit member value converts =>
      .of_converts converts (numeric visit member)
  refine ⟨tree, parsed, leaves, fun value compiled => (leaves value compiled).keeps_iff, fun text failed => ?_⟩
  rw [compile, evaluates.fails, List.findSome?_eq_some_iff] at failed
  obtain ⟨_, visit, _, split, fault, _⟩ := failed
  exact (numeric visit (by simp [split])).fault text fault

section Parsed

variable (dialect : Dialect Null)

theorem exists_trees {trees : List Tree}
    (each : ∀ tree ∈ trees, ∃ node : Node Null, node.Parsed ∧ dialect.tree node = tree) :
    ∃ nodes, (∀ node ∈ nodes, Parsed node) ∧ dialect.trees nodes = trees := by
  induction trees with
  | nil => exact ⟨[], by simp, rfl⟩
  | cons tree trees ih =>
      obtain ⟨node, parsed, same⟩ := each tree (by simp)
      obtain ⟨nodes, others, rest⟩ := ih fun other member => each other (by simp [member])
      exact ⟨node :: nodes, List.forall_mem_cons.mpr ⟨parsed, others⟩, by rw [Dialect.trees, same, rest]⟩

theorem exists_members {entries : List (String × Tree)}
    (each : ∀ entry ∈ entries, ∃ node : Node Null, node.Parsed ∧ dialect.tree node = entry.2) :
    ∃ items, (∀ item ∈ items, Parsed item.2) ∧ dialect.members items =
      entries.map fun entry => dialect.member (.ordinary "string" entry.1) entry.2 := by
  induction entries with
  | nil => exact ⟨[], by simp, rfl⟩
  | cons entry entries ih =>
      obtain ⟨node, parsed, same⟩ := each entry (by simp)
      obtain ⟨items, others, rest⟩ := ih fun other member => each other (by simp [member])
      exact ⟨(.ordinary "string" entry.1, node) :: items, List.forall_mem_cons.mpr ⟨parsed, others⟩,
        by rw [Dialect.members, same, rest, List.map_cons]⟩

end Parsed

/-- The number tokens among some tokens have the texts of numbers. -/
def Numeric (tokens : List Token) : Prop :=
  ∀ text, Token.ordinary "number" text ∈ tokens →
    ∃ literal : TokenGrammar.Json.Literal, text = String.ofList literal.text

theorem Numeric.part {part : List Token} {parts : List (List Token)} {opening closing comma : Token}
    (numeric : Numeric (opening :: (Parser.separated comma parts ++ [closing]))) (member : part ∈ parts) :
    Numeric part := by
  intro text inside
  refine numeric text (List.mem_cons_of_mem _ (List.mem_append_left _ ?_))
  cases parts with
  | nil => cases member
  | cons first rest =>
      simp only [Parser.separated, List.mem_append, List.mem_flatMap, List.mem_cons]
      rcases List.mem_cons.mp member with rfl | member
      · exact .inl inside
      · exact .inr ⟨part, member, .inr inside⟩

theorem json_node (wellFormed : Json.WellFormed tree) (numeric : Numeric (flatten tree)) :
    ∃ node : Node Token, node.Parsed ∧ Dialect.json.tree node = tree := by
  induction wellFormed with
  | number text =>
      rw [Json.flatten_alternative _ _ (by decide), Json.flatten_scalar] at numeric
      obtain ⟨literal, rfl⟩ := numeric text (by simp)
      exact ⟨_, .number literal, rfl⟩
  | string text => exact ⟨_, .string text, rfl⟩
  | null => exact ⟨_, .null (.ordinary "null" "null"), rfl⟩
  | bool text => exact ⟨_, .bool text, rfl⟩
  | @array items _ ih =>
      rw [Json.flatten_alternative _ _ (by decide), Json.flatten_array] at numeric
      obtain ⟨nodes, parsed, rfl⟩ := exists_trees Dialect.json fun item member =>
        ih item member (numeric.part (List.mem_map_of_mem member))
      exact ⟨_, .array parsed, rfl⟩
  | @dict members _ ih =>
      rw [Json.flatten_alternative _ _ (by decide), Json.flatten_dict] at numeric
      obtain ⟨items, parsed, same⟩ := exists_members Dialect.json fun entry member => by
        have own := numeric.part (List.mem_map_of_mem (List.mem_map_of_mem member))
        rw [Json.flatten_member] at own
        exact ih entry member fun text inside => own text (by simp [inside])
      refine ⟨_, .object parsed, ?_⟩
      rw [Dialect.tree, Dialect.objects, same]
      rfl

theorem sjson_node (restates : Sjson.Restates tree other) (numeric : Numeric (flatten other)) :
    ∃ node : Node Empty, node.Parsed ∧ Dialect.sjson.tree node = tree := by
  induction restates with
  | number text =>
      rw [Json.flatten_alternative _ _ (by decide), Json.flatten_scalar] at numeric
      obtain ⟨literal, rfl⟩ := numeric text (by simp)
      exact ⟨_, .number literal, rfl⟩
  | string text => exact ⟨_, .string text, rfl⟩
  | bool text => exact ⟨_, .bool text, rfl⟩
  | @array items _ ih =>
      rw [Json.flatten_alternative _ _ (by decide), Json.flatten_array] at numeric
      obtain ⟨nodes, parsed, same⟩ := @exists_trees _ Dialect.sjson (items.map (·.1)) (by
        rw [List.forall_mem_map]
        exact fun item member =>
          ih item member (numeric.part (List.mem_map_of_mem (List.mem_map_of_mem member))))
      refine ⟨_, .array parsed, ?_⟩
      rw [Dialect.tree, Dialect.arrays, same]
      rfl
  | @dict members _ ih =>
      rw [Json.flatten_alternative _ _ (by decide), Json.flatten_dict] at numeric
      obtain ⟨items, parsed, same⟩ := @exists_members _ Dialect.sjson
        (members.map fun entry => (entry.1, entry.2.1)) (by
        rw [List.forall_mem_map]
        intro entry member
        have own := numeric.part (List.mem_map_of_mem (List.mem_map_of_mem member))
        rw [Json.flatten_member] at own
        exact ih entry member fun text inside => own text (by simp [inside]))
      refine ⟨_, .object parsed, ?_⟩
      rw [Dialect.tree, Dialect.objects, same, List.map_map]
      rfl

theorem Kind.isNumber_of_cut {kinds : List Kind} (distinct : (kinds.map (·.name)).Nodup)
    (known : Kind.number ∈ kinds)
    (next : Lexer.cutter (table kinds) text = some (some "number", taken)) : Sjson.IsNumber taken := by
  obtain ⟨kind, member, called, word⟩ := word_of_cut next
  obtain rfl : kind = Kind.number := List.inj_on_of_nodup_map distinct member known called
  exact word

theorem literal_of_cut {language : Language} (next : language.cut text = some (some "number", taken)) :
    ∃ literal : TokenGrammar.Json.Literal, literal.text = taken := by
  cases language with
  | json =>
      have word := TokenGrammar.Json.word_of_cut next
      generalize called : "number" = type at word
      cases word with
      | number literal => exact ⟨literal, rfl⟩
      | _ => simp at called
  | sexpr =>
      have isNumber := Kind.isNumber_of_cut (by decide) (by simp [Sexpr.kinds]) next
      exact isNumber.imp fun _ => And.right
  | sjson =>
      have isNumber := Kind.isNumber_of_cut (by decide) (by simp [Sjson.kinds]) next
      exact isNumber.imp fun _ => And.right

theorem numeric_of_tokenise {language : Language} {source : String}
    (read : language.tokenise source = .ok tokens) : Numeric tokens := by
  have cuts := language.tokenise_iff_cuts.mp read
  have each := cuts.forall_token (fun token => token.type = "number" →
      ∃ literal : TokenGrammar.Json.Literal, token.value = String.ofList literal.text) (by
    rintro _ taken rest next rfl
    obtain ⟨literal, rfl⟩ := literal_of_cut next
    exact ⟨literal, rfl⟩)
  exact fun text member => each _ member rfl

/-- What is read becomes a value part by part if and only if no number in it is too large: a number that
number, a string that string, an array one of the same length, and an object one with the last item of each
key. A number that is too large becomes `null`, and it is never called invalid. -/
theorem read_preserves (options : ParseOptions) (source : String) :
    (∀ document, (json.read options source).result = .ok document →
      ∃ node, Dialect.json.Preserves node document) ∧
    ∀ document, (sjson.read options source).result = .ok document →
      ∃ node, Dialect.sjson.Preserves node document := by
  constructor
  · intro document read
    obtain ⟨tokens, tree, next, cut, matched, rfl⟩ := read_ok_iff.mp read
    obtain ⟨wellFormed, consumes⟩ := Json.wellFormed_of_matches (Json.parse_matches.mp matched).1
    have split : tokens = flatten tree ++ next.rest := consumes.rest
    have numeric : Numeric (flatten tree) := fun text member =>
      numeric_of_tokenise cut text (by simp [split, member])
    obtain ⟨node, parsed, same⟩ := json_node wellFormed numeric
    exact ⟨node, Dialect.json.preserves parsed same.symm rfl⟩
  · intro document read
    obtain ⟨tokens, tree, next, cut, matched, rfl⟩ := read_ok_iff.mp read
    obtain ⟨other, restates, consumes, _⟩ := Sjson.parse_matches matched
    have split : tokens = flatten other ++ next.rest := consumes.rest
    have numeric : Numeric (flatten other) := fun text member =>
      numeric_of_tokenise cut text (by simp [split, member])
    obtain ⟨node, parsed, same⟩ := sjson_node restates numeric
    exact ⟨node, Dialect.sjson.preserves parsed same.symm rfl⟩

theorem numberValue_tooLarge (type : String) : (Token.ordinary type "1e999").numberValue = .ok .null := by
  have converted : Binary64.ofText? "1e999".toList = some (.infinite false) := by decide +kernel
  rw [Token.numberValue, Token.value, converted]
  rfl

/-- A number and the word `null`, which cannot be told apart in the value, and a text of simplified JSON in
which nothing is lost. -/
theorem read_preserves_tooLarge :
    (∃ document, (json.read ⟨true, false⟩ "[1e999,null]").result = .ok document ∧
      (∃ node, Dialect.json.Preserves node document) ∧
      document.compile = .ok (.array [.null, .null])) ∧
    ∃ document, (sjson.read ⟨true, false⟩ "[true]").result = .ok document ∧
      (∃ node, Dialect.sjson.Preserves node document) ∧
      document.compile = .ok (.array [.bool true]) := by
  constructor
  · let number := Token.ordinary "number" "1e999"
    let null := Token.ordinary "null" "null"
    let tokens := [op "[", number, op ",", null, op "]"]
    let tree := Json.alternative "array" (Json.container "Array"
      [Json.alternative "number" (Json.scalar "Number" number),
        Json.alternative "null" (Json.scalar "Null" null)])
    have cut : json.tokenise "[1e999,null]" = .ok tokens := by decide +kernel
    have matched : Parser.Matches (json.parse true) (.start tokens) tree ⟨5, []⟩ := by
      unfold Parser.Matches
      decide +kernel
    have read : (json.read ⟨true, false⟩ "[1e999,null]").result = .ok ⟨json, tree⟩ :=
      read_ok_iff.mpr ⟨tokens, tree, ⟨5, []⟩, cut, matched, rfl⟩
    have lost : (Json.alternative "number" (Json.scalar "Number" number)).compile = .ok .null :=
      numberValue_tooLarge "number"
    refine ⟨_, read, (read_preserves _ _).1 _ read, TokenGrammar.Json.compile_array ?_⟩
    rw [Tree.compileAll, lost]
    rfl
  · let truth := Token.ordinary "bool" "true"
    let tokens := [op "[", truth, op "]"]
    let tree := Dialect.sjson.tree <|
      .mk none none none none (some [.mk none none none (some truth) none none]) none
    have cut : sjson.tokenise "[true]" = .ok tokens := by decide +kernel
    have matched : Parser.Matches (sjson.parse true) (.start tokens) tree ⟨3, []⟩ := by
      unfold Parser.Matches
      decide +kernel
    have read : (sjson.read ⟨true, false⟩ "[true]").result = .ok ⟨sjson, tree⟩ :=
      read_ok_iff.mpr ⟨tokens, tree, ⟨3, []⟩, cut, matched, rfl⟩
    exact ⟨_, read, (read_preserves _ _).2 _ read, rfl⟩

/-- A number that is too large is read without an error, and what it becomes is no number. -/
theorem read_tooLarge :
    ∃ document, (json.read ⟨true, false⟩ "1e999").result = .ok document ∧
      document.tree = Dialect.json.tree
        (.mk (some (.ordinary "number" "1e999")) none none none none none) ∧
      document.compile = .ok .null := by
  let tree := Json.alternative "number" (Json.scalar "Number" (.ordinary "number" "1e999"))
  have cut : json.tokenise "1e999" = .ok [.ordinary "number" "1e999"] := by decide +kernel
  have matched := Json.parse_flatten (.number "1e999")
  have read : (json.read ⟨true, false⟩ "1e999").result = .ok ⟨json, tree⟩ :=
    read_ok_iff.mpr ⟨_, tree, _, cut, matched, rfl⟩
  exact ⟨_, read, rfl, numberValue_tooLarge "number"⟩

end TokenGrammar.Language
