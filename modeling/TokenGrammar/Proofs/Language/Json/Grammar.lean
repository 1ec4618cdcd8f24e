import TokenGrammar.Language.Document
import TokenGrammar.Proofs.Language.Json.Tree

namespace TokenGrammar

namespace Language.Json

open TokenGrammar.Parser TokenGrammar.Grammar

/-! The rules of JSON, compiled, and what their parsers match. -/

def grammar : Grammar := Language.json.grammar

def field (name : String) (index : Nat) (symbol : Symbol) (cardinality : Cardinality)
    (patterns : List TokenPattern) : FieldDescriptor :=
  ⟨name, index, symbol, cardinality, ⟨patterns⟩, .unbounded, ⟨[]⟩⟩

def scalarRule (name : String) (pattern : TokenPattern) : Descriptor :=
  ⟨name, .seq, [field "value" 0 .token .single [pattern]], none, .anyToken⟩

def itemsField (item : String) : FieldDescriptor :=
  ⟨"items", 1, .rule item, .repeated, .anyToken, .unbounded, ⟨[.ofValue "op" ","]⟩⟩

def containerRule (name item opening closing : String) : Descriptor :=
  ⟨name, .seq, [field "open" 0 .mark .single [.ofValue "op" opening], itemsField item,
    field "close" 2 .mark .single [.ofValue "op" closing]], none, .anyToken⟩

def memberRule : Descriptor :=
  ⟨"DictItem", .seq, [field "key" 0 (.rule "Str") .single [],
    field "colon" 1 .mark .single [.ofValue "op" ":"],
    field "value" 2 (.rule "Json") .single []], none, .anyToken⟩

def valueRule : Descriptor :=
  ⟨"Json", .oneOf, [field "number" 0 (.rule "Number") .optional [],
    field "string" 1 (.rule "Str") .optional [], field "null" 2 (.rule "Null") .optional [],
    field "boolean" 3 (.rule "Bool") .optional [], field "array" 4 (.rule "Array") .optional [],
    field "dict" 5 (.rule "Dict") .optional []], none, .anyToken⟩

theorem find_number :
    grammar.find? "Number" = some (.ok (scalarRule "Number" (.ofType "number"))) := rfl

theorem find_str : grammar.find? "Str" = some (.ok (scalarRule "Str" (.ofType "string"))) := rfl

theorem find_null :
    grammar.find? "Null" = some (.ok (scalarRule "Null" (.ofValue "null" "null"))) := rfl

theorem find_bool : grammar.find? "Bool" = some (.ok (scalarRule "Bool" (.ofType "bool"))) := rfl

theorem find_array :
    grammar.find? "Array" = some (.ok (containerRule "Array" "Json" "[" "]")) := rfl

theorem find_dict :
    grammar.find? "Dict" = some (.ok (containerRule "Dict" "DictItem" "\x7b" "\x7d")) := rfl

theorem find_member : grammar.find? "DictItem" = some (.ok memberRule) := rfl

theorem find_value : grammar.find? "Json" = some (.ok valueRule) := rfl

theorem bare_scalarRule (name : String) (pattern : TokenPattern) :
    Bare (.ofRule (scalarRule name pattern)) := ⟨rfl, rfl⟩

theorem bare_containerRule (name item opening closing : String) :
    Bare (.ofRule (containerRule name item opening closing)) := ⟨rfl, rfl⟩

theorem bare_memberRule : Bare (.ofRule memberRule) := ⟨rfl, rfl⟩

variable {name : String} {depth : Nat} {start next : Cursor} {tree : Tree}

theorem op_accepts {text : String} {token : Token} :
    (TokenPattern.ofValue "op" text).accepts token = true ↔ token = op text :=
  TokenPattern.ofValue_accepts

theorem scalar_matches {pattern : TokenPattern} (consuming : pattern.lookahead = false)
    (found : grammar.find? name = some (.ok (scalarRule name pattern))) :
    Matches (grammar.ruleParser depth name .anyToken) start tree next ↔
      0 < depth ∧ ∃ token, pattern.accepts token = true ∧ start.Consumes [token] next ∧
        tree = scalar name token := by
  have bare := bare_scalarRule name pattern
  rw [ruleParser_matches found rfl]
  constructor
  · rintro ⟨below, slots, rfl, matched, rfl⟩
    obtain ⟨value, middle, more, own, rest, rfl⟩ :=
      (sequence_matches_single bare rfl).mp ((body_matches_sequence rfl).mp matched)
    obtain ⟨token, accepts, consumes, rfl⟩ := (token_matches consuming).mp own
    obtain ⟨_, rfl, rfl⟩ := sequence_matches_nil.mp rest
    exact ⟨below.succ_pos, token, accepts, consumes, rfl⟩
  · rintro ⟨positive, token, accepts, consumes, rfl⟩
    refine ⟨depth - 1, _, by omega, (body_matches_sequence rfl).mpr ?_, rfl⟩
    exact (sequence_matches_single bare rfl).mpr ⟨_, next, [],
      (token_matches consuming).mpr ⟨token, accepts, consumes, rfl⟩,
      sequence_matches_nil.mpr ⟨by simp, rfl, rfl⟩, rfl⟩

theorem scalar_fails {pattern : TokenPattern}
    (found : grammar.find? name = some (.ok (scalarRule name pattern)))
    (refused : pattern.accepts start.peek = false) :
    Fails (grammar.ruleParser (depth + 1) name .anyToken) start :=
  ruleParser_fails found rfl <| (body_fails_sequence rfl).mpr <|
    sequence_fails_single (bare_scalarRule name pattern) rfl (token_fails refused)

/-! A container holds items of a rule, separated by commas. -/

section Container

variable {rules : Grammar} {item opening closing : String}
  (found : rules.find? name = some (.ok (containerRule name item opening closing)))
  (made : rules.hasDefault name = true)

include found made

theorem container_fails (refused : (TokenPattern.ofValue "op" opening).accepts start.peek = false) :
    Fails (rules.ruleParser (depth + 1) name .anyToken) start := by
  refine ruleParser_fails found made ((body_fails_sequence rfl).mpr ?_)
  exact sequence_fails_single (bare_containerRule name item opening closing) rfl
    (mark_fails refused)

theorem container_matched {good : Tree → α → Prop} {write : α → List Token}
    (reads : ∀ {start next tree}, Matches (rules.ruleParser depth item .anyToken) start tree next →
      ∃ source, good tree source ∧ start.Consumes (write source) next)
    (matched : Matches (rules.ruleParser (depth + 1) name .anyToken) start tree next) :
    ∃ items : List (Tree × α), tree = container name (items.map (·.1)) ∧
      (∀ entry ∈ items, good entry.1 entry.2) ∧
      start.Consumes (op opening ::
        (separated (op ",") (items.map fun entry => write entry.2) ++ [op closing])) next := by
  have bare := bare_containerRule name item opening closing
  obtain ⟨_, slots, same, whole, rfl⟩ := (ruleParser_matches found made).mp matched
  cases same
  obtain ⟨_, afterOpening, _, opens, later, rfl⟩ :=
    (sequence_matches_single bare rfl).mp ((body_matches_sequence rfl).mp whole)
  obtain ⟨_, accepts, opened, rfl⟩ := (mark_matches rfl).mp opens
  cases op_accepts.mp accepts
  obtain ⟨trees, afterItems, _, between, last, rfl⟩ := sequence_matches_cons.mp later
  obtain ⟨_, journal, error, repeats⟩ := repeated_matched between
  obtain ⟨items, rfl, values, held⟩ := repeats.consumes_separated bare rfl rfl
    (fun _ => op_accepts) reads
  obtain ⟨_, _, _, closes, done, rfl⟩ := (sequence_matches_single bare rfl).mp last
  obtain ⟨_, accepts, closed, rfl⟩ := (mark_matches rfl).mp closes
  cases op_accepts.mp accepts
  obtain ⟨_, rfl, rfl⟩ := sequence_matches_nil.mp done
  exact ⟨items, rfl, values, by simpa using (opened.trans held).trans closed⟩

/-- A container matches if its items do, and none does at its end. -/
theorem container_of_consumes {items : List Tree}
    (reads : ∀ tree ∈ items, ∀ {start next}, start.Consumes (flatten tree) next →
      Matches (rules.ruleParser depth item .anyToken) start tree next)
    (present : ∀ tree ∈ items, flatten tree ≠ [])
    (ends : ∀ {stop : Cursor}, stop.peek = op closing →
      Fails (rules.ruleParser depth item .anyToken) stop)
    (apart : op closing ≠ op ",")
    (consumes : start.Consumes
      (op opening :: (separated (op ",") (items.map flatten) ++ [op closing])) next) :
    Matches (rules.ruleParser (depth + 1) name .anyToken) start (container name items) next := by
  have bare := bare_containerRule name item opening closing
  obtain ⟨afterOpening, opened, inner⟩ := Cursor.Consumes.split
    (show start.Consumes ([op opening] ++ _) next from consumes)
  obtain ⟨afterItems, held, closed⟩ := inner.split
  obtain ⟨few, journal, error, repeats⟩ : items.length ≤ afterOpening.rest.length ∧
      ∃ journal error, Repeats (contentParser (rules.ruleParser depth))
        (.ofRule (containerRule name item opening closing)) (itemsField item) 1 0 afterOpening
        journal items error afterItems :=
    repeats_of_consumes bare rfl rfl (fun _ => op_accepts) (fun _ => rfl) reads present
      (ends closed.peek) (closed.peek ▸ apart) held
  refine (ruleParser_matches found made).mpr
    ⟨depth, _, rfl, (body_matches_sequence rfl).mpr ?_, rfl⟩
  refine (sequence_matches_single bare rfl).mpr ⟨_, afterOpening, _,
    (mark_matches rfl).mpr ⟨_, op_accepts.mpr rfl, opened, rfl⟩, ?_, rfl⟩
  refine sequence_matches_cons.mpr ⟨items, afterItems, _,
    fieldValues_matches_repeated rfl repeats few (Nat.zero_le _), ?_, rfl⟩
  exact (sequence_matches_single bare rfl).mpr ⟨_, next, [],
    (mark_matches rfl).mpr ⟨_, op_accepts.mpr rfl, closed, rfl⟩,
    sequence_matches_nil.mpr ⟨by simp, rfl, rfl⟩, rfl⟩

end Container

/-! Members and values. -/

theorem member_matches : Matches (grammar.ruleParser depth "DictItem" .anyToken) start tree next ↔
    1 < depth ∧ ∃ key middle value, start.Consumes [.ordinary "string" key, op ":"] middle ∧
      Matches (grammar.ruleParser (depth - 1) "Json" .anyToken) middle value next ∧
      tree = member (.ordinary "string" key) value := by
  rw [ruleParser_matches find_member rfl]
  constructor
  · rintro ⟨below, slots, rfl, whole, rfl⟩
    obtain ⟨_, afterKey, _, own, later, rfl⟩ :=
      (sequence_matches_single bare_memberRule rfl).mp ((body_matches_sequence rfl).mp whole)
    obtain ⟨positive, token, accepts, key, rfl⟩ := (scalar_matches rfl find_str).mp own
    obtain ⟨text, rfl⟩ := TokenPattern.ofType_accepts.mp accepts
    obtain ⟨_, afterColon, _, colons, last, rfl⟩ :=
      (sequence_matches_single bare_memberRule rfl).mp later
    obtain ⟨_, accepts, colon, rfl⟩ := (mark_matches rfl).mp colons
    cases op_accepts.mp accepts
    obtain ⟨value, _, _, held, done, rfl⟩ := (sequence_matches_single bare_memberRule rfl).mp last
    obtain ⟨_, rfl, rfl⟩ := sequence_matches_nil.mp done
    exact ⟨by omega, text, afterColon, value, key.trans colon, held, rfl⟩
  · rintro ⟨enough, text, afterColon, value, consumes, held, rfl⟩
    obtain ⟨afterKey, key, colon⟩ := Cursor.Consumes.split
      (show start.Consumes ([_] ++ [_]) afterColon from consumes)
    refine ⟨depth - 1, _, by omega, (body_matches_sequence rfl).mpr ?_, rfl⟩
    refine (sequence_matches_single bare_memberRule rfl).mpr ⟨_, afterKey, _,
      (scalar_matches rfl find_str).mpr
        ⟨by omega, _, TokenPattern.ofType_accepts.mpr ⟨text, rfl⟩, key, rfl⟩, ?_, rfl⟩
    refine (sequence_matches_single bare_memberRule rfl).mpr ⟨_, afterColon, _,
      (mark_matches rfl).mpr ⟨_, op_accepts.mpr rfl, colon, rfl⟩, ?_, rfl⟩
    exact (sequence_matches_single bare_memberRule rfl).mpr ⟨value, next, [], held,
      sequence_matches_nil.mpr ⟨by simp, rfl, rfl⟩, rfl⟩

theorem member_matched
    (reads : ∀ {start next tree},
      Matches (grammar.ruleParser (depth - 1) "Json" .anyToken) start tree next →
        WellFormed tree ∧ start.Consumes (flatten tree) next)
    (matched : Matches (grammar.ruleParser depth "DictItem" .anyToken) start tree next) :
    ∃ entry : String × Tree, (tree = member (.ordinary "string" entry.1) entry.2 ∧
      WellFormed entry.2) ∧
      start.Consumes (flatten (member (.ordinary "string" entry.1) entry.2)) next := by
  obtain ⟨_, key, middle, value, lead, held, rfl⟩ := member_matches.mp matched
  obtain ⟨sound, consumes⟩ := reads held
  exact ⟨(key, value), ⟨rfl, sound⟩, by simpa using lead.trans consumes⟩

theorem member_of_consumes {key : String} {value : Tree}
    (reads : ∀ {start}, start.Consumes (flatten value) next →
      Matches (grammar.ruleParser (depth + 1) "Json" .anyToken) start value next)
    (consumes : start.Consumes (flatten (member (.ordinary "string" key) value)) next) :
    Matches (grammar.ruleParser (depth + 2) "DictItem" .anyToken) start
      (member (.ordinary "string" key) value) next := by
  rw [flatten_member] at consumes
  obtain ⟨middle, lead, held⟩ := Cursor.Consumes.split
    (show start.Consumes ([_, _] ++ _) next from consumes)
  exact member_matches.mpr ⟨by omega, key, middle, value, lead, reads held, rfl⟩

theorem member_fails (refused : (TokenPattern.ofType "string").accepts start.peek = false) :
    Fails (grammar.ruleParser (depth + 2) "DictItem" .anyToken) start :=
  ruleParser_fails find_member rfl <| (body_fails_sequence rfl).mpr <|
    sequence_fails_single bare_memberRule rfl (scalar_fails find_str refused)

/-- The token with which an alternative begins. -/
def first (name : String) : TokenPattern :=
  match name with
  | "number" => .ofType "number"
  | "string" => .ofType "string"
  | "null" => .ofValue "null" "null"
  | "boolean" => .ofType "bool"
  | "array" => .ofValue "op" "["
  | _ => .ofValue "op" "\x7b"

theorem alternative_refused {field : FieldDescriptor} (member : field ∈ valueRule.fields)
    (refused : (first field.name).accepts start.peek = false) :
    Fails (Parser.alternative (contentParser (grammar.ruleParser (depth + 1))) valueRule field)
      start := by
  simp only [valueRule, List.mem_cons, List.not_mem_nil, or_false] at member
  rcases member with rfl | rfl | rfl | rfl | rfl | rfl <;> refine alternative_fails rfl ?_
  · exact scalar_fails find_number refused
  · exact scalar_fails find_str refused
  · exact scalar_fails find_null refused
  · exact scalar_fails find_bool refused
  · exact container_fails find_array rfl refused
  · exact container_fails find_dict rfl refused

theorem value_fails
    (refused : ∀ field ∈ valueRule.fields, (first field.name).accepts start.peek = false) :
    Fails (grammar.ruleParser (depth + 2) "Json" .anyToken) start :=
  ruleParser_fails find_value rfl <| (body_fails_choice rfl rfl).mpr <| choice_fails
    fun field member => alternative_refused member (refused field member)

theorem alternative_eq {before after : List FieldDescriptor} {field : FieldDescriptor}
    (split : valueRule.fields = before ++ field :: after) (tree : Tree) :
    .node "Json" (before.map (·.slot []) ++ field.slot [tree] :: after.map (·.slot [])) =
      alternative field.name tree := by
  rw [slots_of_choice (split ▸ by decide), ← split]
  rfl

theorem optional_alternative {field : FieldDescriptor} (member : field ∈ valueRule.fields) :
    field.cardinality = .optional ∧ field.tokens = .anyToken := by
  have all : ∀ field ∈ valueRule.fields,
      field.cardinality = .optional ∧ field.tokens = .anyToken := by
    decide
  exact all field member

theorem value_matched (matched : Matches (grammar.ruleParser depth "Json" .anyToken) start tree next) :
    ∃ below field inner, depth = below + 1 ∧ field ∈ valueRule.fields ∧
      Matches (contentParser (grammar.ruleParser below) field.symbol .anyToken) start inner next ∧
      tree = alternative field.name inner := by
  obtain ⟨below, field, inner, rfl, member, own, rfl⟩ := ruleParser_matched_choice find_value rfl rfl rfl
    (fun _ member => (optional_alternative member).1) (by decide) matched
  exact ⟨below, field, inner, rfl, member, (optional_alternative member).2 ▸ own, rfl⟩

theorem value_of_matches (before : List FieldDescriptor) {after : List FieldDescriptor}
    {field : FieldDescriptor}
    (split : valueRule.fields = before ++ field :: after)
    (earlier : ∀ other ∈ before, (first other.name).accepts start.peek = false)
    (matched : Matches (contentParser (grammar.ruleParser (depth + 1)) field.symbol .anyToken)
      start tree next) :
    Matches (grammar.ruleParser (depth + 2) "Json" .anyToken) start
      (alternative field.name tree) next := by
  obtain ⟨optional, unguarded⟩ := optional_alternative (by simp [split] : field ∈ valueRule.fields)
  rw [← unguarded] at matched
  refine (ruleParser_matches find_value rfl).mpr ⟨depth + 1, _, rfl,
    (body_matches_choice rfl rfl).mpr (choice_matches.mpr ⟨before, field, after, [tree], split,
      fun other member => ?_, (alternative_matches optional).mpr ⟨tree, matched, rfl⟩, rfl⟩),
    (alternative_eq split tree).symm⟩
  exact alternative_refused (by simp [split, member]) (earlier other member)

/-! Soundness: what the rule of a value matches is well-formed, and consumes its tokens. -/

theorem map_fst_eq (build : α → Tree) {items : List (Tree × α)}
    (each : ∀ entry ∈ items, entry.1 = build entry.2) :
    items.map (·.1) = (items.map (·.2)).map build := by
  rw [List.map_map]
  exact List.map_congr_left each

theorem forall_map_snd {good : α → Prop} {items : List (Tree × α)}
    (each : ∀ entry ∈ items, good entry.2) : ∀ source ∈ items.map (·.2), good source := by
  intro source member
  obtain ⟨entry, inside, rfl⟩ := List.mem_map.mp member
  exact each entry inside

theorem wellFormed_of_matches
    (matched : Matches (grammar.ruleParser depth "Json" .anyToken) start tree next) :
    WellFormed tree ∧ start.Consumes (flatten tree) next := by
  induction depth using Nat.strongRecOn generalizing start next tree with
  | _ depth ih =>
      obtain ⟨below, field, inner, rfl, alternative, own, rfl⟩ := value_matched matched
      simp only [valueRule, List.mem_cons, List.not_mem_nil, or_false] at alternative
      rcases alternative with rfl | rfl | rfl | rfl | rfl | rfl
      · obtain ⟨_, token, accepts, consumes, rfl⟩ := (scalar_matches rfl find_number).mp own
        obtain ⟨text, rfl⟩ := TokenPattern.ofType_accepts.mp accepts
        exact ⟨.number text, consumes⟩
      · obtain ⟨_, token, accepts, consumes, rfl⟩ := (scalar_matches rfl find_str).mp own
        obtain ⟨text, rfl⟩ := TokenPattern.ofType_accepts.mp accepts
        exact ⟨.string text, consumes⟩
      · obtain ⟨_, token, accepts, consumes, rfl⟩ := (scalar_matches rfl find_null).mp own
        cases TokenPattern.ofValue_accepts.mp accepts
        exact ⟨.null, consumes⟩
      · obtain ⟨_, token, accepts, consumes, rfl⟩ := (scalar_matches rfl find_bool).mp own
        obtain ⟨text, rfl⟩ := TokenPattern.ofType_accepts.mp accepts
        exact ⟨.bool text, consumes⟩
      · cases below with
        | zero => cases own
        | succ below =>
            have reads {start next : Cursor} {tree : Tree}
                (matched : Matches (grammar.ruleParser below "Json" .anyToken) start tree next) :
                ∃ source, (tree = source ∧ WellFormed source) ∧
                  start.Consumes (flatten source) next :=
              ⟨tree, ⟨rfl, (ih below (by omega) matched).1⟩, (ih below (by omega) matched).2⟩
            obtain ⟨items, rfl, values, consumes⟩ := container_matched find_array rfl reads own
            rw [map_fst_eq id fun entry held => (values entry held).1, List.map_id]
            have written : (items.map fun entry => flatten entry.2) =
                (items.map (·.2)).map flatten := by simp
            rw [written, ← flatten_array, ← flatten_alternative "array" _ (by decide)] at consumes
            exact ⟨.array (forall_map_snd fun entry held => (values entry held).2), consumes⟩
      · cases below with
        | zero => cases own
        | succ below =>
            obtain ⟨items, rfl, values, consumes⟩ := container_matched find_dict rfl
              (member_matched fun matched => ih (below - 1) (by omega) matched) own
            let build := fun entry : String × Tree => member (.ordinary "string" entry.1) entry.2
            rw [map_fst_eq build fun entry held => (values entry held).1]
            have written : (items.map fun entry => flatten (build entry.2)) =
                ((items.map (·.2)).map build).map flatten := by simp
            rw [written, ← flatten_dict, ← flatten_alternative "dict" _ (by decide)] at consumes
            exact ⟨.dict (forall_map_snd fun entry held => (values entry held).2), consumes⟩

/-! Completeness: a well-formed tree is matched where its tokens are. -/

/-- A token does not begin the alternatives that ask for another type. -/
theorem refused_of_type {fields : List FieldDescriptor} {type text : String}
    (apart : ∀ field ∈ fields, (first field.name).type.all (· == type) = false)
    (peek : start.peek = .ordinary type text) :
    ∀ field ∈ fields, (first field.name).accepts start.peek = false := by
  intro field member
  rw [peek]
  simp [TokenPattern.accepts, Token.type, apart field member]

theorem matches_of_wellFormed (wellFormed : WellFormed tree)
    (enough : 3 * (flatten tree).length ≤ depth + 2)
    (consumes : start.Consumes (flatten tree) next) :
    Matches (grammar.ruleParser (depth + 2) "Json" .anyToken) start tree next := by
  induction wellFormed generalizing depth start next with
  | number text =>
      exact value_of_matches [] rfl (by simp)
        ((scalar_matches rfl find_number).mpr ⟨by omega, _, rfl, consumes, rfl⟩)
  | string text =>
      refine value_of_matches (valueRule.fields.take 1) rfl (refused_of_type ?_ consumes.peek)
        ((scalar_matches rfl find_str).mpr ⟨by omega, _, rfl, consumes, rfl⟩)
      decide
  | null =>
      refine value_of_matches (valueRule.fields.take 2) rfl (refused_of_type ?_ consumes.peek)
        ((scalar_matches rfl find_null).mpr ⟨by omega, _, rfl, consumes, rfl⟩)
      decide
  | bool text =>
      refine value_of_matches (valueRule.fields.take 3) rfl (refused_of_type ?_ consumes.peek)
        ((scalar_matches rfl find_bool).mpr ⟨by omega, _, rfl, consumes, rfl⟩)
      decide
  | @array items values ih =>
      rw [flatten_alternative "array" _ (by decide), flatten_array] at consumes enough
      simp only [List.length_cons, List.length_append] at enough
      obtain ⟨depth, rfl⟩ : ∃ less, depth = less + 2 := ⟨depth - 2, by omega⟩
      refine value_of_matches (valueRule.fields.take 4) rfl (refused_of_type ?_ consumes.peek)
        (container_of_consumes find_array rfl ?_ ?_ ?_ (by decide) consumes)
      · decide
      · intro item member start next own
        have part : (flatten item).length ≤ (separated (op ",") (items.map flatten)).length :=
          length_le_separated (List.mem_map_of_mem member)
        exact ih item member (by omega) own
      · exact fun item member => (values item member).flatten_ne_nil
      · intro stop closes
        exact value_fails fun field member => by rw [closes]; revert field; decide
  | @dict members values ih =>
      rw [flatten_alternative "dict" _ (by decide), flatten_dict] at consumes enough
      simp only [List.length_cons, List.length_append] at enough
      obtain ⟨depth, rfl⟩ : ∃ less, depth = less + 3 := ⟨depth - 3, by omega⟩
      refine value_of_matches (valueRule.fields.take 5) rfl ?_
        (container_of_consumes find_dict rfl ?_ ?_ ?_ (by decide) consumes)
      · rw [consumes.peek]
        decide
      · intro item held start next own
        obtain ⟨entry, inside, rfl⟩ := List.mem_map.mp held
        have part : (flatten (member (.ordinary "string" entry.1) entry.2)).length ≤
            (separated (op ",") _).length := length_le_separated (List.mem_map_of_mem held)
        simp only [flatten_member, List.length_cons] at part
        exact member_of_consumes (ih entry inside (by omega)) own
      · intro item held
        obtain ⟨entry, _, rfl⟩ := List.mem_map.mp held
        simp
      · intro stop closes
        exact member_fails (by rw [closes]; decide)

/-- The tokens of a well-formed tree do not begin those of another one. -/
theorem eq_of_flatten_append {tree other : Tree} (wellFormed : WellFormed tree)
    (alike : WellFormed other) (same : flatten tree ++ after = flatten other ++ more) :
    tree = other := by
  let start := Cursor.start (flatten tree ++ after)
  let depth := 3 * ((flatten tree).length + (flatten other).length)
  have consumes : start.Consumes (flatten tree) ⟨(flatten tree).length, after⟩ :=
    ⟨rfl, by simp [start, Cursor.start]⟩
  have others : start.Consumes (flatten other) ⟨(flatten other).length, more⟩ :=
    ⟨same, by simp [start, Cursor.start]⟩
  have first : Matches (grammar.ruleParser (depth + 2) "Json" .anyToken) start tree _ :=
    matches_of_wellFormed wellFormed (by omega) consumes
  have second : Matches (grammar.ruleParser (depth + 2) "Json" .anyToken) start other _ :=
    matches_of_wellFormed alike (by omega) others
  cases (Eq.symm first).trans second
  rfl

/-- The rule of JSON values skips no tokens, so none may follow the root. -/
theorem skipTrailing_value (cursor : Cursor) :
    grammar.skipTrailing (.rule "Json") cursor = cursor := by
  have drop : grammar.dropFilter? (.rule "Json") = some (.ok .anyToken) := rfl
  simp only [skipTrailing, drop, Cursor.skip_anyToken]

theorem parse_matches {tokens : List Token} {complete : Bool} :
    Matches (Language.json.parse complete) (.start tokens) tree next ↔
      Matches (grammar.ruleParser (8 * tokens.length + 8) "Json" .anyToken) (.start tokens)
        tree next ∧ (complete = true → next.peek.isEnd = true) := by
  have run : grammar.parse (.rule "Json") .anyToken (.start tokens) =
      grammar.ruleParser (8 * tokens.length + 8) "Json" .anyToken (.start tokens) := by
    simp only [Grammar.parse, contentParser]
    rfl
  have whole : Language.json.parse complete = grammar.parseFrom (.rule "Json") complete := rfl
  rw [whole, parseFrom_matches, Matches, run, skipTrailing_value]
  rfl

/-- A complete parse of JSON is a match of the rule of a value up to the end. -/
theorem parse_matched {tokens : List Token} {next : Cursor} :
    (Language.json.parse true (.start tokens)).outcome = .matched tree next ↔
      Matches (grammar.ruleParser (8 * tokens.length + 8) "Json" .anyToken) (.start tokens)
        tree next ∧ next.peek.isEnd = true :=
  parse_matches.trans (by simp)

theorem parse_flatten {tree : Tree} (wellFormed : WellFormed tree) :
    (Language.json.parse true (.start (flatten tree))).outcome =
      .matched tree ⟨(flatten tree).length, []⟩ := by
  have consumes : (Cursor.start (flatten tree)).Consumes (flatten tree)
      ⟨(flatten tree).length, []⟩ := ⟨by simp [Cursor.start], by simp [Cursor.start]⟩
  have enough : 3 * (flatten tree).length ≤ 8 * (flatten tree).length + 6 + 2 := by omega
  exact parse_matched.mpr ⟨matches_of_wellFormed wellFormed enough consumes, rfl⟩

/-- A complete parse of JSON yields a tree if and only if the tree is well-formed and the tokens
are those that it is written with. -/
theorem parse_iff_wellFormed (tokens : List Token) (ordinary : ∀ token ∈ tokens, token.isEnd = false)
    (tree : Tree) :
    (∃ next, (Language.json.parse true (.start tokens)).outcome = .matched tree next) ↔
      WellFormed tree ∧ flatten tree = tokens := by
  constructor
  · rintro ⟨next, parsed⟩
    obtain ⟨matched, ends⟩ := parse_matched.mp parsed
    obtain ⟨wellFormed, consumes⟩ := wellFormed_of_matches matched
    have split : tokens = flatten tree ++ next.rest := consumes.rest
    have finished : next.rest = [] :=
      Cursor.rest_of_isEnd (fun token member => ordinary token (by simp [split, member])) ends
    exact ⟨wellFormed, by simpa [finished] using split.symm⟩
  · rintro ⟨wellFormed, rfl⟩
    exact ⟨_, parse_flatten wellFormed⟩

/-- A list of an empty list and a dictionary with two members under one key. -/
theorem parse_iff_wellFormed_duplicate_key :
    let key : Token := .ordinary "string" "\"k\""
    let tokens := [op "[", op "[", op "]", op ",", op "\x7b", key, op ":", .ordinary "bool" "true",
      op ",", key, op ":", .ordinary "null" "null", op "\x7d", op "]"]
    let tree := alternative "array" (container "Array" [alternative "array" (container "Array" []),
      alternative "dict" (container "Dict" [
        member key (alternative "boolean" (scalar "Bool" (.ordinary "bool" "true"))),
        member key (alternative "null" (scalar "Null" (.ordinary "null" "null")))])])
    (∀ token ∈ tokens, token.isEnd = false) ∧
      ∃ next, (Language.json.parse true (.start tokens)).outcome = .matched tree next := by
  intro key tokens tree
  have ordinary : ∀ token ∈ tokens, token.isEnd = false := by decide
  have inner := @WellFormed.dict [("\"k\"", _), ("\"k\"", _)] <| by
    simpa using ⟨WellFormed.bool "true", WellFormed.null⟩
  have wellFormed : WellFormed tree := .array <| by
    simpa using ⟨@WellFormed.array [] (by simp), inner⟩
  exact ⟨ordinary, (parse_iff_wellFormed tokens ordinary tree).mpr ⟨wellFormed, rfl⟩⟩

end Language.Json
end TokenGrammar
