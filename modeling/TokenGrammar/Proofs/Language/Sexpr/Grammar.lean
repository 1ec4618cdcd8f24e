import Mathlib.Data.List.DropRight
import TokenGrammar.Language.Document
import TokenGrammar.Proofs.Language.Sexpr.Tree
import TokenGrammar.Proofs.Parser.Skipping

namespace TokenGrammar.Language.Sexpr

open TokenGrammar.Parser TokenGrammar.Grammar
open TokenGrammar.Cursor (Reads)

/-! The rules of S-expressions, compiled, and what their parsers match. -/

def grammar : Grammar := Language.sexpr.grammar

def comments : Constraint := ⟨[.ofType "comment"]⟩

def leafField (type : String) (index : Nat) : FieldDescriptor :=
  ⟨type, index, .token, .optional, ⟨[.ofType type]⟩, .unbounded, .anyToken⟩

def listField : FieldDescriptor :=
  ⟨"list", 3, .rule "List", .optional, .anyToken, .unbounded, .anyToken⟩

def expressionRule : Descriptor :=
  ⟨"SExpr", .oneOf, [leafField "number" 0, leafField "string" 1, leafField "atom" 2, listField],
    none, comments⟩

def bracketField (name : String) (index : Nat) (text : String) : FieldDescriptor :=
  ⟨name, index, .mark, .single, ⟨[.ofValue "bkt" text]⟩, .unbounded, .anyToken⟩

def itemsField : FieldDescriptor :=
  ⟨"items", 1, .rule "SExpr", .repeated, .anyToken, .unbounded, .anyToken⟩

def listRule : Descriptor :=
  ⟨"List", .seq, [bracketField "open" 0 "(", itemsField, bracketField "close" 2 ")"], none,
    comments⟩

theorem find_expression : grammar.find? "SExpr" = some (.ok expressionRule) := rfl

theorem find_list : grammar.find? "List" = some (.ok listRule) := rfl

variable {depth : Nat} {start next : Cursor} {tree : Tree}

theorem find_isNone (token : Token) : (comments.find? token).isNone = !isComment token := by
  cases token with
  | endOfInput => rfl
  | ordinary type text =>
      by_cases comment : type = "comment"
      · subst comment
        rfl
      · have refused : (TokenPattern.ofType "comment").accepts (.ordinary type text) = false := by
          rw [← Bool.not_eq_true, TokenPattern.ofType_accepts]
          intro ⟨_, same⟩
          exact comment (Token.ordinary.inj same).1
        simp [comments, Constraint.find?, refused, isComment, comment]

theorem kept_eq_filter (tokens : List Token) :
    comments.kept tokens = tokens.filter (!isComment ·) :=
  List.filter_congr fun token _ => find_isNone token

theorem find_eq_none {token : Token} : comments.find? token = none ↔ isComment token = false := by
  rw [← Option.isNone_iff_eq_none, find_isNone, Bool.not_eq_true']

theorem ordinary_kept {type : String} (other : type ≠ "comment") (text : String) :
    comments.find? (.ordinary type text) = none := by
  simpa [find_eq_none, isComment] using other

theorem bracket_kept (text : String) : comments.find? (bracket text) = none :=
  ordinary_kept (by decide) text

theorem leaf_kept {type : String} (known : type ∈ ["number", "string", "atom"]) (text : String) :
    comments.find? (.ordinary type text) = none := by
  refine ordinary_kept (fun same => ?_) text
  simp [same] at known

/-! Soundness: what the rule of an expression matches is well-formed, and the tokens read are
those that it is written with. -/

theorem leaf_matched {rules : String → Constraint → Parser Tree} {type : String}
    (known : type ∈ ["number", "string", "atom"])
    (matched : Matches (contentParser rules .token ⟨[.ofType type]⟩) (start.skip comments) tree next) :
    WellFormed (alternative type tree) ∧
      start.Reads comments (flatten (alternative type tree)) next := by
  obtain ⟨token, accepts, consumes, rfl⟩ := (token_matches rfl).mp matched
  obtain ⟨text, rfl⟩ := TokenPattern.ofType_accepts.mp accepts
  refine ⟨.leaf known text, ?_⟩
  rw [flatten_alternative (List.mem_append_left ["list"] known)]
  exact Reads.single.mpr ⟨leaf_kept known text, consumes⟩

theorem list_matched
    (items : ∀ {start next : Cursor} {tree : Tree},
      Matches (grammar.ruleParser depth "SExpr" .anyToken) start tree next →
        WellFormed tree ∧ start.Reads comments (flatten tree) next)
    (matched : Matches (grammar.ruleParser (depth + 1) "List" .anyToken) start tree next) :
    WellFormed (alternative "list" tree) ∧ start.Reads comments (flatten tree) next := by
  obtain ⟨_, slots, same, whole, rfl⟩ := (ruleParser_matches find_list rfl).mp matched
  cases same
  obtain ⟨_, afterOpening, _, opens, later, rfl⟩ :=
    (sequence_matches_plain rfl rfl).mp ((body_matches_sequence rfl).mp whole)
  obtain ⟨_, accepts, opened, rfl⟩ := (mark_matches rfl).mp opens
  cases TokenPattern.ofValue_accepts.mp accepts
  obtain ⟨trees, afterItems, _, between, last, rfl⟩ := sequence_matches_cons.mp later
  obtain ⟨_, journal, error, repeats⟩ := repeated_matched between
  obtain ⟨values, held⟩ : (∀ tree ∈ trees, WellFormed tree) ∧
      afterOpening.Reads comments (trees.flatMap flatten) afterItems := by
    refine repeats.reads rfl rfl fun matched => ?_
    obtain ⟨wellFormed, reads⟩ := items matched
    exact ⟨wellFormed, (Reads.skip_iff wellFormed.flatten_ne_nil).mp reads⟩
  obtain ⟨_, _, _, closes, done, rfl⟩ := (sequence_matches_plain rfl rfl).mp last
  obtain ⟨_, accepts, closed, rfl⟩ := (mark_matches rfl).mp closes
  cases TokenPattern.ofValue_accepts.mp accepts
  obtain ⟨_, rfl, rfl⟩ := sequence_matches_nil.mp done
  refine ⟨.list values, ?_⟩
  have opening : start.Reads comments [bracket "("] afterOpening :=
    Reads.single.mpr ⟨bracket_kept "(", opened⟩
  have closing : afterItems.Reads comments [bracket ")"] next :=
    Reads.single.mpr ⟨bracket_kept ")", closed⟩
  have all := opening.trans (held.trans closing)
  rw [List.singleton_append, ← flatten_list] at all
  exact all

theorem wellFormed_of_matches
    (matched : Matches (grammar.ruleParser depth "SExpr" .anyToken) start tree next) :
    WellFormed tree ∧ start.Reads comments (flatten tree) next := by
  induction depth using Nat.strongRecOn generalizing start next tree with
  | _ depth ih =>
      obtain ⟨below, field, inner, rfl, alternative, own, rfl⟩ :=
        ruleParser_matched_skip find_expression rfl rfl (by decide) (by decide) matched
      simp only [expressionRule, List.mem_cons, List.not_mem_nil, or_false] at alternative
      rcases alternative with rfl | rfl | rfl | rfl
      · exact leaf_matched (show "number" ∈ ["number", "string", "atom"] by decide) own
      · exact leaf_matched (show "string" ∈ ["number", "string", "atom"] by decide) own
      · exact leaf_matched (show "atom" ∈ ["number", "string", "atom"] by decide) own
      · cases below with
        | zero => cases own
        | succ below =>
            obtain ⟨wellFormed, reads⟩ := list_matched (ih below (by omega)) own
            have written : flatten (Sexpr.alternative "list" inner) = flatten inner :=
              flatten_alternative (by decide) inner
            have present : flatten inner ≠ [] := written ▸ wellFormed.flatten_ne_nil
            refine ⟨wellFormed, ?_⟩
            have all := (Reads.skip_iff present).mp reads
            rw [← written] at all
            exact all

/-! Completeness: a well-formed tree is matched where its tokens are read. -/

/-- What the first token of an alternative has to satisfy. -/
def first (alternative : String) : TokenPattern :=
  if alternative = "list" then .ofValue "bkt" "(" else .ofType alternative

theorem alternative_refused {field : FieldDescriptor} (member : field ∈ expressionRule.fields)
    (refused : (first field.name).accepts (start.skip comments).peek = false) :
    Fails (Parser.alternative (contentParser (grammar.ruleParser (depth + 1))) expressionRule field)
      (start.skip comments) := by
  simp only [expressionRule, List.mem_cons, List.not_mem_nil, or_false] at member
  rcases member with rfl | rfl | rfl | rfl <;> refine alternative_fails rfl ?_
  · exact token_fails refused
  · exact token_fails refused
  · exact token_fails refused
  · refine ruleParser_fails find_list rfl <| (body_fails_sequence rfl).mpr <|
      sequence_fails_plain rfl rfl (mark_fails ?_)
    rw [show (start.skip comments).skip listRule.drop = start.skip comments from
      Cursor.skip_skip start comments]
    exact refused

theorem expression_fails (refused : ∀ field ∈ expressionRule.fields,
      (first field.name).accepts (start.skip comments).peek = false) :
    Fails (grammar.ruleParser (depth + 2) "SExpr" .anyToken) start := by
  refine ruleParser_fails find_expression rfl ?_
  rw [Fails, body_run_skip rfl]
  exact choice_fails fun field member => alternative_refused member (refused field member)

theorem expression_of_matches (before : List FieldDescriptor) {after : List FieldDescriptor}
    {field : FieldDescriptor} (split : expressionRule.fields = before ++ field :: after)
    (earlier : ∀ other ∈ before, (first other.name).accepts (start.skip comments).peek = false)
    (matched : Matches (contentParser (grammar.ruleParser (depth + 1)) field.symbol field.tokens)
      (start.skip comments) tree next) :
    Matches (grammar.ruleParser (depth + 2) "SExpr" .anyToken) start
      (alternative field.name tree) next := by
  have optional : ∀ field ∈ expressionRule.fields, field.cardinality = .optional := by decide
  have distinct : (expressionRule.fields.map (·.name)).Nodup := by decide
  rw [split] at optional distinct
  refine (ruleParser_matches find_expression rfl).mpr ⟨depth + 1,
    before.map (·.slot []) ++ field.slot [tree] :: after.map (·.slot []), rfl, ?_, ?_⟩
  · rw [Matches, body_run_skip rfl]
    refine choice_matches.mpr ⟨before, field, after, [tree], split, fun other member => ?_,
      (alternative_matches (optional field (by simp))).mpr ⟨tree, matched, rfl⟩, rfl⟩
    exact alternative_refused (by simp [split, member]) (earlier other member)
  · rw [slots_of_choice distinct, ← split]
    rfl

theorem leaf_of_reads {type text : String} (known : type ∈ ["number", "string", "atom"])
    (reads : start.Reads comments [.ordinary type text] next) :
    Matches (grammar.ruleParser (depth + 2) "SExpr" .anyToken) start
      (alternative type (.token (.ordinary type text))) next := by
  obtain ⟨_, consumes⟩ := Reads.single.mp reads
  have own : Matches (contentParser (grammar.ruleParser (depth + 1)) .token ⟨[.ofType type]⟩)
      (start.skip comments) (.token (.ordinary type text)) next :=
    (token_matches rfl).mpr ⟨_, TokenPattern.ofType_accepts.mpr ⟨text, rfl⟩, consumes, rfl⟩
  simp only [List.mem_cons, List.not_mem_nil, or_false] at known
  rcases known with rfl | rfl | rfl
  · exact expression_of_matches [] rfl (by simp) own
  · refine expression_of_matches (expressionRule.fields.take 1) rfl ?_ own
    simp [consumes.peek, expressionRule, leafField, first, TokenPattern.ofType,
      TokenPattern.accepts, Token.type]
  · refine expression_of_matches (expressionRule.fields.take 2) rfl ?_ own
    simp [consumes.peek, expressionRule, leafField, first, TokenPattern.ofType,
      TokenPattern.accepts, Token.type]

theorem list_of_reads {items : List Tree}
    (each : ∀ tree ∈ items, ∀ {start next : Cursor}, start.Reads comments (flatten tree) next →
      Matches (grammar.ruleParser (depth + 2) "SExpr" .anyToken) start tree next)
    (present : ∀ tree ∈ items, flatten tree ≠ [])
    (reads : start.Reads comments (flatten (list items)) next) :
    Matches (grammar.ruleParser (depth + 3) "List" .anyToken) start (list items) next := by
  rw [flatten_list] at reads
  obtain ⟨_, afterOpening, opened, inner⟩ := Cursor.reads_cons.mp reads
  obtain ⟨afterItems, held, closing⟩ := inner.split
  obtain ⟨_, closed⟩ := Reads.single.mp closing
  have ends : Fails (grammar.ruleParser (depth + 2) "SExpr" .anyToken)
      (afterItems.skip comments) := by
    refine expression_fails fun field member => ?_
    rw [Cursor.skip_skip, closed.peek]
    revert field
    decide
  obtain ⟨few, journal, error, repeats⟩ : items.length ≤ afterOpening.rest.length ∧
      ∃ journal error, Repeats (contentParser (grammar.ruleParser (depth + 2)))
        (.ofRule listRule) itemsField 1 0 afterOpening journal items error afterItems :=
    repeats_of_reads rfl rfl (fun _ => rfl)
      (fun tree member _ _ reads => each tree member ((Reads.skip_iff (present tree member)).mpr reads))
      present ends held
  refine (ruleParser_matches find_list rfl).mpr ⟨depth + 2, _, rfl, (body_matches_sequence rfl).mpr ?_, rfl⟩
  refine (sequence_matches_plain rfl rfl).mpr ⟨_, afterOpening, _,
    (mark_matches rfl).mpr ⟨_, TokenPattern.ofValue_accepts.mpr rfl, opened, rfl⟩, ?_, rfl⟩
  refine sequence_matches_cons.mpr ⟨items, afterItems, _,
    fieldValues_matches_repeated rfl repeats few (Nat.zero_le _), ?_, rfl⟩
  exact (sequence_matches_plain rfl rfl).mpr ⟨_, next, [],
    (mark_matches rfl).mpr ⟨_, TokenPattern.ofValue_accepts.mpr rfl, closed, rfl⟩,
    sequence_matches_nil.mpr ⟨by simp, rfl, rfl⟩, rfl⟩

theorem length_flatten_le {items : List Tree} (member : tree ∈ items) :
    (flatten tree).length ≤ (items.flatMap flatten).length := by
  rw [List.flatMap_def]
  exact (List.sublist_flatten_of_mem (List.mem_map_of_mem member)).length_le

theorem matches_of_wellFormed (wellFormed : WellFormed tree)
    (enough : 2 * (flatten tree).length ≤ depth + 2)
    (reads : start.Reads comments (flatten tree) next) :
    Matches (grammar.ruleParser (depth + 2) "SExpr" .anyToken) start tree next := by
  induction wellFormed generalizing depth start next with
  | leaf known text =>
      rw [flatten_alternative (List.mem_append_left ["list"] known)] at reads
      exact leaf_of_reads known reads
  | @list items values ih =>
      rw [flatten_alternative (by decide)] at reads enough
      simp only [flatten_list, List.length_cons, List.length_append, List.length_nil] at enough
      obtain ⟨depth, rfl⟩ : ∃ less, depth = less + 2 := ⟨depth - 2, by omega⟩
      have opens : (start.skip comments).peek = bracket "(" := by
        rw [flatten_list] at reads
        exact reads.peek
      refine expression_of_matches (expressionRule.fields.take 3) rfl (by rw [opens]; decide) ?_
      refine list_of_reads (fun tree member {_ _} own => ?_)
        (fun tree member => (values tree member).flatten_ne_nil)
        ((Reads.skip_iff (by simp)).mpr reads)
      have part := length_flatten_le member
      exact ih tree member (by omega) own

/-! Whole token lists. -/

/-- The place just behind the last token that is no comment. -/
def contentEnd (tokens : List Token) : Cursor :=
  TokenStream.cursor ⟨tokens, (tokens.rdropWhile isComment).length⟩

theorem contentEnd_rest (tokens : List Token) :
    (contentEnd tokens).rest = tokens.rtakeWhile isComment := by
  have split : tokens.rdropWhile isComment ++ tokens.rtakeWhile isComment = tokens :=
    List.rdropWhile_append_rtakeWhile ..
  have dropped := congrArg (List.drop (tokens.rdropWhile isComment).length) split
  rw [List.drop_left] at dropped
  exact dropped.symm

theorem reads_content (tokens : List Token) :
    (Cursor.start tokens).Reads comments (tokens.filter (!isComment ·)) (contentEnd tokens) := by
  have split : tokens.rdropWhile isComment ++ tokens.rtakeWhile isComment = tokens :=
    List.rdropWhile_append_rtakeWhile ..
  refine ⟨tokens.rdropWhile isComment, ⟨?_, ?_⟩, ?_, ?_⟩
  · rw [contentEnd_rest]
    exact split.symm
  · simp [contentEnd, TokenStream.cursor, Cursor.start]
  · have trailing : (tokens.rtakeWhile isComment).filter (!isComment ·) = [] := by
      rw [List.filter_eq_nil_iff]
      intro token member
      simp [List.mem_rtakeWhile_imp member]
    have whole := congrArg (List.filter (!isComment ·)) split
    rwa [List.filter_append, trailing, List.append_nil, ← kept_eq_filter] at whole
  · intro last member
    obtain ⟨present, rfl⟩ := List.mem_getLast?_eq_getLast member
    rw [find_eq_none, ← Bool.not_eq_true]
    exact List.rdropWhile_last_not _ _ present

theorem parse_matches {tokens : List Token} :
    Matches (Language.sexpr.parse true) (.start tokens) tree next ↔
      Matches (grammar.ruleParser (2 * tokens.length + 2) "SExpr" .anyToken) (.start tokens)
        tree next ∧ (next.skip comments).peek.isEnd = true := by
  have run : grammar.parse (.rule "SExpr") .anyToken (.start tokens) =
      grammar.ruleParser (2 * tokens.length + 2) "SExpr" .anyToken (.start tokens) := by
    simp only [Grammar.parse, contentParser]
    rfl
  have whole : Language.sexpr.parse true = grammar.parseFrom (.rule "SExpr") true := rfl
  rw [whole, parseFrom_matches, Matches, run, skipTrailing_rule find_expression]
  simp [Matches, expressionRule]

theorem parse_written {tokens : List Token} (ordinary : ∀ token ∈ tokens, token.isEnd = false)
    (wellFormed : WellFormed tree) (written : flatten tree = tokens.filter (!isComment ·)) :
    Matches (Language.sexpr.parse true) (.start tokens) tree (contentEnd tokens) := by
  have few : (flatten tree).length ≤ tokens.length := by
    rw [written]
    exact List.length_filter_le _ _
  have reads := reads_content tokens
  rw [← written] at reads
  refine parse_matches.mpr ⟨matches_of_wellFormed wellFormed (by omega) reads, ?_⟩
  have trailing : ∀ token ∈ (contentEnd tokens).rest, isComment token = true := by
    rw [contentEnd_rest]
    exact fun token => List.mem_rtakeWhile_imp
  have present : ∀ token ∈ (contentEnd tokens).rest, token.isEnd = false :=
    fun token member => ordinary token (List.mem_of_mem_drop member)
  rw [Cursor.skip_isEnd_iff present, kept_eq_filter, List.filter_eq_nil_iff]
  exact fun token member => by simp [trailing token member]

theorem written_of_parse {tokens : List Token} (ordinary : ∀ token ∈ tokens, token.isEnd = false)
    (parsed : Matches (Language.sexpr.parse true) (.start tokens) tree next) :
    WellFormed tree ∧ flatten tree = tokens.filter (!isComment ·) := by
  obtain ⟨matched, ends⟩ := parse_matches.mp parsed
  obtain ⟨wellFormed, taken, consumes, kept, _⟩ := wellFormed_of_matches matched
  have split : tokens = taken ++ next.rest := consumes.rest
  have trailing : comments.kept next.rest = [] :=
    (Cursor.skip_isEnd_iff fun token member => ordinary token (by simp [split, member])).mp ends
  refine ⟨wellFormed, ?_⟩
  rw [← kept_eq_filter, split, Constraint.kept_append, trailing, List.append_nil, kept]

/-- A complete parse yields a tree if and only if the tree is well-formed and the tokens are those
that it is written with, but for comments. It stands behind the last of them. -/
theorem parse_iff_uncommented (tokens : List Token)
    (ordinary : ∀ token ∈ tokens, token.isEnd = false) (tree : Tree) (next : Cursor) :
    (Language.sexpr.parse true (.start tokens)).outcome = .matched tree next ↔
      (WellFormed tree ∧ flatten tree = tokens.filter (!isComment ·)) ∧
        next = contentEnd tokens := by
  constructor
  · intro parsed
    obtain ⟨wellFormed, written⟩ := written_of_parse ordinary parsed
    have again := parse_written ordinary wellFormed written
    rw [Matches, parsed] at again
    cases again
    exact ⟨⟨wellFormed, written⟩, rfl⟩
  · intro uncommented
    obtain ⟨⟨wellFormed, written⟩, rfl⟩ := uncommented
    exact parse_written ordinary wellFormed written

/-- Comments at the ends, beside brackets, and in a list that is otherwise empty. -/
theorem parse_iff_uncommented_nested :
    let comment := Token.ordinary "comment" "; note"
    let tokens := [comment, bracket "(", comment, .ordinary "atom" "a", bracket "(", comment,
      comment, bracket ")", .ordinary "number" "1", comment, bracket ")", comment, comment]
    let tree := alternative "list" (list [alternative "atom" (.token (.ordinary "atom" "a")),
      alternative "list" (list []), alternative "number" (.token (.ordinary "number" "1"))])
    (∀ token ∈ tokens, token.isEnd = false) ∧
      (Language.sexpr.parse true (.start tokens)).outcome =
        .matched tree ⟨11, [comment, comment]⟩ := by
  intro comment tokens tree
  have ordinary : ∀ token ∈ tokens, token.isEnd = false := by decide
  have wellFormed : WellFormed tree := .list <| by
    simpa using ⟨WellFormed.leaf (by decide) "a", @WellFormed.list [] (by simp),
      WellFormed.leaf (show "number" ∈ ["number", "string", "atom"] by decide) "1"⟩
  exact ⟨ordinary, (parse_iff_uncommented tokens ordinary tree _).mpr ⟨⟨wellFormed, rfl⟩, rfl⟩⟩

end TokenGrammar.Language.Sexpr
