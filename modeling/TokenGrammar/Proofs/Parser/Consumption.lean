import TokenGrammar.Language.Basic
import TokenGrammar.Proofs.Parser.Account
import TokenGrammar.Proofs.Parser.Run
import TokenGrammar.Proofs.Tree.Equality
import TokenGrammar.Token.Stream

namespace TokenGrammar

/-! A parser that matches consumes the tokens of an account of what it yields, and no others. -/

namespace Cursor

/-- The tokens that lie between two places. -/
structure Consumes (start : Cursor) (tokens : List Token) (next : Cursor) : Prop where
  rest : start.rest = tokens ++ next.rest
  pos : next.pos = start.pos + tokens.length

namespace Consumes

theorem refl (start : Cursor) : start.Consumes [] start := ⟨rfl, rfl⟩

theorem trans {start middle next : Cursor} (first : start.Consumes taken middle)
    (second : middle.Consumes more next) : start.Consumes (taken ++ more) next := by
  refine ⟨by rw [first.rest, second.rest, List.append_assoc], ?_⟩
  rw [second.pos, first.pos, List.length_append]
  omega

end Consumes

theorem consumes_advance {start : Cursor} (present : start.peek.isEnd = false) :
    start.Consumes [start.peek] start.advance := by
  obtain ⟨pos, _ | ⟨token, rest⟩⟩ := start
  · simp at present
  · exact ⟨rfl, rfl⟩

theorem consumes_skip (start : Cursor) (drop : Constraint) :
    ∃ dropped, drop.Drops dropped ∧ start.Consumes dropped (start.skip drop) := by
  obtain ⟨pos, tokens⟩ := start
  induction tokens generalizing pos with
  | nil => exact ⟨[], by simp [Constraint.Drops], rfl, rfl⟩
  | cons token rest ih =>
      by_cases drops : (drop.find? token).isSome = true
      · obtain ⟨dropped, allDrop, consumes⟩ := ih (pos + 1)
        have further : skip drop ⟨pos, token :: rest⟩ = skip drop ⟨pos + 1, rest⟩ := by
          simp only [skip, skipFrom, drops, if_true]
        rw [further]
        refine ⟨token :: dropped, ?_, ?_⟩
        · intro other member
          rcases List.mem_cons.mp member with same | later
          · rw [same]
            exact drops
          · exact allDrop other later
        · have first : Consumes ⟨pos, token :: rest⟩ [token] ⟨pos + 1, rest⟩ := ⟨rfl, rfl⟩
          exact first.trans consumes
      · have stays : skip drop ⟨pos, token :: rest⟩ = ⟨pos, token :: rest⟩ := by
          simp only [skip, skipFrom, drops]
          rfl
        rw [stays]
        exact ⟨[], by simp [Constraint.Drops], .refl _⟩

/-- A constraint that finds a pattern for the next token has a token to find it for. -/
theorem peek_of_found {start : Cursor} {constraint : Constraint}
    (found : constraint.find? start.peek = some pattern) : start.peek.isEnd = false := by
  obtain ⟨pos, _ | ⟨token, rest⟩⟩ := start
  · simp at found
  · cases token with
    | ordinary => rfl
    | endOfInput => simp at found

end Cursor

/-- A match of a parser consumes the tokens of an account that fits its value. -/
def Parser.Accounts (spans : α → Account → Prop) (parser : Parser α) : Prop :=
  ∀ start value next, (parser start).outcome = .matched value next →
    ∃ account, spans value account ∧ start.Consumes account.tokens next

namespace Parser

variable {spans : α → Account → Prop} {more : β → Account → Prop}

theorem accounts_pure {value : α} (fits : spans value []) :
    Accounts spans (pure value : Parser α) := by
  intro start result next matched
  cases matched
  exact ⟨[], fits, .refl _⟩

theorem Accounts.bind {first : Parser α} {next : α → Parser β} (head : first.Accounts spans)
    (tail : ∀ value taken, spans value taken →
      (next value).Accounts fun result account => more result (taken ++ account)) :
    (first >>= next).Accounts more := by
  intro start result stop matched
  obtain ⟨value, middle, first, second⟩ := bind_matched matched
  obtain ⟨taken, fits, consumes⟩ := head _ _ _ first
  obtain ⟨account, whole, consumesMore⟩ := tail value taken fits _ _ _ second
  refine ⟨taken ++ account, whole, ?_⟩
  rw [Account.tokens_append]
  exact consumes.trans consumesMore

theorem Accounts.mono {parser : Parser α} {weaker : α → Account → Prop}
    (accounts : parser.Accounts spans) (implies : ∀ value account, spans value account →
      weaker value account) : parser.Accounts weaker := by
  intro start value next matched
  obtain ⟨account, fits, consumes⟩ := accounts _ _ _ matched
  exact ⟨account, implies _ _ fits, consumes⟩

/-- A failed attempt consumes nothing. -/
theorem Accounts.attempt {parser : Parser α} (accounts : parser.Accounts spans) :
    (attempt parser).Accounts fun result account =>
      match result with
      | .ok value => spans value account
      | .error _ => account = [] := by
  intro start result next matched
  rcases attempt_matched matched with ⟨value, found, inner⟩ | ⟨error, found, back⟩
  · subst found
    exact accounts _ _ _ inner
  · subst found back
    exact ⟨[], rfl, .refl _⟩

theorem accounts_dropTokens (drop : Constraint) :
    (dropTokens drop).Accounts fun _ account =>
      ∃ dropped, drop.Drops dropped ∧ account = .all .dropped dropped := by
  intro start result next matched
  cases matched
  obtain ⟨dropped, drops, consumes⟩ := start.consumes_skip drop
  exact ⟨.all .dropped dropped, ⟨dropped, drops, rfl⟩, by simpa using consumes⟩

theorem matchNext_takes {constraint : Constraint}
    (matched : (matchNext constraint start).outcome = .matched token next) :
    ∃ taken, constraint.Takes token taken ∧ start.Consumes taken next := by
  have checks := matchNext_checks constraint start
  generalize matchNext constraint start = run at checks matched
  cases checks with
  | anyToken unconstrained present =>
      cases matched
      exact ⟨[start.peek], .any unconstrained present, Cursor.consumes_advance present⟩
  | @accepted pattern constrained found =>
      cases looking : pattern.lookahead with
      | true =>
          simp only [looking, if_true] at matched
          cases matched
          exact ⟨[], .seen found looking, .refl _⟩
      | false =>
          simp only [looking] at matched
          cases matched
          exact ⟨[start.peek], .consumed found looking,
            Cursor.consumes_advance (Cursor.peek_of_found found)⟩
  | atEnd | refused => cases matched

theorem accounts_matchNext (use : Use) (constraint : Constraint) :
    (matchNext constraint).Accounts fun token account =>
      ∃ taken, constraint.Takes token taken ∧ account = .all use taken := by
  intro start token next matched
  obtain ⟨taken, takes, consumes⟩ := matchNext_takes matched
  exact ⟨.all use taken, ⟨taken, takes, rfl⟩, by simpa using consumes⟩

/-! The parts of a rule, over a parser that accounts for what the fields hold. -/

section Rule

variable {grammar : Grammar} {content : Symbol → Constraint → Parser Tree}
  (contents : ∀ symbol constraint,
    (content symbol constraint).Accounts (grammar.Spans symbol constraint))

include contents

theorem accounts_separator (field : FieldDescriptor) :
    (separator content field).Accounts fun _ account => grammar.SpansSeparator field account := by
  intro start result next matched
  obtain ⟨attempted, middle, first, second⟩ := bind_matched matched
  obtain ⟨account, fits, consumes⟩ := (contents field.symbol field.tokens).attempt _ _ _ first
  cases attempted with
  | ok tree =>
      cases second
      exact ⟨account.ofSeparator, .present fits, by simpa using consumes⟩
  | error error =>
      by_cases optional : field.cardinality = .optional
      · simp only [optional, if_true] at second
        cases second
        cases fits
        exact ⟨[], .leftOut optional, consumes⟩
      · simp only [optional, if_false] at second
        cases second

theorem accounts_gap (between : Gap) (before : Nat) :
    (gap content between before).Accounts fun _ account =>
      grammar.SpansGap between before account := by
  apply (accounts_dropTokens between.drop).bind
  rintro _ _ ⟨dropped, drops, rfl⟩
  have plainly (plain : between.separator = none ∨ before = 0) :
      Accounts (fun _ account =>
        grammar.SpansGap between before (.all .dropped dropped ++ account)) (pure ()) :=
    accounts_pure (by simpa using .plain plain drops)
  cases present : between.separator with
  | none => exact plainly (.inl present)
  | some field =>
      by_cases first : before = 0
      · simp only [first, if_true]
        simpa only [first] using plainly (.inr first)
      · simp only [first, if_false]
        apply (accounts_separator contents field).bind
        rintro _ taken separator
        apply (accounts_dropTokens between.drop).mono
        rintro _ _ ⟨droppedAgain, dropsAgain, rfl⟩
        rw [← List.append_assoc]
        exact .separated present first drops separator dropsAgain

theorem accounts_item (between : Gap) (field : FieldDescriptor) (before : Nat) :
    (item content between field before).Accounts fun tree account =>
      ∃ lead own, account = lead ++ own ∧ grammar.SpansGap between before lead ∧
        grammar.Spans field.symbol field.tokens tree own := by
  apply (accounts_gap contents between before).bind
  intro _ lead gap
  apply (contents field.symbol field.tokens).mono
  intro tree own spans
  exact ⟨lead, own, rfl, gap, spans⟩

/-- What a repetition of a field consumes: a separator, a gap and the item. -/
theorem accounts_repetition (between : Gap) (field : FieldDescriptor) (before count : Nat) :
    (repetition content between field before count).Accounts fun tree account =>
      ∃ separator lead own, account = separator ++ lead ++ own ∧
        field.Separates between.drop count separator ∧
        grammar.SpansGap between (before + count) lead ∧
        grammar.Spans field.symbol field.tokens tree own := by
  have items := accounts_item contents between field (before + count)
  rcases repetition_cases content between field before count with
    ⟨plain, same⟩ | ⟨later, separated, same⟩
  · rw [same]
    apply items.mono
    rintro tree _ ⟨lead, own, rfl, gap, spans⟩
    exact ⟨[], lead, own, rfl, .plain plain, gap, spans⟩
  · rw [same]
    apply (accounts_dropTokens between.drop).bind
    rintro _ _ ⟨dropped, drops, rfl⟩
    apply (accounts_matchNext .separating field.separator).bind
    rintro token _ ⟨taken, takes, rfl⟩
    apply items.mono
    rintro tree _ ⟨lead, own, rfl, gap, spans⟩
    refine ⟨.all .dropped dropped ++ .all .separating taken, lead, own, ?_,
      .separated later separated drops takes, gap, spans⟩
    simp only [List.append_assoc]

/-- A repetition that fails leaves nothing behind, nor does what is tried before it. -/
theorem Repeats.accounts {between : Gap} {field : FieldDescriptor} {before count : Nat}
    {trees : List Tree}
    (repeats : Repeats content between field before count start journal trees error next) :
    ∃ account, grammar.SpansItems between field before count trees account ∧
      start.Consumes account.tokens next := by
  induction repeats with
  | full | stopped => exact ⟨[], .nil, .refl _⟩
  | stalled allowed matched idle =>
      obtain ⟨_, ⟨separator, lead, own, rfl, separates, gap, spans⟩, consumes⟩ :=
        accounts_repetition contents between field before _ _ _ _
          (congrArg Run.outcome matched)
      refine ⟨_, .cons separates gap spans .nil, ?_⟩
      simpa using consumes
  | more allowed matched moved rest ih =>
      obtain ⟨_, ⟨separator, lead, own, rfl, separates, gap, spans⟩, consumes⟩ :=
        accounts_repetition contents between field before _ _ _ _
          (congrArg Run.outcome matched)
      obtain ⟨account, items, consumesMore⟩ := ih
      refine ⟨_, .cons separates gap spans items, ?_⟩
      rw [Account.tokens_append]
      exact consumes.trans consumesMore

theorem accounts_repeated (rule : String) (between : Gap) (field : FieldDescriptor)
    (before least : Nat) :
    (repeated content rule between field before least).Accounts fun trees account =>
      least ≤ trees.length ∧ grammar.SpansItems between field before 0 trees account := by
  intro start trees next matched
  obtain ⟨enough, journal, error, repeats⟩ := repeated_matched matched
  obtain ⟨account, items, consumes⟩ := repeats.accounts contents
  exact ⟨account, ⟨enough, items⟩, consumes⟩

theorem accounts_fieldValues (rule : Descriptor) (field : FieldDescriptor) (before : Nat) :
    (fieldValues content rule field before).Accounts fun trees account =>
      grammar.SpansItems (.ofRule rule) field before 0 trees account := by
  have single : (item content (.ofRule rule) field before).Accounts fun tree account =>
      grammar.SpansItems (.ofRule rule) field before 0 [tree] account := by
    apply (accounts_item contents (.ofRule rule) field before).mono
    rintro tree _ ⟨lead, own, rfl, gap, spans⟩
    simpa using Grammar.SpansItems.cons (.plain (.inl rfl)) gap spans .nil
  cases cardinality : field.cardinality with
  | single =>
      simp only [fieldValues, cardinality]
      exact single.bind fun tree account items => accounts_pure (by simpa using items)
  | optional =>
      simp only [fieldValues, cardinality]
      apply single.attempt.bind
      intro attempted account items
      cases attempted with
      | ok tree => exact accounts_pure (by simpa using items)
      | error error =>
          subst items
          exact accounts_pure .nil
  | repeated =>
      simp only [fieldValues, cardinality]
      exact (accounts_repeated contents rule.name (.ofRule rule) field before field.size.min).mono
        fun _ _ enough => enough.2

theorem accounts_sequence (rule : Descriptor) (fields : List FieldDescriptor) (before : Nat) :
    (sequence content rule fields before).Accounts fun slots account =>
      grammar.SpansFields rule fields before slots account := by
  induction fields generalizing before with
  | nil =>
      by_cases nothing : before = 0
      · simp only [sequence, nothing, if_true]
        intro start slots next matched
        cases matched
      · simp only [sequence, nothing, if_false]
        exact accounts_pure .nil
  | cons field rest ih =>
      simp only [sequence]
      apply (accounts_fieldValues contents rule field before).bind
      intro trees first items
      apply (ih (before + trees.length)).bind
      intro slots second fields
      exact accounts_pure (by simpa using .cons items fields)

theorem accounts_alternative (rule : Descriptor) (field : FieldDescriptor) :
    (alternative content rule field).Accounts fun trees account =>
      trees ≠ [] ∧ grammar.SpansItems .nothing field 0 0 trees account := by
  by_cases cardinality : field.cardinality = .repeated
  · simp only [alternative, cardinality]
    apply (accounts_repeated contents rule.name .nothing field 0 (max 1 field.size.min)).mono
    rintro trees account ⟨enough, items⟩
    have some : 0 < trees.length := by omega
    exact ⟨List.ne_nil_of_length_pos some, items⟩
  · simp only [alternative]
    apply (contents field.symbol field.tokens).bind
    intro tree own spans
    have gap : grammar.SpansGap .nothing 0 (.all .dropped []) :=
      .plain (.inl rfl) (by simp [Constraint.Drops])
    exact accounts_pure
      ⟨by simp, by simpa using Grammar.SpansItems.cons (.plain (.inl rfl)) gap spans .nil⟩

/-- Of the fields of a choice one has values, and the account is theirs. -/
theorem accounts_choice (rule : Descriptor) (fields : List FieldDescriptor)
    (gathered : Option ParseError) :
    (choice content rule fields gathered).Accounts fun slots account =>
      ∃ before field after trees, fields = before ++ field :: after ∧
        slots = before.map (·.slot []) ++ field.slot trees :: after.map (·.slot []) ∧
        trees ≠ [] ∧ grammar.SpansItems .nothing field 0 0 trees account := by
  induction fields generalizing gathered with
  | nil =>
      intro start slots next matched
      cases gathered <;> cases matched
  | cons field rest ih =>
      simp only [choice]
      apply (accounts_alternative contents rule field).attempt.bind
      intro attempted account items
      cases attempted with
      | ok trees =>
          refine accounts_pure ⟨[], field, rest, trees, rfl, rfl, items.1, ?_⟩
          simpa using items.2
      | error error =>
          subst items
          apply (ih (some (.gather gathered error))).bind
          rintro _ account ⟨before, chosen, after, trees, rfl, rfl, present, items⟩
          refine accounts_pure ⟨field :: before, chosen, after, trees, rfl, rfl, present, ?_⟩
          simpa using items

theorem accounts_node {name : String} {rule : Descriptor} (guard : Constraint)
    (defined : grammar.find? name = some (.ok rule)) :
    (node content rule guard).Accounts (grammar.Spans (.rule name) guard) := by
  intro start tree next matched
  obtain ⟨_, place, guarding, matched⟩ := bind_matched matched
  obtain ⟨slots, middle, ran, done⟩ := bind_matched matched
  cases guarded_matched guarding
  cases done
  have inner := within_matched ran
  cases combinator : rule.combinator with
  | seq =>
      simp only [body, combinator] at inner
      obtain ⟨account, fields, consumes⟩ :=
        accounts_sequence contents rule rule.fields 0 _ _ _ inner
      exact ⟨account, .sequence defined combinator fields, consumes⟩
  | oneOf =>
      simp only [body, combinator] at inner
      obtain ⟨_, middle, dropping, choosing⟩ := bind_matched inner
      obtain ⟨_, ⟨dropped, drops, rfl⟩, consumes⟩ := accounts_dropTokens rule.drop _ _ _ dropping
      obtain ⟨account, ⟨before, field, after, trees, split, rfl, present, items⟩, consumesMore⟩ :=
        accounts_choice contents rule rule.fields none _ _ _ choosing
      refine ⟨_, .choice defined combinator drops split items present, ?_⟩
      rw [Account.tokens_append]
      exact consumes.trans consumesMore

end Rule
end Parser

namespace Grammar

open TokenGrammar.Parser

variable {grammar : Grammar}

theorem accounts_contentParser {rules : String → Constraint → Parser Tree}
    (nodes : ∀ name guard, (rules name guard).Accounts (grammar.Spans (.rule name) guard))
    (symbol : Symbol) (constraint : Constraint) :
    (contentParser rules symbol constraint).Accounts (grammar.Spans symbol constraint) := by
  induction symbol with
  | token =>
      apply (accounts_matchNext .kept constraint).bind
      rintro token _ ⟨taken, takes, rfl⟩
      exact accounts_pure (by simpa using .token takes)
  | mark =>
      apply (accounts_matchNext .kept constraint).bind
      rintro token _ ⟨taken, takes, rfl⟩
      exact accounts_pure (by simpa using .mark takes)
  | rule name => exact nodes name constraint
  | boxed symbol ih => exact ih.mono fun _ _ content => .boxed content

theorem accounts_ruleParser (depth : Nat) (name : String) (guard : Constraint) :
    (grammar.ruleParser depth name guard).Accounts (grammar.Spans (.rule name) guard) := by
  refine ruleParser_induction (motive := fun name guard parser =>
    parser.Accounts (grammar.Spans (.rule name) guard)) ?_ ?_ ?_ depth name guard
  · intro name guard fault start tree next matched
    cases matched
  · intro rules name guard rule nodes defined
    exact accounts_node (accounts_contentParser nodes) guard defined
  · intro name guard rule defined start tree next matched
    exact absurd matched (nodeless_unmatched rule guard)

/-- A parse that matches consumes the tokens up to where it ends, each of them once: the account
of its tree has them all, in order. -/
theorem parse_accounts (grammar : Grammar) (symbol : Symbol) (constraint : Constraint)
    (stream : TokenStream) (inside : stream.pos ≤ stream.tokens.length)
    (matched : (grammar.parse symbol constraint stream.cursor).outcome = .matched tree next) :
    stream.pos ≤ next.pos ∧ next.pos ≤ stream.tokens.length ∧
      next = (stream.restore next.pos).cursor ∧
      ∃ account, grammar.Spans symbol constraint tree account ∧
        account.tokens = (stream.tokens.drop stream.pos).take (next.pos - stream.pos) := by
  obtain ⟨account, spans, consumes⟩ :=
    accounts_contentParser (accounts_ruleParser _) symbol constraint _ _ _ matched
  obtain ⟨rest, pos⟩ := consumes
  simp only [TokenStream.cursor] at rest pos
  have total := congrArg List.length rest
  simp only [List.length_drop, List.length_append] at total
  refine ⟨by omega, by omega, ?_, account, spans, ?_⟩
  · obtain ⟨place, remaining⟩ := next
    simp only [TokenStream.cursor, TokenStream.restore, Cursor.mk.injEq, true_and]
    simp only at rest pos
    rw [pos, ← List.drop_drop, rest, List.drop_left]
  · have taken : next.pos - stream.pos = account.tokens.length := by omega
    rw [rest, taken, List.take_left]

/-- Two numbers with spaces around the comma between them. What follows them, a space and a comma
without a third number, is left. -/
theorem parse_accounts_separated_numbers :
    let numbers := Declaration.seq "Numbers" "space" [Declaration.markField "separator" "op,,",
      { name := "values", symbol := .token, cardinality := .repeated, tok := "num" }]
    let taken : List Token := [.ordinary "num" "1", .ordinary "space" " ", .ordinary "op" ",",
      .ordinary "space" " ", .ordinary "num" "2"]
    let left : List Token := [.ordinary "space" " ", .ordinary "op" ","]
    let tree : Tree := .node "Numbers"
      [.mk "values" .repeated [.token (.ordinary "num" "1"), .token (.ordinary "num" "2")]]
    let grammar := ofDeclarations [numbers]
    (grammar.parse (.rule "Numbers") .anyToken (.start (taken ++ left))).outcome =
        .matched tree ⟨5, left⟩ ∧
      ∃ account, grammar.Spans (.rule "Numbers") .anyToken tree account ∧
        account.tokens = taken := by
  intro numbers taken left tree grammar
  have matched : (grammar.parse (.rule "Numbers") .anyToken (.start (taken ++ left))).outcome =
      .matched tree ⟨5, left⟩ := by
    decide +kernel
  obtain ⟨_, _, _, account, spans, tokens⟩ := parse_accounts grammar (.rule "Numbers") .anyToken
    (.ofTokens (taken ++ left)) (by decide) matched
  exact ⟨matched, account, spans, tokens⟩

end Grammar
end TokenGrammar
