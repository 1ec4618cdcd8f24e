import TokenGrammar.Grammar.Basic

namespace TokenGrammar

/-! # What becomes of the tokens that a parse consumes

Each token is dropped by a filter, belongs to a separator or is kept as a leaf of the tree. How
these follow each other is told by recursion over the tree, and apart from the parsers. -/

inductive Use where
  | dropped
  | separating
  | kept
deriving DecidableEq, Repr

/-- The tokens that a parse consumes, in order, each with what becomes of it. -/
abbrev Account := List (Use × Token)

namespace Account

def tokens (account : Account) : List Token := account.map (·.2)

def all (use : Use) (tokens : List Token) : Account := tokens.map (use, ·)

/-- The account of a separator. Its tree is thrown away, so that none of its tokens is kept. -/
def ofSeparator (account : Account) : Account :=
  account.map fun entry => if entry.1 = .kept then (.separating, entry.2) else entry

@[simp] theorem all_nil (use : Use) : all use [] = [] := rfl

@[simp] theorem tokens_append (first second : Account) :
    tokens (first ++ second) = first.tokens ++ second.tokens := by
  simp only [tokens, List.map_append]

@[simp] theorem tokens_all (use : Use) (taken : List Token) : (all use taken).tokens = taken := by
  simp [tokens, all, Function.comp_def]

@[simp] theorem tokens_ofSeparator (account : Account) :
    (ofSeparator account).tokens = account.tokens := by
  simp only [tokens, ofSeparator, List.map_map]
  congr 1
  funext entry
  simp only [Function.comp_apply]
  split <;> rfl

end Account

namespace Constraint

/-- A filter drops tokens that satisfy one of its patterns. -/
def Drops (drop : Constraint) (tokens : List Token) : Prop :=
  ∀ token ∈ tokens, (drop.find? token).isSome = true

/-- A constraint takes a token that satisfies it, or leaves it if that is only looked at. -/
inductive Takes (constraint : Constraint) : Token → List Token → Prop
  | any (unconstrained : constraint.isEmpty = true) (present : token.isEnd = false) :
      Takes constraint token [token]
  | consumed (found : constraint.find? token = some pattern)
      (consuming : pattern.lookahead = false) : Takes constraint token [token]
  | seen (found : constraint.find? token = some pattern) (looking : pattern.lookahead = true) :
      Takes constraint token []

end Constraint

/-- What comes before a repetition of a field: the separator of the field if it has one, unless
the repetition is the first. -/
inductive FieldDescriptor.Separates (drop : Constraint) (field : FieldDescriptor) (count : Nat) :
    Account → Prop
  | plain (plain : count = 0 ∨ field.separator.isEmpty = true) : Separates drop field count []
  | separated (later : count ≠ 0) (present : field.separator.isEmpty = false)
      (drops : drop.Drops dropped) (takes : field.separator.Takes token taken) :
      Separates drop field count (.all .dropped dropped ++ .all .separating taken)

mutual

/-- The account of a symbol that has been read as a tree. -/
inductive Grammar.Spans (grammar : Grammar) : Symbol → Constraint → Tree → Account → Prop
  | token (takes : constraint.Takes token taken) :
      Spans grammar .token constraint (.token token) (.all .kept taken)
  | mark (takes : constraint.Takes token taken) :
      Spans grammar .mark constraint .mark (.all .kept taken)
  | boxed (content : Grammar.Spans grammar symbol constraint tree account) :
      Spans grammar (.boxed symbol) constraint tree account
  | sequence {guard : Constraint} (defined : grammar.find? name = some (.ok rule))
      (combinator : rule.combinator = .seq)
      (fields : Grammar.SpansFields grammar rule rule.fields 0 slots account) :
      Spans grammar (.rule name) guard (.node rule.name slots) account
  | choice {guard : Constraint} (defined : grammar.find? name = some (.ok rule))
      (combinator : rule.combinator = .oneOf) (drops : rule.drop.Drops dropped)
      (split : rule.fields = before ++ field :: after)
      (items : Grammar.SpansItems grammar .nothing field 0 0 trees account)
      (present : trees ≠ []) :
      Spans grammar (.rule name) guard
        (.node rule.name
          (before.map (·.slot []) ++ field.slot trees :: after.map (·.slot [])))
        (.all .dropped dropped ++ account)

/-- The account of the fields of a sequence with a number of items before them. -/
inductive Grammar.SpansFields (grammar : Grammar) :
    Descriptor → List FieldDescriptor → Nat → List Slot → Account → Prop
  | nil : SpansFields grammar rule [] before [] []
  | cons (items : Grammar.SpansItems grammar (.ofRule rule) field before 0 trees first)
      (more : Grammar.SpansFields grammar rule rest (before + trees.length) slots second) :
      SpansFields grammar rule (field :: rest) before (field.slot trees :: slots) (first ++ second)

/-- The account of the items of a field with a number of items before the field, from one of
them on. Nothing follows the last. -/
inductive Grammar.SpansItems (grammar : Grammar) :
    Gap → FieldDescriptor → Nat → Nat → List Tree → Account → Prop
  | nil : SpansItems grammar between field before count [] []
  | cons (separates : field.Separates between.drop count separator)
      (gap : Grammar.SpansGap grammar between (before + count) lead)
      (content : Grammar.Spans grammar field.symbol field.tokens tree own)
      (more : Grammar.SpansItems grammar between field before (count + 1) trees rest) :
      SpansItems grammar between field before count (tree :: trees)
        (separator ++ lead ++ own ++ rest)

/-- The account of what lies before an item with a number of items before it. -/
inductive Grammar.SpansGap (grammar : Grammar) : Gap → Nat → Account → Prop
  | plain (plain : between.separator = none ∨ before = 0) (drops : between.drop.Drops dropped) :
      SpansGap grammar between before (.all .dropped dropped)
  | separated (present : between.separator = some field) (later : before ≠ 0)
      (drops : between.drop.Drops dropped)
      (separator : Grammar.SpansSeparator grammar field taken)
      (dropsAgain : between.drop.Drops droppedAgain) :
      SpansGap grammar between before
        (.all .dropped dropped ++ taken ++ .all .dropped droppedAgain)

/-- The account of the separator of a sequence, which may be missing if it is optional. -/
inductive Grammar.SpansSeparator (grammar : Grammar) : FieldDescriptor → Account → Prop
  | present (content : Grammar.Spans grammar field.symbol field.tokens tree account) :
      SpansSeparator grammar field account.ofSeparator
  | leftOut (optional : field.cardinality = .optional) : SpansSeparator grammar field []

end

end TokenGrammar
