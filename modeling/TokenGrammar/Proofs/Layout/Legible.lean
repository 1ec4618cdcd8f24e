import TokenGrammar.Language.Basic
import TokenGrammar.Proofs.Layout.Lines
import TokenGrammar.Proofs.Rule.Compile

namespace TokenGrammar

/-! # Trees that can be told from their text

A tree on lines is told again line by line, from the first one on. The symbol that a tree is of
says what its first line is like, and the lines of a tree say themselves where they end: a block
or a list is closed by a line that is too short for anything else at its place. -/

/-- A token that its line tells: the type ends at the first space. -/
structure Token.Legible (read : Token) : Prop where
  present : read.isEnd = false
  type : '\n' ∉ read.type.toList
  value : '\n' ∉ read.value.toList
  spaceless : ' ' ∉ read.type.toList

/-- Names that can stand before what the fields of a rule hold, as distinct identifiers can. -/
structure Labels (names : List String) : Prop where
  whole : ∀ name ∈ names, '\n' ∉ name.toList
  colonless : ∀ name ∈ names, ':' ∉ name.toList
  distinct : names.Nodup

structure Declaration.Legible (declaration : Declaration) : Prop where
  name : '\n' ∉ declaration.name.toList
  labels : Labels (declaration.fields.map (·.name))

structure Descriptor.Legible (rule : Descriptor) : Prop where
  name : '\n' ∉ rule.name.toList
  labels : Labels (rule.fields.map (·.name))

namespace Labels

variable {name : String} {names others : List String}

theorem sublist (labels : Labels names) (fewer : others.Sublist names) : Labels others where
  whole name member := labels.whole name (fewer.subset member)
  colonless name member := labels.colonless name (fewer.subset member)
  distinct := labels.distinct.sublist fewer

theorem tail (labels : Labels (name :: names)) : Labels names :=
  labels.sublist (List.sublist_cons_self name names)

end Labels

theorem FieldDescriptor.Compiles.map_name {declared : List (FieldDeclaration × Nat)}
    {fields : List FieldDescriptor} (compiled : List.Forall₂ Compiles declared fields) :
    fields.map (·.name) = (declared.map (·.1)).map (·.name) := by
  induction compiled with
  | nil => rfl
  | cons made _ ih => rw [List.map_cons, List.map_cons, List.map_cons, ih, made.describes.name]

/-- A rule keeps the names of its declaration, but for that of its separator. -/
theorem Declaration.Legible.compile {declaration : Declaration} {rule : Descriptor}
    (legible : declaration.Legible) (compiled : declaration.compile = .ok rule) :
    rule.Legible := by
  obtain ⟨_, compiles⟩ := compiles_of_ok compiled
  have names := FieldDescriptor.Compiles.map_name compiles.fields.kept
  have kept := filter_zipIdx (! FieldDeclaration.isSeparator rule.combinator ·)
    declaration.fields 0
  constructor
  · rw [compiles.name]
    exact legible.name
  · simp only [names, kept]
    exact legible.labels.sublist (List.filter_sublist.map _)

namespace Grammar

mutual

/-- A tree that a symbol holds, in which every token is legible. Any field may be empty, and none
holds several trees unless it is repeated. -/
inductive Legible (grammar : Grammar) : Symbol → Tree → Prop
  | token {read : Token} (content : symbol.content = .token) (legible : read.Legible) :
      Legible grammar symbol (.token read)
  | mark (content : symbol.content = .mark) : Legible grammar symbol .mark
  | node (content : symbol.content = .rule name) (defined : grammar.find? name = some (.ok rule))
      (fields : LegibleFields grammar rule.fields slots) :
      Legible grammar symbol (.node rule.name slots)

inductive LegibleFields (grammar : Grammar) : List FieldDescriptor → List Slot → Prop
  | nil : LegibleFields grammar [] []
  | cons {field : FieldDescriptor} {trees : List Tree}
      (one : field.cardinality ≠ .repeated → trees.length ≤ 1)
      (values : ∀ tree ∈ trees, Legible grammar field.symbol tree)
      (more : LegibleFields grammar rest slots) :
      LegibleFields grammar (field :: rest) (.mk field.name field.cardinality trees :: slots)

end

theorem LegibleFields.of_cons {grammar : Grammar}
    (legible : grammar.LegibleFields (field :: rest) slots) :
    ∃ trees more, slots = .mk field.name field.cardinality trees :: more ∧
      (field.cardinality ≠ .repeated → trees.length ≤ 1) ∧
      (∀ tree ∈ trees, grammar.Legible field.symbol tree) ∧ grammar.LegibleFields rest more := by
  cases legible with
  | cons one values more => exact ⟨_, _, rfl, one, values, more⟩

def LegibleRules (grammar : Grammar) : Prop :=
  ∀ name rule, grammar.find? name = some (.ok rule) → rule.Legible

end Grammar

theorem Token.Legible.text_inj {left right : Token} (legible : left.Legible)
    (another : right.Legible)
    (same : "\x7b" ++ left.type ++ " " ++ left.value ++ "\x7d" =
      "\x7b" ++ right.type ++ " " ++ right.value ++ "\x7d") : left = right := by
  have texts := congrArg String.toList same
  simp only [String.toList_append, List.append_assoc] at texts
  obtain ⟨types, values⟩ :=
    (Text.cut_inj legible.spaceless another.spaceless).mp (List.cons.inj texts).2
  have value := String.toList_inj.mp (List.append_cancel_right values)
  have type := String.toList_inj.mp types
  cases left with
  | endOfInput => cases legible.present
  | ordinary leftType leftValue =>
      cases right with
      | endOfInput => cases another.present
      | ordinary rightType rightValue =>
          rw [show leftType = rightType from type, show leftValue = rightValue from value]

namespace Printer

variable {printer : Printer} {name other text written : String}

theorem label_unique (colonless : ':' ∉ name.toList) (another : ':' ∉ other.toList)
    (same : (printer.labelled name).lineText text = (printer.labelled other).lineText written) :
    name = other := by
  have texts := congrArg String.toList same
  simp only [toList_lineText, margin, labelled, Option.elim, List.append_assoc,
    List.cons_append, List.nil_append, List.append_cancel_left_eq] at texts
  exact String.toList_inj.mp ((Text.cut_inj colonless another).mp texts).1

/-- Whether a line is too short for anything but the end of what is open. -/
def Short (printer : Printer) (line : String) : Prop :=
  line.length < printer.depth * printer.width + 2

theorem Short.ne_lineText {line : String} (short : printer.Short line)
    (long : 2 ≤ text.length) : line ≠ printer.lineText text := by
  intro same
  rw [Short, same, length_lineText, margin, List.length_append, List.length_replicate] at short
  omega

theorem Short.ne_labelled {line : String} (short : printer.Short line) (name text : String) :
    line ≠ (printer.labelled name).lineText text := by
  intro same
  rw [Short, same, length_lineText] at short
  simp [margin, labelled] at short
  omega

theorem short_bracket (bare : printer.label = none) (one : text.length = 1) :
    printer.deeper.Short (printer.lineText text) := by
  rw [Short, length_lineText, length_margin_of_none bare, one]
  simp only [deeper]
  rw [Nat.add_mul]
  omega

end Printer

namespace Tree

variable {grammar : Grammar}

/-- What fields begin with does not begin with the name of another one. -/
theorem slotLines_ne_labelled {printer : Printer} {fields : List FieldDescriptor}
    {slots : List Slot} {rest : List String} (legible : grammar.LegibleFields fields slots)
    (labels : Labels (name :: fields.map (·.name))) (short : printer.Short close) :
    slotLines printer slots ++ close :: rest ≠
      (printer.labelled name).lineText text :: later := by
  induction fields generalizing slots with
  | nil =>
      cases legible
      intro same
      exact short.ne_labelled name text (List.cons.inj same).1
  | cons field fields ih =>
      rw [List.map_cons] at labels
      obtain ⟨trees, slots, rfl, _, _, more⟩ := legible.of_cons
      cases trees with
      | nil =>
          rw [slotLines]
          exact ih more (labels.sublist (.cons_cons _ (List.sublist_cons_self _ _)))
      | cons value trees =>
          obtain ⟨written, others, first⟩ :=
            slotLines_eq_cons printer field.name field.cardinality value trees slots
          rw [first]
          intro same
          have named := Printer.label_unique (labels.colonless field.name (by simp))
            (labels.colonless name (by simp)) (List.cons.inj same).1
          have distinct := labels.distinct
          simp [named] at distinct

mutual

/-- The lines of a tree tell the tree and where they end. -/
theorem lines_append_inj {rest others : List String} (rules : grammar.LegibleRules)
    (printer : Printer) (another : grammar.Legible symbol right) :
    ∀ left : Tree, grammar.Legible symbol left →
      left.lines printer ++ rest = right.lines printer ++ others → left = right ∧ rest = others
  | .token read, legible, same => by
      cases legible with
      | token content legible =>
          cases another with
          | mark other => cases content.symm.trans other
          | node other _ _ => cases content.symm.trans other
          | token _ another =>
              obtain ⟨first, later⟩ := List.cons.inj same
              have tokens := legible.text_inj another (Printer.lineText_inj.mp first)
              exact ⟨congrArg Tree.token tokens, later⟩
  | .mark, legible, same => by
      cases legible with
      | mark content =>
          cases another with
          | token other _ => cases content.symm.trans other
          | node other _ _ => cases content.symm.trans other
          | mark _ => exact ⟨rfl, (List.cons.inj same).2⟩
  | .node rule slots, legible, same => by
      cases legible with
      | node content defined fields =>
          cases another with
          | token other _ => cases content.symm.trans other
          | mark other => cases content.symm.trans other
          | node other redefined another =>
              cases content.symm.trans other
              cases defined.symm.trans redefined
              have labels := (rules _ _ defined).labels
              simp only [lines, List.cons_append, List.append_assoc, List.nil_append,
                List.cons.injEq, true_and] at same
              obtain ⟨rfl, rests⟩ := slotLines_append_inj rules printer.unlabelled.deeper rfl labels
                (Printer.short_bracket rfl rfl) another slots fields same
              exact ⟨rfl, rests⟩

theorem slotLines_append_inj {rest others : List String} (rules : grammar.LegibleRules)
    (printer : Printer) (bare : printer.label = none)
    (labels : Labels (fields.map (·.name))) (short : printer.Short close)
    (another : grammar.LegibleFields fields right) :
    ∀ left : List Slot, grammar.LegibleFields fields left →
      slotLines printer left ++ close :: rest = slotLines printer right ++ close :: others →
      left = right ∧ rest = others
  | [], legible, same => by
      cases legible
      cases another
      exact ⟨rfl, (List.cons.inj same).2⟩
  | .mk name cardinality [] :: left, legible, same => by
      cases legible with
      | cons _ _ more =>
          obtain ⟨trees, right, rfl, _, _, later⟩ := another.of_cons
          cases trees with
          | nil =>
              obtain ⟨rfl, rests⟩ :=
                slotLines_append_inj rules printer bare labels.tail short later left more same
              exact ⟨rfl, rests⟩
          | cons value trees =>
              -- What is left begins with the name of a later field, or closes the block.
              obtain ⟨text, next, first⟩ := slotLines_eq_cons printer _ _ value trees right
              rw [slotLines, first] at same
              cases slotLines_ne_labelled more labels short same
  | .mk name cardinality (value :: values) :: left, legible, same => by
      cases legible with
      | @cons _ _ field _ one legible more =>
          obtain ⟨trees, right, rfl, single, holds, later⟩ := another.of_cons
          cases trees with
          | nil =>
              obtain ⟨text, next, first⟩ := slotLines_eq_cons printer _ _ value values left
              rw [first, slotLines] at same
              cases slotLines_ne_labelled later labels short same.symm
          | cons other trees =>
              by_cases many : field.cardinality = .repeated
              -- The bracket that closes the list is not as deep as its items.
              · rw [many, slotLines_list (List.cons_ne_nil _ _),
                  slotLines_list (List.cons_ne_nil _ _)] at same
                simp only [List.cons_append, List.append_assoc, List.cons.injEq, true_and] at same
                obtain ⟨items, after⟩ := allLines_append_inj rules printer.deeper
                  (Printer.short_bracket bare rfl) holds (value :: values) legible same
                obtain ⟨rfl, rests⟩ :=
                  slotLines_append_inj rules printer bare labels.tail short later left more after
                exact ⟨by rw [items], rests⟩
              · have alone : values = [] := by simpa using one many
                have lonely : trees = [] := by simpa using single many
                rw [slotLines_field many, slotLines_field many, List.append_assoc,
                  List.append_assoc] at same
                obtain ⟨rfl, after⟩ := lines_append_inj rules (printer.labelled field.name)
                  (holds other (by simp)) value (legible value (by simp)) same
                obtain ⟨rfl, rests⟩ :=
                  slotLines_append_inj rules printer bare labels.tail short later left more after
                exact ⟨by rw [alone, lonely], rests⟩

theorem allLines_append_inj {rest others : List String} (rules : grammar.LegibleRules)
    (printer : Printer) (short : printer.Short close)
    {right : List Tree} (another : ∀ tree ∈ right, grammar.Legible symbol tree) :
    ∀ left : List Tree, (∀ tree ∈ left, grammar.Legible symbol tree) →
      allLines printer left ++ close :: rest = allLines printer right ++ close :: others →
      left = right ∧ rest = others
  | [], legible, same => by
      cases right with
      | nil => exact ⟨rfl, (List.cons.inj same).2⟩
      | cons other right =>
          obtain ⟨text, later, first, long⟩ := lines_eq_cons printer other
          rw [allLines, allLines, first] at same
          cases short.ne_lineText long (List.cons.inj same).1
  | tree :: left, legible, same => by
      cases right with
      | nil =>
          obtain ⟨text, later, first, long⟩ := lines_eq_cons printer tree
          rw [allLines, allLines, first] at same
          cases short.ne_lineText long (List.cons.inj same).1.symm
      | cons other right =>
          rw [List.forall_mem_cons] at legible another
          rw [allLines, allLines, List.append_assoc, List.append_assoc] at same
          obtain ⟨rfl, later⟩ := lines_append_inj rules printer another.1 tree legible.1 same
          obtain ⟨rfl, rests⟩ :=
            allLines_append_inj rules printer short another.2 left legible.2 later
          exact ⟨rfl, rests⟩

end

mutual

theorem lines_whole (rules : grammar.LegibleRules) (printer : Printer)
    (margin : '\n' ∉ printer.margin) : ∀ tree : Tree, grammar.Legible symbol tree →
      ∀ line ∈ tree.lines printer, '\n' ∉ line.toList
  | .token read, legible => by
      cases legible with
      | token _ legible =>
          rw [lines, List.forall_mem_singleton]
          exact Printer.lineText_whole margin (by simp [legible.type, legible.value])
  | .mark, _ => by
      rw [lines, List.forall_mem_singleton]
      exact Printer.lineText_whole margin (by decide)
  | .node rule slots, legible => by
      cases legible with
      | node _ defined fields =>
          have named := rules _ _ defined
          rw [lines, List.forall_mem_cons, List.forall_mem_append, List.forall_mem_singleton]
          refine ⟨Printer.lineText_whole margin (by simp [named.name]), ?_, ?_⟩
          · exact slotLines_whole rules printer.unlabelled.deeper rfl named.labels slots fields
          · exact Printer.lineText_whole (Printer.margin_whole rfl) (by decide)

theorem slotLines_whole (rules : grammar.LegibleRules) (printer : Printer)
    (bare : printer.label = none) (labels : Labels (fields.map (·.name))) :
    ∀ slots : List Slot, grammar.LegibleFields fields slots →
      ∀ line ∈ slotLines printer slots, '\n' ∉ line.toList
  | [], legible => by simp [slotLines]
  | .mk name cardinality [] :: slots, legible => by
      cases legible with
      | cons _ _ more =>
          rw [slotLines]
          exact slotLines_whole rules printer bare labels.tail slots more
  | .mk name cardinality (value :: values) :: slots, legible => by
      cases legible with
      | @cons _ _ field _ _ legible more =>
          have later := slotLines_whole rules printer bare labels.tail slots more
          have labelled := printer.labelled_whole (labels.whole field.name (by simp))
          by_cases many : field.cardinality = .repeated
          · have margin := Printer.margin_whole bare
            rw [many, slotLines_list (List.cons_ne_nil _ _), List.forall_mem_cons,
              List.forall_mem_append, List.forall_mem_cons]
            refine ⟨Printer.lineText_whole labelled (by decide), ?_, ?_, later⟩
            · exact allLines_whole rules printer.deeper (Printer.margin_whole bare)
                (value :: values) legible
            · exact Printer.lineText_whole margin (by decide)
          · rw [slotLines_field many, List.forall_mem_append]
            exact ⟨lines_whole rules _ labelled value (legible value (by simp)), later⟩

theorem allLines_whole (rules : grammar.LegibleRules) (printer : Printer)
    (margin : '\n' ∉ printer.margin) : ∀ trees : List Tree,
      (∀ tree ∈ trees, grammar.Legible symbol tree) →
        ∀ line ∈ allLines printer trees, '\n' ∉ line.toList
  | [], _ => by simp [allLines]
  | tree :: trees, legible => by
      rw [List.forall_mem_cons] at legible
      rw [allLines, List.forall_mem_append]
      exact ⟨lines_whole rules printer margin tree legible.1,
        allLines_whole rules printer margin trees legible.2⟩

end

end Tree

namespace Grammar

theorem legibleRules_of_declarations {declarations : List Declaration}
    (legible : ∀ declaration ∈ declarations, declaration.Legible) :
    (ofDeclarations declarations).LegibleRules := by
  intro name rule defined
  obtain ⟨declaration, member, _, compiled⟩ := mem_of_find defined
  exact (legible declaration member).compile compiled

/-- Pretty printing loses nothing of a tree: at any width, two trees of a symbol that have the same
text are the same. -/
theorem pretty_inj {declarations : List Declaration} {symbol : Symbol} {left right : Tree}
    (names : ∀ declaration ∈ declarations, declaration.Legible) (width : Nat)
    (legible : (ofDeclarations declarations).Legible symbol left)
    (another : (ofDeclarations declarations).Legible symbol right) :
    left.pretty width = right.pretty width ↔ left = right := by
  refine ⟨fun same => ?_, fun same => same ▸ rfl⟩
  have rules := legibleRules_of_declarations names
  have margin : '\n' ∉ (Printer.withWidth width).margin := Printer.margin_whole rfl
  rw [Tree.pretty_eq, Tree.pretty_eq, join_lines_inj (Tree.lines_whole rules _ margin left legible)
    (Tree.lines_whole rules _ margin right another)] at same
  have lines : left.lines (.withWidth width) ++ [] = right.lines (.withWidth width) ++ [] := by
    rw [same]
  exact (Tree.lines_append_inj rules _ another left legible lines).1

end Grammar
end TokenGrammar
