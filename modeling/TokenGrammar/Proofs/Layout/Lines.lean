import Mathlib.Data.List.Basic
import TokenGrammar.Layout
import TokenGrammar.Text.Space

namespace TokenGrammar

/-! # The lines of a tree

A tree is written line by line, by a recursion that follows the tree. Each line is indented and may
begin with the name of a field; no line has a line feed if no name and no token has one. -/

namespace Printer

variable (printer : Printer)

def labelled (name : String) : Printer := { printer with label := some name }

def unlabelled : Printer := { printer with label := none }

/-- What a line begins with. -/
def margin : List Char :=
  List.replicate (printer.depth * printer.width) ' ' ++
    printer.label.elim [] fun name => name.toList ++ [':', ' ']

theorem toList_lineText (text : String) :
    (printer.lineText text).toList = printer.margin ++ text.toList := by
  cases labelled : printer.label with
  | none => simp [lineText, margin, labelled, Text.toList_pushn]
  | some name => simp [lineText, margin, labelled, Text.toList_pushn]

variable {printer} {name text written : String}

theorem lineText_inj : printer.lineText text = printer.lineText written ↔ text = written := by
  rw [← String.toList_inj, toList_lineText, toList_lineText, List.append_cancel_left_eq,
    String.toList_inj]

theorem length_lineText (printer : Printer) (text : String) :
    (printer.lineText text).length = printer.margin.length + text.length := by
  rw [← String.length_toList, toList_lineText, List.length_append, String.length_toList]

theorem length_margin_of_none (bare : printer.label = none) :
    printer.margin.length = printer.depth * printer.width := by
  simp [margin, bare]

theorem margin_whole (bare : printer.label = none) : '\n' ∉ printer.margin := by
  simp [margin, bare]

theorem labelled_whole (printer : Printer) (whole : '\n' ∉ name.toList) :
    '\n' ∉ (printer.labelled name).margin := by
  simp [margin, labelled, whole]

theorem lineText_whole (margin : '\n' ∉ printer.margin) (whole : '\n' ∉ text.toList) :
    '\n' ∉ (printer.lineText text).toList := by
  rw [toList_lineText, List.mem_append, not_or]
  exact ⟨margin, whole⟩

end Printer

namespace Tree

mutual

/-- The lines of a tree. -/
def lines (printer : Printer) : Tree → List String
  | .token read => [printer.lineText ("\x7b" ++ read.type ++ " " ++ read.value ++ "\x7d")]
  | .mark => [printer.lineText "\x7b\x7d"]
  | .node rule slots =>
    printer.lineText (rule ++ " \x7b") ::
      (slotLines printer.unlabelled.deeper slots ++ [printer.unlabelled.lineText "\x7d"])

/-- The lines of the fields of a node. -/
def slotLines (printer : Printer) : List Slot → List String
  | [] => []
  | .mk _ _ [] :: rest => slotLines printer rest
  | .mk name .repeated values :: rest =>
    (printer.labelled name).lineText "[" ::
      (allLines printer.deeper values ++ printer.lineText "]" :: slotLines printer rest)
  | .mk name _ (value :: _) :: rest => lines (printer.labelled name) value ++ slotLines printer rest

/-- The lines of the items of a list. -/
def allLines (printer : Printer) : List Tree → List String
  | [] => []
  | tree :: rest => lines printer tree ++ allLines printer rest

end

end Tree

namespace Printer

variable {printer middle after : Printer} {lines more : List String}

theorem shallower_deeper (printer : Printer) : printer.deeper.shallower = printer := by
  simp [deeper, shallower]

theorem writeAll_cons {part : Layout} (head : printer.write part = ⟨lines, true, middle⟩)
    (tail : middle.writeAll parts = ⟨more, true, after⟩) :
    printer.writeAll (part :: parts) = ⟨lines ++ more, true, after⟩ := by
  simp only [writeAll, head, tail, if_true]

theorem writeAll_append {first second : List Layout}
    (head : printer.writeAll first = ⟨lines, true, middle⟩)
    (tail : middle.writeAll second = ⟨more, true, after⟩) :
    printer.writeAll (first ++ second) = ⟨lines ++ more, true, after⟩ := by
  induction first generalizing printer lines with
  | nil =>
      cases head
      exact tail
  | cons part parts ih =>
      rcases written : printer.write part with ⟨start, complete, reached⟩
      cases complete with
      | false => simp [writeAll, written] at head
      | true =>
          simp only [writeAll, written, if_true, Written.mk.injEq] at head
          obtain ⟨rfl, complete, reaches⟩ := head
          rw [List.cons_append, List.append_assoc]
          exact writeAll_cons written (ih (by rw [← complete, ← reaches]))

theorem write_list {items : List Layout}
    (inner : printer.unlabelled.deeper.writeAll items =
      ⟨lines, true, printer.unlabelled.deeper⟩) (name : String) :
    printer.write (.list name items) =
      ⟨(printer.labelled name).lineText "[" :: lines ++ [printer.unlabelled.lineText "]"], true,
        printer.unlabelled⟩ := by
  have opened : (line { printer with label := some name } "[").printer = printer.unlabelled := rfl
  simp only [write, opened, inner, if_true, shallower_deeper]
  rfl

end Printer

namespace Tree

variable {cardinality : Cardinality} {values : List Tree}

theorem slotLayouts_list (present : values ≠ []) (name : String) (rest : List Slot) :
    slotLayouts (.mk name .repeated values :: rest) =
      .list name (layouts values) :: slotLayouts rest := by
  rw [slotLayouts]
  exact present

theorem slotLayouts_field (one : cardinality ≠ .repeated) (name : String) (value : Tree)
    (values : List Tree) (rest : List Slot) :
    slotLayouts (.mk name cardinality (value :: values) :: rest) =
      .field name value.layout :: slotLayouts rest := by
  rw [slotLayouts]
  exact one

theorem slotLines_list (present : values ≠ []) (printer : Printer) (name : String)
    (rest : List Slot) :
    slotLines printer (.mk name .repeated values :: rest) =
      (printer.labelled name).lineText "[" ::
        (allLines printer.deeper values ++ printer.lineText "]" :: slotLines printer rest) := by
  rw [slotLines]
  exact present

theorem slotLines_field (one : cardinality ≠ .repeated) (printer : Printer) (name : String)
    (value : Tree) (values : List Tree) (rest : List Slot) :
    slotLines printer (.mk name cardinality (value :: values) :: rest) =
      lines (printer.labelled name) value ++ slotLines printer rest := by
  rw [slotLines]
  exact one

mutual

/-- Every tree can be written to its end, which uses up the name that waits. -/
theorem write_layout : ∀ (printer : Printer) (tree : Tree),
    printer.write tree.layout = ⟨tree.lines printer, true, printer.unlabelled⟩
  | printer, .token read => rfl
  | printer, .mark => rfl
  | printer, .node rule slots => by
      have opened : printer.write (.openBlock rule) =
          ⟨[printer.lineText (rule ++ " \x7b")], true, printer.unlabelled.deeper⟩ := rfl
      have closed : printer.unlabelled.deeper.writeAll [.closeBlock] =
          ⟨[printer.unlabelled.lineText "\x7d"], true, printer.unlabelled⟩ := rfl
      have inner := writeAll_slotLayouts printer.deeper slots
      rw [layout, Printer.write, List.cons_append]
      exact Printer.writeAll_cons opened (Printer.writeAll_append inner closed)

theorem writeAll_slotLayouts : ∀ (printer : Printer) (slots : List Slot),
    printer.unlabelled.writeAll (slotLayouts slots) =
      ⟨slotLines printer.unlabelled slots, true, printer.unlabelled⟩
  | _, [] => rfl
  | printer, .mk name cardinality [] :: rest => by
      rw [slotLayouts, slotLines, writeAll_slotLayouts printer rest]
  | printer, .mk name cardinality (value :: values) :: rest => by
      have later := writeAll_slotLayouts printer rest
      by_cases many : cardinality = .repeated
      · have inner := writeAll_layouts printer.deeper (value :: values)
        have all := Printer.writeAll_cons (Printer.write_list inner name) later
        rw [many, slotLayouts_list (List.cons_ne_nil _ _), slotLines_list (List.cons_ne_nil _ _)]
        rw [List.append_assoc] at all
        exact all
      · have written := write_layout (printer.labelled name) value
        rw [slotLayouts_field many, slotLines_field many]
        exact Printer.writeAll_cons written later

theorem writeAll_layouts : ∀ (printer : Printer) (trees : List Tree),
    printer.unlabelled.writeAll (layouts trees) =
      ⟨allLines printer.unlabelled trees, true, printer.unlabelled⟩
  | _, [] => rfl
  | printer, tree :: rest =>
      Printer.writeAll_cons (write_layout printer.unlabelled tree) (writeAll_layouts printer rest)

end

/-- The first line of a tree, whichever it is, is not too short. -/
theorem lines_eq_cons (printer : Printer) (tree : Tree) :
    ∃ text later, tree.lines printer = printer.lineText text :: later ∧ 2 ≤ text.length := by
  cases tree with
  | token read =>
      refine ⟨_, [], rfl, ?_⟩
      simp only [String.length_append]
      have opening : "\x7b".length = 1 := rfl
      have closing : "\x7d".length = 1 := rfl
      omega
  | mark => exact ⟨_, [], rfl, Nat.le_refl 2⟩
  | node rule slots =>
      refine ⟨_, _, rfl, ?_⟩
      rw [String.length_append]
      exact Nat.le_add_left 2 _

theorem slotLines_eq_cons (printer : Printer) (name : String) (cardinality : Cardinality)
    (value : Tree) (values : List Tree) (rest : List Slot) :
    ∃ text later, slotLines printer (.mk name cardinality (value :: values) :: rest) =
      (printer.labelled name).lineText text :: later := by
  by_cases many : cardinality = .repeated
  · rw [many, slotLines_list (List.cons_ne_nil _ _)]
    exact ⟨_, _, rfl⟩
  · obtain ⟨text, later, first, _⟩ := lines_eq_cons (printer.labelled name) value
    rw [slotLines_field many, first]
    exact ⟨_, _, rfl⟩

theorem pretty_eq (width : Nat) (tree : Tree) :
    tree.pretty width = String.join ((tree.lines (.withWidth width)).map (· ++ "\n")) := by
  rw [pretty, Layout.render, write_layout, Written.text]

end Tree

/-- Where a separator is first is where a text is cut. -/
theorem Text.cut_inj {separator : Char} {left right rest others : List Char}
    (leftWhole : separator ∉ left) (rightWhole : separator ∉ right) :
    left ++ separator :: rest = right ++ separator :: others ↔ left = right ∧ rest = others := by
  induction left generalizing right with
  | nil =>
      cases right with
      | nil => simp
      | cons c right =>
          have other : separator ≠ c := (List.ne_and_not_mem_of_not_mem_cons rightWhole).1
          simp [other]
  | cons c left ih =>
      cases right with
      | nil =>
          have other : separator ≠ c := (List.ne_and_not_mem_of_not_mem_cons leftWhole).1
          simp [other.symm]
      | cons d right =>
          have later := ih (List.not_mem_of_not_mem_cons leftWhole)
            (List.not_mem_of_not_mem_cons rightWhole)
          simp [later, and_assoc]

theorem toList_join_lines (line : String) (rest : List String) :
    (String.join ((line :: rest).map (· ++ "\n"))).toList =
      line.toList ++ '\n' :: (String.join (rest.map (· ++ "\n"))).toList := by
  rw [List.map_cons, String.join_cons, String.toList_append, String.toList_append,
    List.append_assoc]
  rfl

/-- A text that is made of whole lines tells them. -/
theorem join_lines_inj {left right : List String}
    (leftWhole : ∀ line ∈ left, '\n' ∉ line.toList)
    (rightWhole : ∀ line ∈ right, '\n' ∉ line.toList) :
    String.join (left.map (· ++ "\n")) = String.join (right.map (· ++ "\n")) ↔ left = right := by
  refine ⟨fun same => ?_, fun same => same ▸ rfl⟩
  have texts := congrArg String.toList same
  induction left generalizing right with
  | nil =>
      cases right with
      | nil => rfl
      | cons other right =>
          rw [toList_join_lines] at texts
          cases (List.append_ne_nil_of_right_ne_nil _ (List.cons_ne_nil _ _)) texts.symm
  | cons line left ih =>
      cases right with
      | nil =>
          rw [toList_join_lines] at texts
          cases (List.append_ne_nil_of_right_ne_nil _ (List.cons_ne_nil _ _)) texts
      | cons other right =>
          rw [List.forall_mem_cons] at leftWhole rightWhole
          rw [toList_join_lines, toList_join_lines] at texts
          obtain ⟨first, later⟩ := (Text.cut_inj leftWhole.1 rightWhole.1).mp texts
          rw [String.toList_inj] at first
          rw [first, ih leftWhole.2 rightWhole.2 (String.toList_inj.mp later) later]

end TokenGrammar
