import TokenGrammar.Tree

namespace TokenGrammar

/-! Trees on indented lines.

A node shows its name and a braced block with a line for each field that holds something. A
repeated field is a bracketed list. A token shows its type and value in braces, a mark shows
empty braces. -/

/-- What is to be written. A field puts its name before the first line of what it holds. -/
inductive Layout where
  | leaf (text : String)
  | openBlock (name : String)
  | closeBlock
  | field (name : String) (content : Layout)
  | list (name : String) (items : List Layout)
  | group (parts : List Layout)
  /-- Something that cannot be written. -/
  | unwritable

instance : Inhabited Layout := ⟨.unwritable⟩

/-- How wide one level of indentation is, how many levels are open, and the name that waits for
the next line. -/
structure Printer where
  width : Nat := 2
  depth : Nat := 0
  label : Option String := none
deriving DecidableEq, Repr

/-- The lines of a layout. Writing stops at the first part that cannot be written. -/
structure Written where
  lines : List String
  complete : Bool
  printer : Printer
deriving DecidableEq, Repr

namespace Printer

def withWidth (width : Nat) : Printer := { width }

/-- The text of one line. -/
def lineText (printer : Printer) (text : String) : String :=
  "".pushn ' ' (printer.depth * printer.width)
    ++ (printer.label.elim "" (· ++ ": ")) ++ text

/-- One line. The name that waits is used up. -/
def line (printer : Printer) (text : String) : Written :=
  ⟨[printer.lineText text], true, { printer with label := none }⟩

def deeper (printer : Printer) : Printer := { printer with depth := printer.depth + 1 }

/-- One level back, or the outermost level again. -/
def shallower (printer : Printer) : Printer := { printer with depth := printer.depth - 1 }

mutual

def write (printer : Printer) : Layout → Written
  | .leaf text => printer.line text
  | .openBlock name =>
    let opened := printer.line (name ++ " \x7b")
    { opened with printer := opened.printer.deeper }
  | .closeBlock => printer.shallower.line "\x7d"
  | .field name content => write { printer with label := some name } content
  | .list name items =>
    let opened := { printer with label := some name }.line "["
    let inner := writeAll opened.printer.deeper items
    if inner.complete then
      let closed := inner.printer.shallower.line "]"
      ⟨opened.lines ++ inner.lines ++ closed.lines, true, closed.printer⟩
    else ⟨opened.lines ++ inner.lines, false, inner.printer⟩
  | .group parts => writeAll printer parts
  | .unwritable => ⟨[], false, printer⟩

def writeAll (printer : Printer) : List Layout → Written
  | [] => ⟨[], true, printer⟩
  | part :: parts =>
    let first := write printer part
    if first.complete then
      let rest := writeAll first.printer parts
      ⟨first.lines ++ rest.lines, rest.complete, rest.printer⟩
    else first

end

end Printer

/-- The text of lines, each with its end. -/
def Written.text (written : Written) : String :=
  String.join (written.lines.map (· ++ "\n"))

namespace Layout

/-- The text of a layout, as far as it can be written. -/
def render (width : Nat) (layout : Layout) : Written :=
  (Printer.withWidth width).write layout

/-- What is logged when a layout cannot be written to its end. -/
def stoppedEarly : String :=
  "pretty printing stopped early: an error occurred when formatting an argument"

end Layout

namespace Tree

mutual

def layout : Tree → Layout
  | .token read => .leaf ("\x7b" ++ read.type ++ " " ++ read.value ++ "\x7d")
  | .mark => .leaf "\x7b\x7d"
  | .node rule slots => .group (.openBlock rule :: slotLayouts slots ++ [.closeBlock])

/-- The fields of a node that hold something. -/
def slotLayouts : List Slot → List Layout
  | [] => []
  | .mk _ _ [] :: rest => slotLayouts rest
  | .mk name .repeated values :: rest => .list name (layouts values) :: slotLayouts rest
  | .mk name _ (value :: _) :: rest => .field name (layout value) :: slotLayouts rest

def layouts : List Tree → List Layout
  | [] => []
  | tree :: rest => layout tree :: layouts rest

end

/-- The tree on lines that are indented by multiples of a width. -/
def pretty (width : Nat) (tree : Tree) : String := (tree.layout.render width).text

def defaultWidth : Nat := 2

end Tree
end TokenGrammar
