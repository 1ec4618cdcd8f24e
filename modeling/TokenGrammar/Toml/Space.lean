import TokenGrammar.Text.Reader

namespace TokenGrammar.Toml

open Text (Reader)

/-! What stands between the parts of a document: spaces, comments and ends of lines. -/

def isSpace (c : Char) : Bool := c == ' ' || c == '\t'

/-- Characters that a comment may hold, and a string but for its own marks: no control
characters but tabs. -/
def isVisible (c : Char) : Bool := c == '\t' || (0x20 ≤ c.toNat && c.toNat != 0x7F)

def spaces : Reader Unit := do
  let _ ← Reader.span isSpace

/-- Takes a line feed, perhaps with a carriage return before it. -/
def newline? : Reader Bool := do
  match ← get with
  | '\n' :: rest => set rest; return true
  | '\r' :: '\n' :: rest => set rest; return true
  | _ => return false

def comment? : Reader Bool := do
  if ← Reader.accept '#' then
    let _ ← Reader.span isVisible
    return true
  else return false

/-- The end of a line, after spaces and perhaps a comment. The last line ends with the text. -/
def lineEnd : Reader Unit := do
  spaces
  let _ ← comment?
  unless ← newline? do
    unless ← Reader.atEnd do failure

/-- Space that may go over several lines. -/
def blanks : Reader Unit := do
  let _ ← Reader.many do
    if ← newline? then return some ()
    if ← comment? then return some ()
    if (← Reader.span isSpace).isEmpty then return none
    return some ()

end TokenGrammar.Toml
