import TokenGrammar.Text.Natural
import TokenGrammar.Toml.Space

namespace TokenGrammar.Toml

open Text (Reader)

/-! Strings in quotes. Single quotes take text as it is, double quotes know escapes; three quotes
open a string of several lines. -/

/-- Reads what follows a backslash. -/
def escape : Reader Char := do
  match ← Reader.take 1 with
  | ['b'] => return '\x08'
  | ['t'] => return '\t'
  | ['n'] => return '\n'
  | ['f'] => return '\x0c'
  | ['r'] => return '\r'
  | ['"'] => return '"'
  | ['\\'] => return '\\'
  | ['u'] => StateT.lift (Text.codePoint? (← Reader.take 4))
  | ['U'] => StateT.lift (Text.codePoint? (← Reader.take 8))
  | _ => failure

/-- A character of a string on one line, if the string does not end. -/
def lineCharacter? (quote : Char) : Reader (Option Char) := do
  if (← Reader.peek?) = some quote then return none
  match ← Reader.take 1 with
  | [c] =>
    if c = '\\' ∧ quote = '"' then return some (← escape)
    else if isVisible c then return some c
    else failure
  | _ => failure

/-- The rest of a string on one line. -/
def lineString (quote : Char) : Reader (List Char) := do
  let text ← Reader.many (lineCharacter? quote)
  Reader.expect quote
  return text

/-- The number of quotes that come next, as far as it matters. -/
def quoteRun (quote : Char) : Reader Nat :=
  return ((← get).takeWhile (· == quote)).take 5 |>.length

/-- Takes the end of a line after a backslash, and all space before the next text. -/
def continuation? : Reader Bool := do
  let text ← get
  spaces
  if ← newline? then
    let _ ← Reader.many do
      if ← newline? then return some ()
      if (← Reader.span isSpace).isEmpty then return none
      return some ()
    return true
  else
    set text
    return false

/-- A piece of a string of several lines, if the string does not end. An end of a line is a line
feed, whatever its form. -/
def blockPiece? (quote : Char) : Reader (Option (List Char)) := do
  let run ← quoteRun quote
  if 3 ≤ run then return none
  if 0 < run then return some (← Reader.take run)
  if ← newline? then return some ['\n']
  match ← Reader.take 1 with
  | [c] =>
    if c = '\\' ∧ quote = '"' then
      if ← continuation? then return some []
      else return some [← escape]
    else if isVisible c then return some [c]
    else failure
  | _ => failure

/-- The rest of a string of several lines. A line feed at its start is no part of it; up to two
quotes before its end are. -/
def blockString (quote : Char) : Reader (List Char) := do
  let _ ← newline?
  let pieces ← Reader.many (blockPiece? quote)
  let run ← quoteRun quote
  if run < 3 then failure
  return pieces.flatten ++ (← Reader.take run).drop 3

/-- Takes a character three times, or not at all. -/
def triple? (quote : Char) : Reader Bool := do
  if 3 ≤ (← quoteRun quote) then
    let _ ← Reader.take 3
    return true
  else return false

def quotedString (quote : Char) : Reader String := do
  if ← triple? quote then return String.ofList (← blockString quote)
  Reader.expect quote
  return String.ofList (← lineString quote)

end TokenGrammar.Toml
