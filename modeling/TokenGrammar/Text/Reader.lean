namespace TokenGrammar.Text

/-- A step of reading: what it yields, and the text after it. -/
abbrev Reader := StateT (List Char) Option

namespace Reader

/-- The next character, which stays. -/
def peek? : Reader (Option Char) := return (← get).head?

/-- Takes a character if it comes next. -/
def accept (c : Char) : Reader Bool := do
  match ← get with
  | other :: rest => if other = c then set rest; return true else return false
  | [] => return false

/-- Takes a character that has to come next. -/
def expect (c : Char) : Reader Unit := do
  unless ← accept c do failure

/-- Takes the longest run of characters of a kind. -/
def span (kind : Char → Bool) : Reader (List Char) := do
  let text ← get
  set (text.dropWhile kind)
  return text.takeWhile kind

/-- Takes a number of characters. -/
def take (count : Nat) : Reader (List Char) := do
  let text ← get
  if text.length < count then failure
  set (text.drop count)
  return text.take count

def atEnd : Reader Bool := return (← get).isEmpty

/-- Reads at most `bound` items, until there is none. -/
def manyWithin (item : Reader (Option α)) : Nat → Reader (List α)
  | 0 => return []
  | bound + 1 => do
    match ← item with
    | some value => return value :: (← manyWithin item bound)
    | none => return []

/-- Reads items until there is none. An item takes a character at least, so that there are no
more of them than characters. -/
def many (item : Reader (Option α)) : Reader (List α) := do
  manyWithin item (← get).length

/-- What a whole text reads as. -/
def readAll (reader : Reader α) (text : List Char) : Option α :=
  match reader.run text with
  | some (value, []) => some value
  | _ => none

end Reader
end TokenGrammar.Text
