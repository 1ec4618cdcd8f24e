import TokenGrammar.Settings.Setting
import TokenGrammar.Text.Natural
import TokenGrammar.Text.Reader

namespace TokenGrammar

open Text (Reader)

namespace Setting

/-- A step from a setting to one that it holds. Positions below zero count from the end. -/
inductive Step where
  | key (name : String)
  | position (index : Int)
deriving DecidableEq, Repr

/-! Paths are written as names with dots between them; a position stands in brackets after what
holds it. -/

def isNameCharacter (c : Char) : Bool := c.isAlphanum || c == ' ' || c == '_' || c == '-'

def Step.readName : Reader Step := do
  let name ← Reader.span isNameCharacter
  if name.isEmpty then failure
  return key (String.ofList name)

/-- Reads a position, one of 64 bits. -/
def Step.readPosition : Reader Step := do
  let blank := fun c => c == ' ' || c == '\t'
  let _ ← Reader.span blank
  let negative ← Reader.accept '-'
  let count ← StateT.lift (Text.readDigits (← Reader.span Char.isDigit))
  let _ ← Reader.span blank
  let index := if negative then -Int.ofNat count else Int.ofNat count
  if -Nat.pow 2 63 ≤ index ∧ index < Nat.pow 2 63 then return position index else failure

/-- Reads the steps after the first. -/
def Step.readMore : Reader (List Step) :=
  Reader.many do
    if ← Reader.accept '.' then return some (← readName)
    if ← Reader.accept '[' then
      let step ← readPosition
      Reader.expect ']'
      return some step
    return none

/-- Reads a path. It begins with a name. -/
def path? (text : String) : Option (List Step) :=
  let reader : Reader (List Step) := do
    let first ← Step.readName
    return first :: (← Step.readMore)
  reader.readAll text.toList

/-- The place of a position among a number of items, which may be after them. Nothing is before
the first. -/
def place? (index : Int) (count : Nat) : Option Nat :=
  if 0 ≤ index then some index.toNat
  else if index.natAbs ≤ count then some (count - index.natAbs)
  else none

/-- Items with nothing after them up to a place, so that the place is one of them. -/
def padTo (place : Nat) (items : List Setting) : List Setting :=
  items ++ List.replicate (place + 1 - items.length) nothing

/-- Puts a setting at the end of a path. What is on the way and does not hold settings as the
path asks for is given up. -/
def assign (target : Setting) (path : List Step) (value : Setting) : Option Setting :=
  match path with
  | [] => some value
  | [.key name] => some (target.insert name value)
  | .key name :: path => do
    let held := (target.entries.lookup name).getD nothing
    return table (Entries.put name (← held.assign path value) target.entries)
  | .position index :: path => do
    let place ← place? index target.items.length
    let items := padTo place target.items
    return array (items.set place (← (items.getD place nothing).assign path value))

end Setting
end TokenGrammar
