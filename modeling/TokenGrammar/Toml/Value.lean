import TokenGrammar.Number.Binary64

namespace TokenGrammar.Toml

/-- How a table came about. This decides what may be added to it later. -/
inductive Origin where
  /-- Written in braces, and complete with them. -/
  | braces
  /-- Named by a header, or the document itself. -/
  | header
  /-- Not written itself, but by the header of a table inside it. -/
  | path
  /-- Made by dots in a key. -/
  | dots
deriving DecidableEq, Repr

/-- A value of a document. -/
inductive Value where
  | bool (value : Bool)
  | integer (value : Int)
  | float (value : Binary64)
  | string (value : String)
  /-- A date or a time of day, as it is written. -/
  | moment (text : String)
  | array (items : List Value)
  /-- Tables under one header that occurs several times. -/
  | tables (earlier : List Value) (last : Value)
  | table (origin : Origin) (entries : List (String × Value))

end TokenGrammar.Toml
