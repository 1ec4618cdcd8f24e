import TokenGrammar.Pattern.Reader

namespace TokenGrammar

/-- What a regular expression tells of its first match in a text: where the match ends, in bytes
from the start of the text, and which named groups took part in it. -/
structure Captures where
  stop : Nat
  groups : List String
deriving DecidableEq, Repr

/-- A compiled regular expression, by what it finds in a text. -/
abbrev Regex := List Char → Option Captures

/-- A library of regular expressions compiles the text of one, or tells why it cannot. A lexer asks
nothing else of it. -/
abbrev RegexLibrary := String → Except String Regex

namespace Pattern

def captures (pattern : Pattern) : Regex := fun text =>
  (pattern.search text).map fun spot => ⟨spot.bytes, spot.names⟩

/-- The library of the patterns that are defined here. -/
def library : RegexLibrary := fun text =>
  match ofText text.toList with
  | .ok pattern => .ok pattern.captures
  | .error error => .error error.message

end Pattern
end TokenGrammar
