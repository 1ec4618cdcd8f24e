namespace TokenGrammar

/-- Why a text has no tokens. Offsets count bytes. -/
inductive LexError where
  /-- A pattern cannot be read. -/
  | pattern (reason : String)
  | noDefinitions
  /-- A definition enters a mode that has no definitions. -/
  | unknownMode (mode : String)
  | noMatch (offset : Nat)
  /-- A token would take no text. -/
  | emptyMatch (offset : Nat)
  /-- A definition leaves a mode that was not entered. -/
  | noModeToPop (offset : Nat)
deriving DecidableEq, Repr

namespace LexError

def message : LexError → String
  | pattern reason => "invalid token pattern: " ++ reason
  | noDefinitions => "no token definitions"
  | unknownMode mode => "unknown lexical mode '" ++ mode ++ "'"
  | noMatch offset => "invalid input at byte " ++ toString offset
  | emptyMatch offset => "empty token at byte " ++ toString offset
  | noModeToPop offset => "no mode to pop at byte " ++ toString offset

def offset? : LexError → Option Nat
  | noMatch offset | emptyMatch offset | noModeToPop offset => some offset
  | _ => none

end LexError
end TokenGrammar
