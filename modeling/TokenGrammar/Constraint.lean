import TokenGrammar.Token
import TokenGrammar.Text.Split

namespace TokenGrammar

/-- One way to accept a token: by its type, by its value, or by both. A lookahead pattern leaves
the token it accepts where it is. -/
structure TokenPattern where
  type : Option String
  value : Option String
  lookahead : Bool
deriving DecidableEq, Repr

namespace TokenPattern

def ofType (type : String) : TokenPattern := ⟨some type, none, false⟩

def ofValue (type value : String) : TokenPattern := ⟨some type, some value, false⟩

/-- The end of the input satisfies no pattern, whatever its texts. -/
def accepts (pattern : TokenPattern) (token : Token) : Bool :=
  !token.isEnd && pattern.type.all (· == token.type) && pattern.value.all (· == token.value)

/-- Two patterns ask for the same token when they differ in lookahead only. -/
def sameToken (left right : TokenPattern) : Bool :=
  left.type == right.type && left.value == right.value

def describe (pattern : TokenPattern) : String :=
  match pattern.value, pattern.type with
  | some value, _ => "value " ++ Text.quoted value
  | none, some type => "type " ++ type
  | none, none => "any token"

@[simp] theorem accepts_endOfInput (pattern : TokenPattern) :
    pattern.accepts .endOfInput = false := rfl

end TokenPattern

/-- What a field asks of its token: one of several patterns. Without patterns it asks for any
token. -/
structure Constraint where
  patterns : List TokenPattern
deriving DecidableEq, Repr

namespace Constraint

/-- Asks for any token. -/
def anyToken : Constraint := ⟨[]⟩

instance : Inhabited Constraint := ⟨anyToken⟩

def isEmpty (constraint : Constraint) : Bool := constraint.patterns.isEmpty

/-- The first pattern that the token satisfies. -/
def find? (constraint : Constraint) (token : Token) : Option TokenPattern :=
  constraint.patterns.find? (·.accepts token)

def describe (constraint : Constraint) : String :=
  if constraint.isEmpty then "any token"
  else Text.joinWith " | " <| constraint.patterns.map fun pattern =>
    pattern.describe ++ if pattern.lookahead then " (lookahead)" else ""

@[simp] theorem isEmpty_anyToken : anyToken.isEmpty = true := rfl

@[simp] theorem find?_endOfInput (constraint : Constraint) :
    constraint.find? .endOfInput = none := by
  simp [find?]

end Constraint
end TokenGrammar
