import TokenGrammar.Text.Quoted

namespace TokenGrammar

/-- What a parser reads: a type and a text, both opaque to it, or the mark past the last
token. The mark shows itself as type and value `EOF` and differs from the ordinary token with
those two texts. -/
inductive Token where
  | ordinary (type value : String)
  | endOfInput
deriving DecidableEq, Repr

namespace Token

instance : Inhabited Token := ⟨ordinary "" ""⟩

def type : Token → String
  | ordinary type _ => type
  | endOfInput => "EOF"

def value : Token → String
  | ordinary _ value => value
  | endOfInput => "EOF"

def isEnd : Token → Bool
  | ordinary _ _ => false
  | endOfInput => true

def describe (token : Token) : String :=
  token.type ++ " " ++ Text.quoted token.value

@[simp] theorem isEnd_ordinary (type value : String) : (ordinary type value).isEnd = false := rfl

@[simp] theorem isEnd_endOfInput : endOfInput.isEnd = true := rfl

theorem isEnd_iff {token : Token} : token.isEnd = true ↔ token = endOfInput := by
  cases token <;> simp

end Token
end TokenGrammar
