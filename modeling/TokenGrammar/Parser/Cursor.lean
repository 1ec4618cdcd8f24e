import TokenGrammar.Constraint

namespace TokenGrammar

/-- A place in a token list: how many tokens lie before it, and those that follow. -/
structure Cursor where
  pos : Nat
  rest : List Token
deriving DecidableEq, Repr

namespace Cursor

def start (tokens : List Token) : Cursor := ⟨0, tokens⟩

/-- The next token. Past the last one this is the end of the input. -/
def peek (cursor : Cursor) : Token := cursor.rest.headD .endOfInput

/-- The place after the next token. Past the last token the cursor stays. -/
def advance : Cursor → Cursor
  | ⟨pos, []⟩ => ⟨pos, []⟩
  | ⟨pos, _ :: rest⟩ => ⟨pos + 1, rest⟩

def skipFrom (drop : Constraint) (pos : Nat) : List Token → Cursor
  | [] => ⟨pos, []⟩
  | token :: rest =>
    if (drop.find? token).isSome then skipFrom drop (pos + 1) rest else ⟨pos, token :: rest⟩

/-- The first place from here on whose token does not satisfy a pattern of the filter. An empty
filter skips nothing. -/
def skip (drop : Constraint) (cursor : Cursor) : Cursor := skipFrom drop cursor.pos cursor.rest

@[simp] theorem peek_cons (pos : Nat) (token : Token) (rest : List Token) :
    peek ⟨pos, token :: rest⟩ = token := rfl

@[simp] theorem peek_nil (pos : Nat) : peek ⟨pos, []⟩ = .endOfInput := rfl

@[simp] theorem advance_cons (pos : Nat) (token : Token) (rest : List Token) :
    advance ⟨pos, token :: rest⟩ = ⟨pos + 1, rest⟩ := rfl

@[simp] theorem advance_nil (pos : Nat) : advance ⟨pos, []⟩ = ⟨pos, []⟩ := rfl

@[simp] theorem skip_anyToken (cursor : Cursor) : cursor.skip .anyToken = cursor := by
  rcases cursor with ⟨pos, _ | ⟨token, rest⟩⟩ <;>
    simp [skip, skipFrom, Constraint.anyToken, Constraint.find?]

end Cursor
end TokenGrammar
