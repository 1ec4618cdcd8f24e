import TokenGrammar.Parser.Cursor

namespace TokenGrammar

/-- A token list with a position that can be remembered and gone back to. -/
structure TokenStream where
  tokens : List Token
  pos : Nat
deriving DecidableEq, Repr

namespace TokenStream

def ofTokens (tokens : List Token) : TokenStream := ⟨tokens, 0⟩

instance : Inhabited TokenStream := ⟨ofTokens []⟩

/-- The next token, which is consumed. Past the last token the stream stays. -/
def next (stream : TokenStream) : Token × TokenStream :=
  match stream.tokens[stream.pos]? with
  | some token => (token, { stream with pos := stream.pos + 1 })
  | none => (.endOfInput, stream)

def restore (stream : TokenStream) (pos : Nat) : TokenStream := { stream with pos }

/-- The place of the stream, as a parser sees it. -/
def cursor (stream : TokenStream) : Cursor := ⟨stream.pos, stream.tokens.drop stream.pos⟩

def atEnd (stream : TokenStream) : Bool := decide (stream.tokens.length ≤ stream.pos)

theorem next_eq (stream : TokenStream) :
    stream.next = (stream.cursor.peek, stream.restore stream.cursor.advance.pos) := by
  unfold next cursor restore
  cases h : stream.tokens.drop stream.pos with
  | nil =>
    have outside : stream.tokens[stream.pos]? = none := by
      rw [List.getElem?_eq_none_iff]
      exact List.drop_eq_nil_iff.mp h
    simp [outside]
  | cons token rest =>
    have inside : stream.tokens[stream.pos]? = some token := by
      have := congrArg List.head? h
      simpa [List.head?_drop] using this
    simp [inside]

end TokenStream
end TokenGrammar
