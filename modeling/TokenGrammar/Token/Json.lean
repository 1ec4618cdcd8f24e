import TokenGrammar.Json.Quoted
import TokenGrammar.Token

namespace TokenGrammar.Token

/-- A token as a JSON object of its two texts. -/
def toJsonText (token : Token) : String :=
  "\x7b\"type\":" ++ Json.quoted token.type ++ ",\"value\":" ++ Json.quoted token.value ++ "\x7d"

end TokenGrammar.Token
