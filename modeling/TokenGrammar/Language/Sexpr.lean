import TokenGrammar.Language.Basic

namespace TokenGrammar.Language.Sexpr

open Declaration

/-! S-expressions. A comment runs from a semicolon to the end of its line. It is a token, and
the rules skip it.

    SExpr ::= number | string | atom | List
    List  ::= "(" SExpr* ")" -/

def declarations : List Declaration := [
  oneOf "SExpr" "comment" [
    tokenField "number" "number", tokenField "string" "string", tokenField "atom" "atom",
    ruleField "list" "List"],
  seq "List" "comment" [
    markField "open" "bkt,(", listField "items" "SExpr" "", markField "close" "bkt,)"]]

def definitions : List TokenDefinition := [
  { pattern := r"\s+" },
  { pattern := r";[^\n]*", name := "comment" },
  { pattern := r"[()]", name := "bkt" },
  { pattern := "\"[^\"]*\"", name := "string" },
  { pattern := r"-?[0-9]+(?:\.[0-9]+)?", name := "number" },
  { pattern := r"[a-zA-Z_][a-zA-Z0-9_-]*", name := "atom" }]

end TokenGrammar.Language.Sexpr
