import TokenGrammar.Language.Basic

namespace TokenGrammar.Language.Sjson

open Declaration

/-! Simplified JSON. Scalars are tokens of the node itself. The word `null` is a token that no
rule accepts. -/

def declarations : List Declaration := [
  oneOf "Sjson" "" [
    tokenField "number" "number", tokenField "string" "string", tokenField "boolean" "bool",
    ruleField "list" "List", ruleField "object" "Object"],
  seq "List" "" [
    markField "open" "op,[", listField "items" "Sjson" "op,,", markField "close" "op,]"],
  seq "Object" "" [
    markField "open" "op,\x7b", listField "items" "Pair" "op,,", markField "close" "op,\x7d"],
  seq "Pair" "" [
    tokenField "key" "string", markField "colon" "op,:", ruleField "value" "Sjson"]]

def definitions : List TokenDefinition := [
  { pattern := r"\s+" },
  { pattern := r"[\[\]{},:]", name := "op" },
  { pattern := "\"[^\"]*\"", name := "string" },
  { pattern := r"-?[0-9]+(?:\.[0-9]+)?", name := "number" },
  { pattern := "true|false", name := "bool" },
  { pattern := "null", name := "null" }]

end TokenGrammar.Language.Sjson
