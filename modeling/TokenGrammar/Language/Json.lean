import TokenGrammar.Language.Basic

namespace TokenGrammar.Language.Json

open Declaration

/-! JSON, with a rule for each kind of scalar.

    Json     ::= Number | Str | Null | Bool | Array | Dict
    Array    ::= "[" [Json ("," Json)*] "]"
    Dict     ::= "{" [DictItem ("," DictItem)*] "}"
    DictItem ::= Str ":" Json -/

def declarations : List Declaration := [
  oneOf "Json" "" [
    ruleField "number" "Number", ruleField "string" "Str", ruleField "null" "Null",
    ruleField "boolean" "Bool", ruleField "array" "Array", ruleField "dict" "Dict"],
  seq "Number" "" [tokenField "value" "number"],
  seq "Str" "" [tokenField "value" "string"],
  seq "Null" "" [tokenField "value" "null,null"],
  seq "Bool" "" [tokenField "value" "bool"],
  seq "Array" "" [
    markField "open" "op,[", listField "items" "Json" "op,,", markField "close" "op,]"],
  seq "Dict" "" [
    markField "open" "op,\x7b", listField "items" "DictItem" "op,,", markField "close" "op,\x7d"],
  seq "DictItem" "" [ruleField "key" "Str", markField "colon" "op,:", ruleField "value" "Json"]]

end TokenGrammar.Language.Json
