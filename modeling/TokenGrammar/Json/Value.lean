import TokenGrammar.Number.Binary64

namespace TokenGrammar

/-- A JSON value. The members of an object have distinct keys in code point order. -/
inductive JsonValue where
  | null
  | bool (value : Bool)
  | number (value : Binary64)
  | string (value : String)
  | array (items : List JsonValue)
  | object (members : List (String × JsonValue))

instance : Inhabited JsonValue := ⟨.null⟩

namespace JsonValue

/-- JSON has no number that is not finite. -/
def ofNumber : Binary64 → JsonValue
  | .finite negative mantissa exponent => number (.finite negative mantissa exponent)
  | _ => null

/-- Puts a member into its place, instead of the one that has its key. -/
def insertMember (key : String) (value : JsonValue) :
    List (String × JsonValue) → List (String × JsonValue)
  | [] => [(key, value)]
  | (other, held) :: rest =>
    if key < other then (key, value) :: (other, held) :: rest
    else if key = other then (key, value) :: rest
    else (other, held) :: insertMember key value rest

/-- The object of a list of members. Of several members with one key the last counts. -/
def ofMembers (members : List (String × JsonValue)) : JsonValue :=
  object (members.foldl (fun sorted (key, value) => insertMember key value sorted) [])

end JsonValue
end TokenGrammar
