import TokenGrammar.Constraint

namespace TokenGrammar

/-- Why a match failed. -/
inductive Cause where
  | message (text : String)
  /-- The token satisfies none of these patterns. -/
  | expected (patterns : List TokenPattern)
  /-- A sequence matched no item. -/
  | emptyMatch
  | unexpectedEnd
  /-- The root matched and input remained. -/
  | trailingInput
deriving DecidableEq, Repr

namespace Cause

def patterns? : Cause → Option (List TokenPattern)
  | expected patterns => some patterns
  | _ => none

/-- The first of all patterns that ask for the same token, in order. -/
def distinctTokens (patterns : List TokenPattern) : List TokenPattern :=
  patterns.foldl (fun seen pattern =>
    if seen.any (·.sameToken pattern) then seen else seen ++ [pattern]) []

def describe : Cause → String
  | message text => text
  | expected patterns =>
    "expected " ++ match distinctTokens patterns with
      | [] => "any token"
      | distinct => Text.joinWith " or " (distinct.map TokenPattern.describe)
  | emptyMatch => "empty match"
  | unexpectedEnd => "unexpected end of input"
  | trailingInput => "expected end of input"

end Cause

/-- A failure at a position of the token list. -/
structure ParseError where
  token : Token
  pos : Nat
  cause : Cause
deriving DecidableEq, Repr

namespace ParseError

/-- The patterns that the token failed, if the failure is of that kind. -/
def patterns (error : ParseError) : List TokenPattern :=
  error.cause.patterns?.getD []

def message (error : ParseError) : String :=
  "token #" ++ toString error.pos ++ " " ++ error.token.type ++ " with value "
    ++ Text.quoted error.token.value ++ ": " ++ error.cause.describe

/-- The first patterns, followed by those of the second that are not yet among them. -/
def unite (first second : List TokenPattern) : List TokenPattern :=
  second.foldl (fun seen pattern => if pattern ∈ seen then seen else seen ++ [pattern]) first

/-- Joins an error with a later one. The error further into the input wins. At one position two
lists of expected patterns are united, an error with patterns wins over one without, and
otherwise the earlier error stays. -/
def merge (earlier later : ParseError) : ParseError :=
  if earlier.pos < later.pos then later
  else if later.pos < earlier.pos then earlier
  else match earlier.cause, later.cause with
    | .expected first, .expected second => { earlier with cause := .expected (unite first second) }
    | .expected _, _ => earlier
    | _, .expected _ => later
    | _, _ => earlier

/-- Joins an error to what has been gathered so far. -/
def gather (gathered : Option ParseError) (error : ParseError) : ParseError :=
  match gathered with
  | some earlier => earlier.merge error
  | none => error

/-- The join of errors in the order in which they arose. -/
def furthest (errors : List ParseError) : Option ParseError :=
  errors.foldl (fun gathered error => some (gather gathered error)) none

end ParseError
end TokenGrammar
