import TokenGrammar.Pattern.CharSet

namespace TokenGrammar

/-- A condition on a place between two characters. -/
inductive Anchor where
  | textStart
  | textEnd
  | lineStart
  | lineEnd
  | wordBoundary
  | insideWord
deriving DecidableEq, Repr

/-- A regular expression. Of several ways to match, the first counts: the left branch before the
right one, and one more repetition before none unless the repetition is lazy. -/
inductive Pattern where
  | empty
  | one (set : CharSet)
  | anchor (anchor : Anchor)
  | seq (first second : Pattern)
  | either (left right : Pattern)
  /-- Tells under a name whether it took part in the match. -/
  | named (name : String) (body : Pattern)
  | repeated (greedy : Bool) (min : Nat) (max : Option Nat) (body : Pattern)
deriving DecidableEq, Repr

/-- A place in a text: the character before it, the text after it, the number of bytes between
the start of the match attempt and it, and the names that have matched on the way. -/
structure Spot where
  before : Option Char
  rest : List Char
  bytes : Nat
  names : List String
deriving DecidableEq, Repr

namespace Spot

def start (text : List Char) : Spot := ⟨none, text, 0, []⟩

def isWordBefore (spot : Spot) : Bool := spot.before.any Text.isWordCharacter

def isWordAfter (spot : Spot) : Bool := spot.rest.head?.any Text.isWordCharacter

/-- The place after the next character, if there is one. -/
def next? (spot : Spot) : Option Spot :=
  match spot.rest with
  | [] => none
  | c :: rest => some { spot with before := some c, rest, bytes := spot.bytes + c.utf8Size }

end Spot

def Anchor.holds (spot : Spot) : Anchor → Bool
  | textStart => spot.before.isNone
  | textEnd => spot.rest.isEmpty
  | lineStart => spot.before.all (· == '\n')
  | lineEnd => spot.rest.head?.all (· == '\n')
  | wordBoundary => spot.isWordBefore != spot.isWordAfter
  | insideWord => spot.isWordBefore == spot.isWordAfter

namespace Pattern

/-- A matcher tries its ways in order, each with what comes after it, until one succeeds. -/
abbrev Matcher := Spot → (Spot → Option Spot) → Option Spot

namespace Matcher

/-- Exactly `count` times. -/
def times (body : Matcher) : Nat → Matcher
  | 0, spot, next => next spot
  | count + 1, spot, next => body spot fun after => times body count after next

/-- At most `count` times. -/
def upTo (body : Matcher) (greedy : Bool) : Nat → Matcher
  | 0, spot, next => next spot
  | count + 1, spot, next =>
    if greedy then (body spot fun after => upTo body greedy count after next) <|> next spot
    else next spot <|> body spot fun after => upTo body greedy count after next

/-- More repetitions, each of which takes some text. The length of the text, given as `steps`,
bounds their number. -/
def more (body : Matcher) (greedy : Bool) : Nat → Matcher
  | 0, spot, next => next spot
  | steps + 1, spot, next =>
    let again := fun (_ : Unit) => body spot fun after =>
      if after.rest.length < spot.rest.length then more body greedy steps after next else none
    if greedy then again () <|> next spot else next spot <|> again ()

/-- A first repetition and, unless it takes no text, more of them. -/
def plus (body : Matcher) (greedy : Bool) : Matcher := fun spot next =>
  body spot fun after =>
    if after.rest.length < spot.rest.length then more body greedy after.rest.length after next
    else next after

/-- At least `min` times. A repetition that takes no text ends them, and counts only if it is the
first or one of those that there have to be. -/
def atLeast (body : Matcher) (greedy : Bool) : Nat → Matcher
  | 0, spot, next =>
    if greedy then plus body greedy spot next <|> next spot
    else next spot <|> plus body greedy spot next
  | min + 1, spot, next => times body min spot fun after => plus body greedy after next

end Matcher

/-- How a pattern matches from a place on. -/
def matcher : Pattern → Matcher
  | empty, spot, next => next spot
  | one set, spot, next =>
    if spot.rest.head?.any set.contains then spot.next?.bind next else none
  | anchor condition, spot, next => if condition.holds spot then next spot else none
  | seq first second, spot, next => matcher first spot fun middle => matcher second middle next
  | either left right, spot, next => matcher left spot next <|> matcher right spot next
  | named name body, spot, next =>
    matcher body spot fun after => next { after with names := name :: after.names }
  | repeated greedy min (some max) body, spot, next =>
    Matcher.times (matcher body) min spot fun after =>
      Matcher.upTo (matcher body) greedy (max - min) after next
  | repeated greedy min none body, spot, next =>
    Matcher.atLeast (matcher body) greedy min spot next

/-- Where the first match from a place on ends. -/
def matchAt (pattern : Pattern) (spot : Spot) : Option Spot := pattern.matcher spot some

/-- The first match at a place or, if there is none, at the places after it. -/
def searchFrom (pattern : Pattern) : Nat → Spot → Option Spot
  | 0, spot => pattern.matchAt spot
  | steps + 1, spot =>
    pattern.matchAt spot <|> spot.next?.bind (searchFrom pattern steps)

/-- The end of the first match in a text. -/
def search (pattern : Pattern) (text : List Char) : Option Spot :=
  pattern.searchFrom text.length (.start text)

/-- The choice of several patterns, the first before the others. -/
def choice : List Pattern → Pattern
  | [] => empty
  | [pattern] => pattern
  | pattern :: patterns => either pattern (choice patterns)

/-- Several patterns one after the other. -/
def chain : List Pattern → Pattern
  | [] => empty
  | [pattern] => pattern
  | pattern :: patterns => seq pattern (chain patterns)

end Pattern
end TokenGrammar
