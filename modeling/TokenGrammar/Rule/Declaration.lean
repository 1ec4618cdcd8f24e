namespace TokenGrammar

/-- How a rule combines its fields: one of them is populated, or all are matched in order. -/
inductive Combinator where
  | oneOf
  | seq
deriving DecidableEq, Repr

def Combinator.text : Combinator → String
  | oneOf => "one_of"
  | seq => "seq"

inductive Cardinality where
  | single
  | optional
  | repeated
deriving DecidableEq, Repr

def Cardinality.text : Cardinality → String
  | single => "single"
  | optional => "optional"
  | repeated => "repeated"

/-- What a field holds: a token, the mark of a token that was there, the node of a rule, or any
of these in a box, which makes no difference to parsing and printing. -/
inductive Symbol where
  | token
  | mark
  | rule (path : String)
  | boxed (content : Symbol)
deriving DecidableEq, Repr

namespace Symbol

def text : Symbol → String
  | token => "Token"
  | mark => "Match"
  | rule path => path
  | boxed content => "Box<" ++ content.text ++ ">"

/-- The symbol without the boxes around it. -/
def content : Symbol → Symbol
  | boxed inner => inner.content
  | symbol => symbol

def ofName (name : String) : Symbol :=
  if name = "Token" then token else if name = "Match" then mark else rule name

/-- Reads a symbol that has at most `depth` boxes. -/
def ofCharacters : Nat → List Char → Symbol
  | depth + 1, 'B' :: 'o' :: 'x' :: '<' :: rest =>
    if rest.getLast? = some '>' then boxed (ofCharacters depth rest.dropLast)
    else ofName (String.ofList ('B' :: 'o' :: 'x' :: '<' :: rest))
  | _, text => ofName (String.ofList text)

def ofText (text : String) : Symbol := ofCharacters text.length text.toList

end Symbol

/-- How a rule is marked: its combinator, and a directive for the tokens that it skips between
its items. -/
structure Marker where
  combinator : Combinator
  drop : String
deriving DecidableEq, Repr

/-- A field as its author writes it. -/
structure FieldDeclaration where
  name : String
  symbol : Symbol
  cardinality : Cardinality
  tok : String := ""
  sep : String := ""
  size : String := ""
deriving DecidableEq, Repr

/-- A rule as its author writes it. Fields refer to a rule by its path, since rules of one name may
stand in different places. -/
structure Declaration where
  name : String
  marker : Option Marker
  fields : List FieldDeclaration
  path : String := name
deriving DecidableEq, Repr

end TokenGrammar
