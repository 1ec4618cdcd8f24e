import TokenGrammar.Grammar.Draft
import TokenGrammar.Grammar.Parse
import TokenGrammar.Json.Lexer
import TokenGrammar.Lexer.Table

namespace TokenGrammar

/-- The languages that come with their grammars. -/
inductive Language where
  | json
  | sexpr
  | sjson
deriving DecidableEq, Repr

namespace Language

def all : List Language := [json, sexpr, sjson]

def name : Language → String
  | json => "json"
  | sexpr => "sexpr"
  | sjson => "sjson"

def ofName? (name : String) : Option Language := all.find? (·.name == name)

end Language

namespace Declaration

/-- A field for one token that satisfies a directive. -/
def tokenField (name tok : String) : FieldDeclaration :=
  { name, symbol := .token, cardinality := .single, tok }

/-- A field for a token that has to be there and is not kept. -/
def markField (name tok : String) : FieldDeclaration :=
  { name, symbol := .mark, cardinality := .single, tok }

def ruleField (name rule : String) : FieldDeclaration :=
  { name, symbol := .rule rule, cardinality := .single }

/-- A field for any number of nodes of a rule, with a separator between them. -/
def listField (name rule sep : String) : FieldDeclaration :=
  { name, symbol := .rule rule, cardinality := .repeated, sep }

/-- An alternative of a choice. -/
def optional (field : FieldDeclaration) : FieldDeclaration :=
  { field with cardinality := .optional }

def seq (name drop : String) (fields : List FieldDeclaration) : Declaration :=
  { name, marker := some ⟨.seq, drop⟩, fields }

def oneOf (name drop : String) (fields : List FieldDeclaration) : Declaration :=
  { name, marker := some ⟨.oneOf, drop⟩, fields := fields.map optional }

end Declaration
end TokenGrammar
