namespace TokenGrammar

/-- How much is logged, from nothing to everything. -/
inductive LogLevel where
  | off
  | error
  | warn
  | info
  | debug
  | trace
deriving DecidableEq, Repr

namespace LogLevel

def all : List LogLevel := [off, error, warn, info, debug, trace]

def name : LogLevel → String
  | off => "off"
  | error => "error"
  | warn => "warn"
  | info => "info"
  | debug => "debug"
  | trace => "trace"

def rank : LogLevel → Nat
  | off => 0
  | error => 1
  | warn => 2
  | info => 3
  | debug => 4
  | trace => 5

instance : LE LogLevel := ⟨fun left right => left.rank ≤ right.rank⟩

instance : LT LogLevel := ⟨fun left right => left.rank < right.rank⟩

instance (left right : LogLevel) : Decidable (left ≤ right) :=
  inferInstanceAs (Decidable (left.rank ≤ right.rank))

instance (left right : LogLevel) : Decidable (left < right) :=
  inferInstanceAs (Decidable (left.rank < right.rank))

def max (left right : LogLevel) : LogLevel := if left ≤ right then right else left

/-- The level with a name in any case. -/
def ofName? (name : String) : Option LogLevel :=
  all.find? fun level => level.name == name.toLower

end LogLevel

structure LogLine where
  level : LogLevel
  text : String
deriving DecidableEq, Repr

def LogLine.render (line : LogLine) : String :=
  "[" ++ line.level.name.toUpper ++ "] " ++ line.text

end TokenGrammar
