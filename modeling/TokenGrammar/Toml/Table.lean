import TokenGrammar.Entries
import TokenGrammar.Toml.Value

namespace TokenGrammar.Toml

/-! What may be added to a table. Nothing is defined twice: a header names a table that is new or
only known as a path, and a key is new to its table. -/

/-- How a path to a table is written. -/
inductive PathKind where
  | header
  | dots
deriving DecidableEq, Repr

/-- Whether a path may lead through a table. -/
def Origin.admits : Origin → PathKind → Bool
  | braces, _ => false
  | header, kind => kind == .header
  | path, _ => true
  | dots, _ => true

/-- The origin of a table that a path leads through for the first time. -/
def PathKind.origin : PathKind → Origin
  | header => .path
  | dots => .dots

/-- A change to the entries of a table, if it is allowed. -/
abbrev TableEdit := Origin → List (String × Value) → Option (Origin × List (String × Value))

namespace Value

def empty (origin : Origin) : Value := table origin []

/-- Edits a table, or the last one under a header that occurs several times. -/
def editTable (edit : TableEdit) : Value → Option Value
  | table origin entries => (edit origin entries).map fun (origin, entries) => table origin entries
  | tables earlier (table origin entries) =>
    (edit origin entries).map fun (origin, entries) => tables earlier (table origin entries)
  | _ => none

/-- The table under a key that a path leads through, new or not. -/
def enter? (kind : PathKind) : Option Value → Option Value
  | none => some (empty kind.origin)
  | some (table origin entries) =>
    if origin.admits kind then some (table origin entries) else none
  | some (tables earlier last) => some (tables earlier last)
  | some _ => none

end Value

namespace TableEdit

/-- An edit of the table at the end of a path. -/
def along (kind : PathKind) (edit : TableEdit) : List String → TableEdit
  | [] => edit
  | key :: keys => fun origin entries => do
    let entered ← Value.enter? kind (entries.lookup key)
    let changed ← entered.editTable (along kind edit keys)
    return (origin, Entries.put key changed entries)

/-- Names a table by a header. -/
def define (key : String) : TableEdit := fun origin entries =>
  match entries.lookup key with
  | none => some (origin, Entries.put key (.empty .header) entries)
  | some (.table .path held) => some (origin, Entries.put key (.table .header held) entries)
  | some _ => none

/-- Names one more table by a header that may occur several times. -/
def extend (key : String) : TableEdit := fun origin entries =>
  match entries.lookup key with
  | none => some (origin, Entries.put key (.tables [] (.empty .header)) entries)
  | some (.tables earlier last) =>
    some (origin, Entries.put key (.tables (earlier ++ [last]) (.empty .header)) entries)
  | some _ => none

/-- Gives a value to a new key. Keys with dots belong to tables made by dots, and only they. -/
def assign (dotted : Bool) (key : String) (value : Value) : TableEdit := fun origin entries =>
  if (origin == .dots) = dotted ∧ (entries.lookup key).isNone then
    some (origin, Entries.put key value entries)
  else none

end TableEdit

/-- A key: the names before its dots, and the name after them. -/
structure Key where
  path : List String
  name : String
deriving DecidableEq, Repr

/-- Gives a value to a key. -/
def Key.assign (key : Key) (value : Value) : TableEdit :=
  .along .dots (.assign (!key.path.isEmpty) key.name value) key.path

end TokenGrammar.Toml
