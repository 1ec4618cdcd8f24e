import TokenGrammar.Parser.Basic

namespace TokenGrammar

/-- A descriptor that has been stored for good, and where. -/
structure StoredDescriptor where
  place : Nat
  descriptor : Descriptor
deriving DecidableEq, Repr

/-- The rules that have been used so far. A rule is known by its key and not by its name, which
rules of different languages may share. -/
structure Catalog (Key : Type) where
  /-- What each rule was compiled to, in the order of first use. A rule that is malformed is kept
  with its error. -/
  entries : List (Key × Except GrammarError StoredDescriptor)
  /-- The rule of each compilation. No two compilations store a descriptor at the same place. -/
  compilations : List Key

namespace Catalog

variable {Key : Type} [DecidableEq Key]

def empty : Catalog Key := ⟨[], []⟩

instance : Inhabited (Catalog Key) := ⟨empty⟩

def isCached (catalog : Catalog Key) (rule : Key) : Bool :=
  catalog.entries.any (·.1 == rule)

/-- Compiles a declaration, whether or not that has been done before. -/
def compile (catalog : Catalog Key) (rule : Key) (declaration : Declaration) :
    Except GrammarError StoredDescriptor × Catalog Key :=
  (declaration.compile.map (⟨catalog.compilations.length, ·⟩),
    { catalog with compilations := catalog.compilations ++ [rule] })

/-- The entry of a rule, which is compiled if it has none. -/
def tryDescriptor (catalog : Catalog Key) (rule : Key) (declaration : Declaration) :
    Except GrammarError StoredDescriptor × Catalog Key :=
  match catalog.entries.lookup rule with
  | some entry => (entry, catalog)
  | none =>
    let (entry, catalog) := catalog.compile rule declaration
    (entry, { catalog with entries := catalog.entries ++ [(rule, entry)] })

/-- The descriptor of a rule for a parse, which cannot go on without it. -/
def requireDescriptor (catalog : Catalog Key) (rule : Key) (declaration : Declaration) :
    Except Fault StoredDescriptor × Catalog Key :=
  let (entry, catalog) := catalog.tryDescriptor rule declaration
  (entry.mapError .malformed, catalog)

/-- The compiled form of a declaration, among rules that are known by their paths. -/
def descriptor (catalog : Catalog String) (declaration : Declaration) :
    Except GrammarError Descriptor × Catalog String :=
  let (entry, catalog) := catalog.tryDescriptor declaration.path declaration
  (entry.map (·.descriptor), catalog)

/-- The place where the descriptor of a rule is stored, which is the same for all its uses. -/
def entryIndex? (catalog : Catalog Key) (rule : Key) : Option Nat :=
  match catalog.entries.lookup rule with
  | some (.ok stored) => some stored.place
  | _ => none

end Catalog
end TokenGrammar
