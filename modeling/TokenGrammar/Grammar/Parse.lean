import TokenGrammar.Grammar.Basic
import TokenGrammar.Log
import TokenGrammar.Parser.Trace

namespace TokenGrammar

structure ParseOptions where
  /-- Whether nothing may follow the root but tokens that it would skip. -/
  complete : Bool := false
  /-- Whether the log tells where each rule begins and ends. -/
  trace : Bool := false
deriving DecidableEq, Repr

namespace Grammar

/-- What may follow a complete root. -/
def skipTrailing (grammar : Grammar) (root : Symbol) (cursor : Cursor) : Cursor :=
  match grammar.dropFilter? root with
  | some (.ok drop) => cursor.skip drop
  | _ => cursor

/-- Matches a root where the cursor stands. An incomplete match leaves the rest of the input;
a complete one requires that only skipped tokens follow and stands after the root, too. -/
def parseRoot (grammar : Grammar) (root : Symbol) (complete : Bool) : Parser Tree := do
  let tree ← grammar.parse root .anyToken
  if complete then
    let after := grammar.skipTrailing root (← Parser.here)
    if after.peek.isEnd then return tree
    else .fail (.atCursor .trailingInput after)
  else return tree

/-- A whole parse. If it fails, its error is the one furthest into the input of all that arose,
and it stands where it began. -/
def parseFrom (grammar : Grammar) (root : Symbol) (complete : Bool) : Parser Tree :=
  fun cursor =>
    match grammar.parseRoot root complete cursor with
    | ⟨journal, .failed error _⟩ =>
      ⟨journal, .failed (.gather (ParseError.furthest (Event.errors journal)) error) cursor⟩
    | run => run

/-- The log of a whole parse: its trace, if asked for, and the error if it fails. -/
def logOf (run : Run Tree) (trace : Bool) : List LogLine :=
  (if trace then (Trace.lines 0 run.journal).map (⟨.trace, ·⟩) else [])
    ++ match run.outcome with
      | .failed error _ => [⟨.debug, "parse failed: " ++ error.message⟩]
      | _ => []

end Grammar
end TokenGrammar
