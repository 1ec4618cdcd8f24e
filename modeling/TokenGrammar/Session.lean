import TokenGrammar.Grammar.Parse
import TokenGrammar.Token.Stream

namespace TokenGrammar

/-- A parse under way: where it stands, the furthest of the failures so far, how many rules are
open, and, if it is traced, its log. Each parser that runs in a session adds to these. -/
structure Session where
  stream : TokenStream
  furthest : Option ParseError := none
  depth : Nat := 0
  traced : Bool := false
  log : List LogLine := []

namespace Session

def ofTokens (tokens : List Token) (traced : Bool) : Session :=
  { stream := .ofTokens tokens, traced }

/-- Runs a parser from where the session stands. -/
def run (session : Session) (parser : Parser α) : Outcome α × Session :=
  let run := parser session.stream.cursor
  (run.outcome,
    { session with
      stream := session.stream.restore run.outcome.cursor.pos
      furthest := (Event.errors run.journal).foldl
        (fun gathered error => some (.gather gathered error)) session.furthest
      depth := Trace.depthAfter session.depth run.journal
      log := session.log ++ if session.traced then
          (Trace.lines session.depth run.journal).map (⟨.trace, ·⟩)
        else [] })

def nextToken (session : Session) : Token × Session :=
  let (token, stream) := session.stream.next
  (token, { session with stream })

def peek (session : Session) : Token := session.stream.cursor.peek

def restore (session : Session) (pos : Nat) : Session :=
  { session with stream := session.stream.restore pos }

/-- An error at the next token, which is not put on record. -/
def errorHere (session : Session) (cause : Cause) : ParseError :=
  .atCursor cause session.stream.cursor

def record (session : Session) (error : ParseError) : Session :=
  { session with furthest := some (.gather session.furthest error) }

/-- The furthest error joined with another one. The record is empty afterwards. -/
def takeFurthest (session : Session) (error : ParseError) : ParseError × Session :=
  (.gather session.furthest error, { session with furthest := none })

end Session
end TokenGrammar
