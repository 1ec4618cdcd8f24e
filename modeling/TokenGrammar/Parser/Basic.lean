import TokenGrammar.ParseError
import TokenGrammar.Parser.Cursor
import TokenGrammar.Rule.Descriptor

namespace TokenGrammar

/-- What a run of a parser leaves behind besides its result, in the order of occurrence. -/
inductive Event where
  /-- A check that failed, whether or not the parse went on by another way. -/
  | failure (error : ParseError)
  | enter (rule : String) (pos : Nat)
  | leave (rule : String) (matched : Bool) (pos : Nat)
deriving DecidableEq, Repr

namespace Event

def error? : Event → Option ParseError
  | failure error => some error
  | _ => none

/-- The failed checks of a journal. -/
def errors (journal : List Event) : List ParseError := journal.filterMap error?

end Event

/-- Why a parse cannot go on at all, for reasons that lie in the grammar. -/
inductive Fault where
  | malformed (error : GrammarError)
  | undefinedRule (path : String)
  /-- A node begins as the default value of its type, and a type may have none. -/
  | noDefault (rule : String)
  /-- Rules nest or items repeat more often than the remaining tokens allow. -/
  | unbounded
deriving DecidableEq, Repr

def Fault.message : Fault → String
  | malformed error => "invalid grammar: " ++ error.message
  | undefinedRule path => "undefined rule " ++ path
  | noDefault rule => "no default value of rule " ++ rule
  | unbounded => "unbounded recursion"

/-- How a run ends, and where. A failure stands where the parser gave up, so that a caller can
tell that place from the one it goes back to. -/
inductive Outcome (α : Type) where
  | matched (value : α) (next : Cursor)
  | failed (error : ParseError) (stop : Cursor)
  | stuck (fault : Fault) (stop : Cursor)
deriving DecidableEq, Repr

structure Run (α : Type) where
  journal : List Event
  outcome : Outcome α
deriving DecidableEq, Repr

/-- A parser reads from a cursor. Going back to a place means to keep the cursor of that place. -/
def Parser (α : Type) := Cursor → Run α

/-- An error at the next token. -/
def ParseError.atCursor (cause : Cause) (cursor : Cursor) : ParseError :=
  ⟨cursor.peek, cursor.pos, cause⟩

namespace Outcome

def cursor : Outcome α → Cursor
  | matched _ next => next
  | failed _ stop => stop
  | stuck _ stop => stop

def isMatch : Outcome α → Bool
  | matched _ _ => true
  | _ => false

end Outcome

namespace Parser

protected def pure (value : α) : Parser α := fun cursor => ⟨[], .matched value cursor⟩

protected def bind (first : Parser α) (next : α → Parser β) : Parser β := fun cursor =>
  match first cursor with
  | ⟨journal, .matched value after⟩ =>
    let run := next value after
    ⟨journal ++ run.journal, run.outcome⟩
  | ⟨journal, .failed error stop⟩ => ⟨journal, .failed error stop⟩
  | ⟨journal, .stuck fault stop⟩ => ⟨journal, .stuck fault stop⟩

instance : Monad Parser where
  pure := Parser.pure
  bind := Parser.bind

/-- The place where the parser stands. -/
def here : Parser Cursor := fun cursor => ⟨[], .matched cursor cursor⟩

/-- Fails with an error that is on record, or is not meant to be. -/
def fail (error : ParseError) : Parser α := fun cursor => ⟨[], .failed error cursor⟩

/-- Fails at the next token and puts the failure on record. -/
def reject (cause : Cause) : Parser α := fun cursor =>
  ⟨[.failure (.atCursor cause cursor)], .failed (.atCursor cause cursor) cursor⟩

def getStuck (fault : Fault) : Parser α := fun cursor => ⟨[], .stuck fault cursor⟩

/-- Turns a failure into a value and goes back to where the parser started. -/
def attempt (parser : Parser α) : Parser (Except ParseError α) := fun cursor =>
  match parser cursor with
  | ⟨journal, .matched value next⟩ => ⟨journal, .matched (.ok value) next⟩
  | ⟨journal, .failed error _⟩ => ⟨journal, .matched (.error error) cursor⟩
  | ⟨journal, .stuck fault stop⟩ => ⟨journal, .stuck fault stop⟩

/-- Runs a parser and goes back to where it started, whether it matches or fails. -/
def lookAhead (parser : Parser α) : Parser α := fun cursor =>
  match parser cursor with
  | ⟨journal, .matched value _⟩ => ⟨journal, .matched value cursor⟩
  | ⟨journal, .failed error _⟩ => ⟨journal, .failed error cursor⟩
  | ⟨journal, .stuck fault stop⟩ => ⟨journal, .stuck fault stop⟩

/-- Notes where a rule begins and ends. A rule that fails goes back to its beginning, after the
note. -/
def within (rule : String) (parser : Parser α) : Parser α := fun cursor =>
  let run := parser cursor
  let opened := Event.enter rule cursor.pos :: run.journal
  match run.outcome with
  | .matched value next =>
    ⟨opened ++ [.leave rule true next.pos], .matched value next⟩
  | .failed error stop =>
    ⟨opened ++ [.leave rule false stop.pos], .failed error cursor⟩
  | .stuck fault stop => ⟨opened, .stuck fault stop⟩

/-- Matches the next token. A lookahead pattern leaves it where it is. -/
def matchNext (constraint : Constraint) : Parser Token := fun cursor =>
  let token := cursor.peek
  if constraint.isEmpty then
    if token.isEnd then reject .unexpectedEnd cursor
    else ⟨[], .matched token cursor.advance⟩
  else match constraint.find? token with
    | some pattern =>
      ⟨[], .matched token (if pattern.lookahead then cursor else cursor.advance)⟩
    | none => reject (.expected constraint.patterns) cursor

/-- Checks the next token and leaves it where it is. -/
def checkNext (constraint : Constraint) : Parser Unit :=
  lookAhead (do let _ ← matchNext constraint)

/-- Skips the tokens that satisfy a filter. -/
def dropTokens (drop : Constraint) : Parser Unit := fun cursor =>
  ⟨[], .matched () (cursor.skip drop)⟩

end Parser
end TokenGrammar
