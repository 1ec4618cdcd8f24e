import TokenGrammar.Session

namespace TokenGrammar

/-- How a routine ends: with a value, with an error that its caller has to deal with, or not at
all. -/
inductive Ended (α : Type) where
  | value (value : α)
  | error (error : ParseError)
  | stuck (fault : Fault)
deriving DecidableEq, Repr

def Outcome.ended : Outcome α → Ended α
  | matched value _ => .value value
  | failed error _ => .error error
  | stuck fault _ => .stuck fault

/-- A procedure on the one session of a parse. Whatever it does to the session stays done, also if
it ends with an error: to go back is a step of its own. -/
def Routine (α : Type) := Session → Ended α × Session

namespace Routine

protected def pure (value : α) : Routine α := fun session => (.value value, session)

protected def bind (first : Routine α) (next : α → Routine β) : Routine β := fun session =>
  match first session with
  | (.value value, after) => next value after
  | (.error error, after) => (.error error, after)
  | (.stuck fault, after) => (.stuck fault, after)

instance : Monad Routine where
  pure := Routine.pure
  bind := Routine.bind

def throw (error : ParseError) : Routine α := fun session => (.error error, session)

def getStuck (fault : Fault) : Routine α := fun session => (.stuck fault, session)

/-- Hands on how a routine has ended. It does not go back. -/
def tried (routine : Routine α) : Routine (Except ParseError α) := fun session =>
  match routine session with
  | (.value value, after) => (.value (.ok value), after)
  | (.error error, after) => (.value (.error error), after)
  | (.stuck fault, after) => (.stuck fault, after)

def ofExcept : Except ParseError α → Routine α
  | .ok value => pure value
  | .error error => throw error

def save : Routine Nat := fun session => (.value session.stream.pos, session)

def restore (pos : Nat) : Routine Unit := fun session => (.value (), session.restore pos)

/-- How many tokens are left. -/
def left : Routine Nat := fun session => (.value session.stream.cursor.rest.length, session)

def nextToken : Routine Token := fun session => (.value session.nextToken.1, session.nextToken.2)

def record (error : ParseError) : Routine ParseError := fun session =>
  (.value error, session.record error)

def errorHere (cause : Cause) : Routine ParseError := fun session =>
  (.value (session.errorHere cause), session)

def reject (cause : Cause) : Routine α := do
  throw (← record (← errorHere cause))

def matchNext (constraint : Constraint) : Routine Token := do
  let pos ← save
  let token ← nextToken
  if constraint.isEmpty then
    if token.isEnd then
      restore pos
      throw (← record ⟨token, pos, .unexpectedEnd⟩)
    else return token
  else match constraint.find? token with
    | some pattern =>
      if pattern.lookahead then restore pos
      return token
    | none =>
      restore pos
      throw (← record ⟨token, pos, .expected constraint.patterns⟩)

/-- Goes back, however the routine ends. -/
def lookAhead (routine : Routine α) : Routine α := do
  let pos ← save
  let result ← tried routine
  restore pos
  ofExcept result

def checkNext (constraint : Constraint) : Routine Unit :=
  lookAhead (do let _ ← matchNext constraint)

/-- Skips tokens, of which there are fewer than `steps`. -/
def dropLoop (drop : Constraint) : Nat → Routine Unit
  | 0 => getStuck .unbounded
  | steps + 1 => do
    let pos ← save
    let token ← nextToken
    if (drop.find? token).isNone then restore pos else dropLoop drop steps

def dropTokens (drop : Constraint) : Routine Unit := do
  if drop.isEmpty then return
  else dropLoop drop ((← left) + 1)

/-- Notes that a rule begins. -/
def enter (rule : String) : Routine Unit := fun session =>
  (.value (),
    { session with
      depth := session.depth + 1
      log := session.log ++ if session.traced then
          [⟨.trace, Trace.enterLine session.depth rule session.stream.pos⟩]
        else [] })

/-- Notes that a rule ends. -/
def leave (rule : String) (matched : Bool) : Routine Unit := fun session =>
  (.value (),
    { session with
      depth := session.depth - 1
      log := session.log ++ if session.traced then
          [⟨.trace, Trace.leaveLine (session.depth - 1) rule matched session.stream.pos⟩]
        else [] })

/-- Notes where a rule begins and ends, and goes back to its beginning if it fails. -/
def within (rule : String) (routine : Routine α) : Routine α := do
  let start ← save
  enter rule
  let result ← tried routine
  leave rule result.toBool
  match result with
  | .ok value => return value
  | .error error =>
    restore start
    throw error

end Routine
end TokenGrammar
