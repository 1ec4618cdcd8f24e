import TokenGrammar.Proofs.Parser.Backtracking
import TokenGrammar.Proofs.Parser.Place
import TokenGrammar.Session.Engine

namespace TokenGrammar

/-! # A parse as changes of one session

The parsers tell what they leave behind, and a session takes it up when they have ended. A routine
changes the session step by step instead, with all that the steps before it have put there in view.
Both come to the same. -/

theorem TokenStream.cursor_skip (stream : TokenStream) (drop : Constraint) :
    (stream.restore (stream.cursor.skip drop).pos).cursor = stream.cursor.skip drop := by
  obtain ⟨dropped, _, consumes⟩ := stream.cursor.consumes_skip drop
  have place : stream.cursor.skip drop = cursor ⟨stream.tokens, stream.pos + dropped.length⟩ :=
    cursor_of_consumes consumes
  rw [place]
  rfl

theorem TokenStream.cursor_advance (stream : TokenStream) :
    (stream.restore stream.cursor.advance.pos).cursor = stream.cursor.advance := by
  obtain ⟨tokens, pos⟩ := stream
  cases remaining : tokens.drop pos with
  | nil => simp [cursor, remaining, restore]
  | cons token rest =>
      have behind : tokens.drop (pos + 1) = rest := by
        rw [← List.drop_drop, remaining]
        rfl
      simp [cursor, remaining, restore, behind]

theorem Trace.lines_append (depth : Nat) (first second : List Event) :
    lines depth (first ++ second) = lines depth first ++ lines (depthAfter depth first) second := by
  induction first generalizing depth with
  | nil => rfl
  | cons event rest ih =>
      cases event with
      | failure => exact ih depth
      | enter => exact congrArg _ (ih _)
      | leave => exact congrArg _ (ih _)

namespace Session

variable {session after : Session}

theorem ext_of {left right : Session} (stream : left.stream = right.stream)
    (furthest : left.furthest = right.furthest) (depth : left.depth = right.depth)
    (traced : left.traced = right.traced) (log : left.log = right.log) : left = right := by
  cases left
  cases right
  cases stream
  cases furthest
  cases depth
  cases traced
  cases log
  rfl

/-- The session after a journal, at a position. -/
def takeUp (session : Session) (journal : List Event) (pos : Nat) : Session :=
  { session with
    stream := session.stream.restore pos
    furthest := (Event.errors journal).foldl
      (fun gathered error => some (.gather gathered error)) session.furthest
    depth := Trace.depthAfter session.depth journal
    log := session.log ++ if session.traced then
        (Trace.lines session.depth journal).map (⟨.trace, ·⟩)
      else [] }

theorem run_eq (session : Session) (parser : Parser α) : session.run parser =
    ((parser session.stream.cursor).outcome,
      session.takeUp (parser session.stream.cursor).journal
        (parser session.stream.cursor).outcome.cursor.pos) := rfl

theorem takeUp_nil (session : Session) (pos : Nat) : session.takeUp [] pos = session.restore pos := by
  refine ext_of rfl rfl rfl rfl ?_
  cases traced : session.traced <;> simp [takeUp, restore, traced, Trace.lines]

theorem takeUp_failure (session : Session) (error : ParseError) :
    session.takeUp [.failure error] session.stream.pos = session.record error := by
  refine ext_of rfl rfl rfl rfl ?_
  cases traced : session.traced <;> simp [takeUp, record, traced, Trace.lines]

/-- Two journals are taken up one after the other. -/
theorem takeUp_append (session : Session) (first second : List Event) (pos next : Nat) :
    session.takeUp (first ++ second) next = (session.takeUp first pos).takeUp second next := by
  apply ext_of
  · rfl
  · simp [takeUp, Event.errors]
  · simp [takeUp, Trace.depthAfter_append]
  · rfl
  · by_cases traced : session.traced = true <;>
      simp [takeUp, traced, Trace.lines_append]

theorem run_bind {first : Parser α} (next : α → Parser β)
    (stands : (session.run first).1.cursor = (session.run first).2.stream.cursor) :
    session.run (first >>= next) = match session.run first with
      | (.matched value _, after) => after.run (next value)
      | (.failed error stop, after) => (.failed error stop, after)
      | (.stuck fault stop, after) => (.stuck fault stop, after) := by
  rw [run_eq] at stands
  rw [run_eq, run_eq, Parser.bind_run]
  cases ran : first session.stream.cursor with
  | mk journal outcome =>
      rw [ran] at stands
      cases outcome with
      | matched value middle =>
          have place : middle = (session.takeUp journal middle.pos).stream.cursor := stands
          dsimp only [Outcome.cursor]
          rw [run_eq, ← place, takeUp_append _ _ _ middle.pos]
          rfl
      | failed | stuck => rfl

theorem run_attempt (parser : Parser α) :
    session.run (Parser.attempt parser) = match session.run parser with
      | (.matched value next, after) => (.matched (.ok value) next, after)
      | (.failed error _, after) =>
        (.matched (.error error) session.stream.cursor, after.restore session.stream.pos)
      | (.stuck fault stop, after) => (.stuck fault stop, after) := by
  simp only [run_eq, Parser.attempt_run]
  cases parser session.stream.cursor with
  | mk journal outcome => cases outcome <;> rfl

theorem run_lookAhead (parser : Parser α) :
    session.run (Parser.lookAhead parser) = match session.run parser with
      | (.matched value _, after) =>
        (.matched value session.stream.cursor, after.restore session.stream.pos)
      | (.failed error _, after) =>
        (.failed error session.stream.cursor, after.restore session.stream.pos)
      | (.stuck fault stop, after) => (.stuck fault stop, after) := by
  simp only [run_eq, Parser.lookAhead]
  cases parser session.stream.cursor with
  | mk journal outcome => cases outcome <;> rfl

section Notes

open Routine

theorem takeUp_enter (session : Session) (rule : String) : (enter rule session).2 =
    session.takeUp [.enter rule session.stream.pos] session.stream.pos := by
  refine ext_of rfl rfl rfl rfl ?_
  cases traced : session.traced <;> simp [enter, takeUp, traced, Trace.lines]

theorem takeUp_leave (session : Session) (rule : String) (matched : Bool) :
    (leave rule matched session).2 =
      session.takeUp [.leave rule matched session.stream.pos] session.stream.pos := by
  refine ext_of rfl rfl rfl rfl ?_
  cases traced : session.traced <;> simp [leave, takeUp, traced, Trace.lines]

theorem run_within (rule : String) (parser : Parser α) :
    session.run (Parser.within rule parser) =
      match (enter rule session).2.run parser with
      | (.matched value next, after) => (.matched value next, (leave rule true after).2)
      | (.failed error _, after) => (.failed error session.stream.cursor,
          (leave rule false after).2.restore session.stream.pos)
      | (.stuck fault stop, after) => (.stuck fault stop, after) := by
  have place : (enter rule session).2.stream.cursor = session.stream.cursor := rfl
  rw [run_eq, run_eq, place, takeUp_enter]
  unfold Parser.within
  cases parser session.stream.cursor with
  | mk journal outcome =>
      cases outcome with
      | matched value next =>
          dsimp only
          rw [takeUp_leave, ← takeUp_append, ← takeUp_append]
          rfl
      | failed error stop =>
          dsimp only
          rw [takeUp_leave, ← takeUp_append, ← takeUp_append]
          rfl
      | stuck fault stop =>
          dsimp only
          rw [← takeUp_append]
          rfl

end Notes

end Session

namespace Routine

/-! What the steps of a routine come to, run after run. -/

theorem bind_run (first : Routine α) (next : α → Routine β) (session : Session) :
    (first >>= next) session = match first session with
      | (.value value, after) => next value after
      | (.error error, after) => (.error error, after)
      | (.stuck fault, after) => (.stuck fault, after) := rfl

theorem tried_bind_run (routine : Routine α) (next : Except ParseError α → Routine β)
    (session : Session) :
    (routine.tried >>= next) session = match routine session with
      | (.value value, after) => next (.ok value) after
      | (.error error, after) => next (.error error) after
      | (.stuck fault, after) => (.stuck fault, after) := by
  rw [bind_run, tried]
  cases routine session with
  | mk ended after => cases ended <;> rfl

theorem lookAhead_run (routine : Routine α) (session : Session) :
    routine.lookAhead session = match routine session with
      | (.value value, after) => (.value value, after.restore session.stream.pos)
      | (.error error, after) => (.error error, after.restore session.stream.pos)
      | (.stuck fault, after) => (.stuck fault, after) := by
  simp only [lookAhead, Bind.bind, Routine.bind, tried, save]
  cases routine session with
  | mk ended after => cases ended <;> rfl

theorem within_run (rule : String) (routine : Routine α) (session : Session) :
    routine.within rule session = match routine (enter rule session).2 with
      | (.value value, after) => (.value value, (leave rule true after).2)
      | (.error error, after) => (.error error, (leave rule false after).2.restore session.stream.pos)
      | (.stuck fault, after) => (.stuck fault, after) := by
  simp only [within, Bind.bind, Routine.bind, tried, save, enter]
  generalize routine _ = ran
  obtain ⟨ended, after⟩ := ran
  cases ended <;> rfl

theorem nextToken_run (session : Session) : nextToken session =
    (.value session.peek, session.restore session.stream.cursor.advance.pos) := by
  simp only [nextToken, Session.nextToken, TokenStream.next_eq]
  rfl

theorem matchNext_run (constraint : Constraint) (session : Session) :
    matchNext constraint session =
      if constraint.isEmpty then
        if session.peek.isEnd then reject .unexpectedEnd session
        else (.value session.peek, session.restore session.stream.cursor.advance.pos)
      else match constraint.find? session.peek with
        | some pattern => (.value session.peek,
            if pattern.lookahead then session else session.restore session.stream.cursor.advance.pos)
        | none => reject (.expected constraint.patterns) session := by
  simp only [matchNext, Bind.bind, Routine.bind, save, nextToken_run]
  cases constraint.isEmpty with
  | true => cases session.peek.isEnd <;> rfl
  | false =>
      cases constraint.find? session.peek with
      | none => rfl
      | some pattern =>
          dsimp only
          cases pattern.lookahead <;> rfl

end Routine

namespace Parser

/-- A parser does in a session what a routine has done. -/
inductive Enacts (parser : Parser α) (session : Session) : Ended α × Session → Prop
  | matched (ran : session.run parser = (.matched value after.stream.cursor, after)) :
      Enacts parser session (.value value, after)
  | failed (ran : session.run parser = (.failed error after.stream.cursor, after)) :
      Enacts parser session (.error error, after)
  | stuck (ran : session.run parser = (.stuck fault after.stream.cursor, after)) :
      Enacts parser session (.stuck fault, after)

namespace Enacts

variable {session after : Session} {pos : Nat}

theorem stands {parser : Parser α} (enacts : Enacts parser session ran) :
    (session.run parser).1.cursor = (session.run parser).2.stream.cursor := by
  cases enacts with
  | matched ran | failed ran | stuck ran =>
      rw [ran]
      rfl

/-- A session keeps its tokens. -/
theorem tokens {parser : Parser α} (ran : session.run parser = (outcome, after)) :
    after.stream.tokens = session.stream.tokens := by
  rw [Session.run_eq] at ran
  rw [← (Prod.mk.inj ran).2]
  rfl

theorem restored {parser : Parser α} (ran : session.run parser = (outcome, after)) :
    (after.restore session.stream.pos).stream.cursor = session.stream.cursor := by
  have same : (after.restore session.stream.pos).stream = session.stream := by
    rw [Session.restore, TokenStream.restore, tokens ran]
  rw [same]

/-- A match without a trace moves the stream and does nothing else. -/
theorem of_moved {parser : Parser α} {place : Cursor}
    (ran : parser session.stream.cursor = ⟨[], .matched value place⟩)
    (stands : (session.stream.restore place.pos).cursor = place) :
    Enacts parser session (.value value, session.restore place.pos) := by
  refine .matched ?_
  rw [Session.run_eq, ran]
  exact Prod.ext (congrArg (Outcome.matched value) stands.symm) (session.takeUp_nil place.pos)

theorem pure (value : α) (session : Session) :
    Enacts (Pure.pure value) session ((Pure.pure value : Routine α) session) := by
  have moved : Enacts (Pure.pure value) session
      (.value value, session.restore session.stream.cursor.pos) := of_moved rfl rfl
  exact moved

theorem throw (error : ParseError) (session : Session) :
    Enacts (fail error : Parser α) session (Routine.throw error session) := by
  refine .failed ?_
  rw [Session.run_eq]
  exact congrArg _ (session.takeUp_nil _)

theorem getStuck (fault : Fault) (session : Session) :
    Enacts (Parser.getStuck fault : Parser α) session (Routine.getStuck fault session) := by
  refine .stuck ?_
  rw [Session.run_eq]
  exact congrArg _ (session.takeUp_nil _)

/-- Only the run counts. -/
theorem congr {parser : Parser α} {other : Parser α} (enacts : Enacts other after ran)
    (same : session.run parser = after.run other) : Enacts parser session ran := by
  cases enacts with
  | matched ran => exact .matched (same.trans ran)
  | failed ran => exact .failed (same.trans ran)
  | stuck ran => exact .stuck (same.trans ran)

/-- A parser that begins by telling its place does nothing else by that. -/
theorem here_bind {next : Cursor → Parser α}
    (enacts : Enacts (next session.stream.cursor) session ran) :
    Enacts (here >>= next) session ran :=
  enacts.congr rfl

theorem save_bind {parser : Parser α} {later : Nat → Routine α}
    (enacts : Enacts parser session (later session.stream.pos session)) :
    Enacts parser session ((Routine.save >>= later) session) :=
  enacts

section Parts

variable {first : Parser α} {routine : Routine α} (head : Enacts first session (routine session))

include head

theorem bind {next : α → Parser β} {later : α → Routine β}
    (tail : ∀ value after, session.run first = (.matched value after.stream.cursor, after) →
      Enacts (next value) after (later value after)) :
    Enacts (first >>= next) session ((routine >>= later) session) := by
  have runs := Session.run_bind next head.stands
  rw [Routine.bind_run]
  generalize routine session = ended at head
  cases head with
  | matched ran =>
      rw [ran] at runs
      exact (tail _ _ ran).congr runs
  | failed ran =>
      rw [ran] at runs
      exact .failed runs
  | stuck ran =>
      rw [ran] at runs
      exact .stuck runs

/-- A parser that is tried goes back if it fails, and with a routine what comes later has to. -/
theorem attempt {next : Except ParseError α → Parser β} {later : Except ParseError α → Routine β}
    (matched : ∀ value after, session.run first = (.matched value after.stream.cursor, after) →
      Enacts (next (.ok value)) after (later (.ok value) after))
    (failed : ∀ error after, session.run first = (.failed error after.stream.cursor, after) →
      Enacts (next (.error error)) (after.restore session.stream.pos)
        (later (.error error) after)) :
    Enacts (attempt first >>= next) session ((routine.tried >>= later) session) := by
  have tries := session.run_attempt first
  rw [Routine.tried_bind_run]
  generalize routine session = ended at head
  cases head with
  | matched ran =>
      rw [ran] at tries
      have runs := Session.run_bind next (by rw [tries]; rfl)
      rw [tries] at runs
      exact (matched _ _ ran).congr runs
  | failed ran =>
      rw [ran] at tries
      have runs := Session.run_bind next (by rw [tries]; exact (restored ran).symm)
      rw [tries] at runs
      exact (failed _ _ ran).congr runs
  | stuck ran =>
      rw [ran] at tries
      have runs := Session.run_bind next (by rw [tries]; rfl)
      rw [tries] at runs
      exact .stuck runs

theorem lookAhead : Enacts (lookAhead first) session (routine.lookAhead session) := by
  have looks := session.run_lookAhead first
  rw [Routine.lookAhead_run]
  generalize routine session = ended at head
  cases head with
  | matched ran =>
      rw [ran] at looks
      exact .matched (by rw [looks, restored ran])
  | failed ran =>
      rw [ran] at looks
      exact .failed (by rw [looks, restored ran])
  | stuck ran =>
      rw [ran] at looks
      exact .stuck looks

end Parts

theorem within {parser : Parser α} {routine : Routine α} (rule : String)
    (inside : Enacts parser (Routine.enter rule session).2
      (routine (Routine.enter rule session).2)) :
    Enacts (within rule parser) session (routine.within rule session) := by
  have notes := session.run_within rule parser
  rw [Routine.within_run]
  generalize routine (Routine.enter rule session).2 = ended at inside
  cases inside with
  | matched ran =>
      rw [ran] at notes
      exact .matched notes
  | @failed after error ran =>
      rw [ran] at notes
      have place : ((Routine.leave rule false after).2.restore session.stream.pos).stream.cursor =
          session.stream.cursor := (restored ran :)
      exact .failed (by rw [notes, place])
  | stuck ran =>
      rw [ran] at notes
      exact .stuck notes

theorem reject (cause : Cause) (session : Session) :
    Enacts (Parser.reject cause : Parser α) session (Routine.reject cause session) := by
  refine .failed ?_
  rw [Session.run_eq, Parser.reject_run]
  exact congrArg _ (session.takeUp_failure _)

theorem matchNext (constraint : Constraint) (session : Session) :
    Enacts (matchNext constraint) session (Routine.matchNext constraint session) := by
  have checks := matchNext_checks constraint session.stream.cursor
  generalize ran : Parser.matchNext constraint session.stream.cursor = run at checks
  rw [Routine.matchNext_run]
  cases checks with
  | anyToken unconstrained present =>
      have ordinary : session.peek.isEnd = false := present
      rw [unconstrained, ordinary]
      exact of_moved ran session.stream.cursor_advance
  | atEnd unconstrained absent =>
      have ended : session.peek.isEnd = true := absent
      rw [unconstrained, ended]
      exact (reject .unexpectedEnd session).congr (by rw [Session.run_eq, Session.run_eq, ran])
  | @accepted pattern constrained found =>
      have accepted : constraint.find? session.peek = some pattern := found
      simp only [constrained, accepted]
      cases look : pattern.lookahead with
      | true =>
          rw [look] at ran
          exact of_moved ran rfl
      | false =>
          rw [look] at ran
          exact of_moved ran session.stream.cursor_advance
  | refused constrained missing =>
      have refused : constraint.find? session.peek = none := missing
      rw [constrained, refused]
      exact (reject _ session).congr (by rw [Session.run_eq, Session.run_eq, ran])

theorem dropLoop (drop : Constraint) (steps : Nat) (session : Session)
    (few : session.stream.cursor.rest.length < steps) :
    Routine.dropLoop drop steps session =
      (.value (), session.restore (session.stream.cursor.skip drop).pos) := by
  induction steps generalizing session with
  | zero => cases few
  | succ steps ih =>
      simp only [Routine.dropLoop, Bind.bind, Routine.bind, Routine.save, Routine.nextToken_run]
      cases found : drop.find? session.stream.cursor.peek with
      | none =>
          have kept : drop.find? session.peek = none := found
          rw [Cursor.skip_of_kept found, kept]
          rfl
      | some pattern =>
          have dropped : drop.find? session.peek = some pattern := found
          have place : (session.restore session.stream.cursor.advance.pos).stream.cursor =
              session.stream.cursor.advance := session.stream.cursor_advance
          have fewer : (session.restore session.stream.cursor.advance.pos).stream.cursor.rest.length <
              steps := by
            rw [place]
            cases remaining : session.stream.cursor with
            | mk pos rest =>
                rw [remaining] at found few
                cases rest with
                | nil => simp at found
                | cons token rest => simpa using few
          rw [Cursor.skip_of_dropped found, dropped, ← place]
          exact ih _ fewer

theorem dropTokens (drop : Constraint) (session : Session) :
    Enacts (dropTokens drop) session (Routine.dropTokens drop session) := by
  have moved : Enacts (Parser.dropTokens drop) session
      (.value (), session.restore (session.stream.cursor.skip drop).pos) :=
    of_moved rfl (session.stream.cursor_skip drop)
  cases unfiltered : drop.isEmpty with
  | true =>
      obtain ⟨patterns⟩ := drop
      cases List.isEmpty_iff.mp unfiltered
      have stays := session.stream.cursor.skip_anyToken
      rw [Constraint.anyToken] at stays
      rw [stays] at moved
      exact moved
  | false =>
      have goes : Routine.dropTokens drop session =
          Routine.dropLoop drop (session.stream.cursor.rest.length + 1) session := by
        simp only [Routine.dropTokens, unfiltered]
        rfl
      rw [goes, dropLoop drop _ session (Nat.lt_succ_self _)]
      exact moved

/-! The parts of a rule. What its fields hold goes back by itself if it fails. -/

section Rule

variable {content : Symbol → Constraint → Parser Tree}
  {routines : Symbol → Constraint → Routine Tree}
  (contents : ∀ symbol constraint session,
    Enacts (content symbol constraint) session (routines symbol constraint session))
  (back : ∀ {symbol constraint start error stop},
    (content symbol constraint start).outcome = .failed error stop → stop = start)

include contents back

theorem separator (field : FieldDescriptor) (session : Session) :
    Enacts (separator content field) session (Routine.separator routines field session) := by
  refine attempt (contents _ _ session) (fun _ after _ => pure () after) fun error after ran => ?_
  dsimp only
  split
  · exact pure () _
  · have place : after.stream.cursor = session.stream.cursor := back (congrArg Prod.fst ran)
    have stays : after.restore session.stream.pos = after := by
      rw [← session.stream.pos_cursor, ← place]
      rfl
    rw [stays]
    exact throw error after

theorem gap (between : Gap) (before : Nat) (session : Session) :
    Enacts (gap content between before) session (Routine.gap routines between before session) := by
  refine bind (dropTokens between.drop session) fun _ after _ => ?_
  cases between.separator with
  | none => cases before <;> exact pure () after
  | some field =>
      cases before with
      | zero => exact pure () after
      | succ =>
          exact bind (separator contents back field after) fun _ later _ =>
            dropTokens between.drop later

theorem item (between : Gap) (field : FieldDescriptor) (before : Nat) (session : Session) :
    Enacts (item content between field before) session
      (Routine.item routines between field before session) :=
  bind (gap contents back between before session) fun _ after _ => contents _ _ after

theorem repetition (between : Gap) (field : FieldDescriptor) (before count : Nat)
    (session : Session) : Enacts (repetition content between field before count) session
      (Routine.repetition routines between field before count session) := by
  have last := item contents back between field (before + count)
  unfold Parser.repetition Routine.repetition
  split
  · refine bind (dropTokens between.drop session) fun _ after _ => ?_
    exact bind (matchNext field.separator after) fun _ later _ => last later
  · exact last session

theorem repetitions (between : Gap) (field : FieldDescriptor) (before steps count : Nat)
    (session : Session) : Enacts (repetitions content between field before steps count) session
      (Routine.repetitions routines between field before steps count session) := by
  induction steps generalizing count session with
  | zero => exact getStuck .unbounded session
  | succ steps ih =>
      unfold Parser.repetitions Routine.repetitions
      split
      · have once := repetition contents back between field before count session
        refine here_bind (attempt once (fun tree after _ => here_bind (save_bind ?_))
          fun error after _ => pure _ _)
        dsimp only
        by_cases stalled : after.stream.pos = session.stream.pos
        · have place : after.stream.cursor.pos = session.stream.cursor.pos := stalled
          rw [if_pos stalled, if_pos place]
          exact pure _ after
        · have place : after.stream.cursor.pos ≠ session.stream.cursor.pos := stalled
          rw [if_neg stalled, if_neg place]
          exact bind (ih (count + 1) after) fun _ later _ => pure _ later
      · exact pure _ session

theorem repeated (rule : String) (between : Gap) (field : FieldDescriptor) (before least : Nat)
    (session : Session) : Enacts (repeated content rule between field before least) session
      (Routine.repeated routines rule between field before least session) := by
  refine here_bind (bind (repetitions contents back between field before _ 0 session)
    fun result after _ => ?_)
  obtain ⟨trees, error⟩ := result
  dsimp only
  split
  · cases error with
    | some error => exact throw error after
    | none => exact reject _ after
  · exact pure trees after

theorem fieldValues (rule : Descriptor) (field : FieldDescriptor) (before : Nat)
    (session : Session) : Enacts (fieldValues content rule field before) session
      (Routine.fieldValues routines rule field before session) := by
  have once := item contents back (.ofRule rule) field before session
  unfold Parser.fieldValues Routine.fieldValues
  cases field.cardinality with
  | single => exact bind once fun _ after _ => pure _ after
  | optional => exact attempt once (fun _ after _ => pure _ after) fun _ _ _ => pure _ _
  | repeated => exact repeated contents back rule.name (.ofRule rule) field before _ session

theorem sequence (rule : Descriptor) (fields : List FieldDescriptor) (before : Nat)
    (session : Session) : Enacts (sequence content rule fields before) session
      (Routine.sequence routines rule fields before session) := by
  induction fields generalizing before session with
  | nil =>
      unfold Parser.sequence Routine.sequence
      split
      · exact reject .emptyMatch session
      · exact pure [] session
  | cons field rest ih =>
      refine bind (fieldValues contents back rule field before session) fun values after _ => ?_
      exact bind (ih _ after) fun _ later _ => pure _ later

theorem alternative (rule : Descriptor) (field : FieldDescriptor) (session : Session) :
    Enacts (alternative content rule field) session
      (Routine.alternative routines rule field session) := by
  have lone : Enacts (do return [← content field.symbol field.tokens]) session
      ((do return [← routines field.symbol field.tokens]) session) :=
    bind (contents _ _ session) fun _ after _ => pure _ after
  unfold Parser.alternative Routine.alternative
  cases field.cardinality with
  | repeated => exact repeated contents back _ _ _ _ _ session
  | single | optional => exact lone

/-- The fields are tried from one place, to which the session goes back after each of them. -/
theorem choice (rule : Descriptor) (fields : List FieldDescriptor) (gathered : Option ParseError)
    (session : Session) : Enacts (choice content rule fields gathered) session
      (Routine.choice routines rule session.stream.pos fields gathered session) := by
  induction fields generalizing gathered session with
  | nil =>
      cases gathered with
      | none => exact reject .emptyMatch session
      | some error => exact throw error session
  | cons field rest ih =>
      refine attempt (alternative contents back rule field session) (fun _ after _ => pure _ after)
        fun error after _ => ?_
      exact bind (ih (some (.gather gathered error)) (after.restore session.stream.pos))
        fun _ later _ => pure _ later

theorem body (rule : Descriptor) (session : Session) :
    Enacts (body content rule) session (Routine.body routines rule session) := by
  unfold Parser.body Routine.body
  cases rule.combinator with
  | seq => exact sequence contents back rule rule.fields 0 session
  | oneOf =>
      exact bind (dropTokens rule.drop session) fun _ after _ =>
        choice contents back rule rule.fields none after

omit contents back in
theorem guarded (rule : Descriptor) (guard : Constraint) (session : Session) :
    Enacts (guarded rule guard) session (Routine.guarded rule guard session) := by
  unfold Parser.guarded Routine.guarded
  split
  · exact pure () session
  · refine lookAhead (bind (dropTokens rule.drop session) fun _ after _ => ?_)
    exact lookAhead (bind (matchNext guard after) fun _ later _ => pure () later)

theorem node (rule : Descriptor) (guard : Constraint) (session : Session) :
    Enacts (node content rule guard) session (Routine.node routines rule guard session) := by
  refine bind (guarded rule guard session) fun _ after _ => ?_
  exact bind (within rule.name (body contents back rule _)) fun _ later _ => pure _ later

omit contents back in
theorem nodeless (rule : Descriptor) (guard : Constraint) (session : Session) :
    Enacts (nodeless rule guard) session (Routine.nodeless rule guard session) :=
  bind (guarded rule guard session) fun _ _ _ => within rule.name (getStuck _ _)

end Rule
end Enacts
end Parser

namespace Grammar

open TokenGrammar.Parser

variable {grammar : Grammar}

theorem enacts_contentParser {rules : String → Constraint → Parser Tree}
    {routines : String → Constraint → Routine Tree}
    (nodes : ∀ name guard session, Enacts (rules name guard) session (routines name guard session))
    (symbol : Symbol) (constraint : Constraint) (session : Session) :
    Enacts (contentParser rules symbol constraint) session
      (contentRoutine routines symbol constraint session) := by
  induction symbol with
  | token | mark => exact .bind (.matchNext constraint session) fun _ after _ => .pure _ after
  | rule name => exact nodes name constraint session
  | boxed symbol ih => exact ih

theorem enacts_ruleParser (grammar : Grammar) (depth : Nat) (path : String) (guard : Constraint)
    (session : Session) : Enacts (grammar.ruleParser depth path guard) session
      (grammar.ruleRoutine depth path guard session) := by
  induction depth generalizing path guard session with
  | zero => exact .getStuck .unbounded session
  | succ depth ih =>
      simp only [ruleParser, ruleRoutine]
      cases grammar.find? path with
      | none => exact .getStuck _ session
      | some compiled =>
          cases compiled with
          | error error => exact .getStuck _ session
          | ok rule =>
              dsimp only
              split
              · refine .node (enacts_contentParser ih) (fun failed => ?_) rule guard session
                exact (contentParser_carriesOut (ruleParser_carriesOut depth) _ _ _ (.failed _)
                  (by rw [failed]; rfl)).content_failed
              · exact .nodeless rule guard session

/-- What a symbol is parsed to in a session, and what that leaves behind there, comes about by
steps that read and change the session. -/
theorem parseIn_eq (grammar : Grammar) (symbol : Symbol) (constraint : Constraint)
    (session : Session) : grammar.parseIn symbol constraint session =
      ((session.run (grammar.parse symbol constraint)).1.ended,
        (session.run (grammar.parse symbol constraint)).2) := by
  have enacts : Enacts (grammar.parse symbol constraint) session
      (grammar.parseIn symbol constraint session) :=
    .congr (enacts_contentParser (enacts_ruleParser grammar _) symbol constraint session) rfl
  generalize grammar.parseIn symbol constraint session = ended at enacts
  cases enacts with
  | matched ran | failed ran | stuck ran =>
      rw [ran]
      rfl

/-- What a session has noted before does not show in what is parsed, nor in where the stream stands
then. -/
theorem parseIn_independent (grammar : Grammar) (symbol : Symbol) (constraint : Constraint)
    {session other : Session} (same : other.stream = session.stream) :
    (grammar.parseIn symbol constraint other).1 = (grammar.parseIn symbol constraint session).1 ∧
      (grammar.parseIn symbol constraint other).2.stream =
        (grammar.parseIn symbol constraint session).2.stream := by
  rw [parseIn_eq, parseIn_eq, Session.run_eq, Session.run_eq, same]
  exact ⟨rfl, congrArg (fun stream : TokenStream => stream.restore _) same⟩

end Grammar
end TokenGrammar
