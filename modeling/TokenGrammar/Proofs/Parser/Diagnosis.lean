import TokenGrammar.Proofs.Parser.Absorption
import TokenGrammar.Proofs.Parser.FurthestError
import TokenGrammar.Proofs.Parser.Place

namespace TokenGrammar

/-! What a reported error says is true of the input: it names the token at its position, and its
cause is one that this token can give. That a sequence has matched nothing is never reported,
because a check has failed before at the same place or further on. -/

/-- A cause that a token can give. -/
def Cause.Fits (token : Token) : Cause → Prop
  | .expected patterns => patterns ≠ [] ∧ ∀ pattern ∈ patterns, pattern.accepts token = false
  | .unexpectedEnd => token = .endOfInput
  | .trailingInput => token ≠ .endOfInput
  | .message _ | .emptyMatch => True

theorem Cursor.Consumes.unique {start first second : Cursor} (consumes : start.Consumes taken first)
    (other : start.Consumes more second) (same : first.pos = second.pos) : first = second := by
  have length : taken.length = more.length := by
    have := consumes.pos
    have := other.pos
    omega
  have rest : first.rest = second.rest :=
    (List.append_inj (consumes.rest.symm.trans other.rest) length).2
  cases first
  cases second
  simp only at rest same
  rw [rest, same]

namespace ParseError

variable {start middle : Cursor} {error later : ParseError}

/-- An error about the next token at some place from a cursor on. -/
def Concerns (start : Cursor) (error : ParseError) : Prop :=
  ∃ taken place, start.Consumes taken place ∧ error = .atCursor error.cause place ∧
    error.cause.Fits place.peek

theorem Concerns.behind (concerns : Concerns middle error)
    (follows : Ending.Follows start (.matched count middle)) : Concerns start error := by
  obtain ⟨taken, consumes⟩ := follows _ _ rfl
  obtain ⟨more, place, further, same, fits⟩ := concerns
  exact ⟨_, place, consumes.trans further, same, fits⟩

theorem Concerns.merge (concerns : Concerns start error) (concernsToo : Concerns start later) :
    Concerns start (error.merge later) := by
  rcases Nat.lt_trichotomy error.pos later.pos with further | level | behind
  · rw [merge_of_lt further]
    exact concernsToo
  · obtain ⟨taken, place, consumes, same, fits⟩ := id concerns
    obtain ⟨more, other, consumesToo, sameToo, fitsToo⟩ := id concernsToo
    have position : error.pos = place.pos := congrArg ParseError.pos same
    have positionToo : later.pos = other.pos := congrArg ParseError.pos sameToo
    cases consumes.unique consumesToo (by rw [← position, level, positionToo])
    rw [merge_of_level level.symm]
    cases cause : error.cause with
    | expected first =>
        cases laterCause : later.cause with
        | expected second =>
            rw [cause] at fits
            rw [laterCause] at fitsToo
            refine ⟨taken, place, consumes, by rw [same]; rfl, ?_, fun pattern member => ?_⟩
            · obtain ⟨pattern, member⟩ := List.exists_mem_of_ne_nil _ fits.1
              exact List.ne_nil_of_mem (mem_unite.mpr (.inl member))
            · exact (mem_unite.mp member).elim (fits.2 pattern) (fitsToo.2 pattern)
        | _ => exact concerns
    | _ =>
        cases laterCause : later.cause with
        | expected second => exact concernsToo
        | _ => exact concerns
  · rw [merge_of_gt behind]
    exact concerns

theorem concerns_recordAll {record : Option ParseError} {errors : List ParseError}
    (held : ∀ earlier, record = some earlier → Concerns start earlier)
    (each : ∀ other ∈ errors, Concerns start other)
    (joined : recordAll record errors = some error) : Concerns start error := by
  induction errors generalizing record with
  | nil => exact held error joined
  | cons next rest ih =>
      refine ih (fun earlier same => ?_) (fun other member => each other (by simp [member])) joined
      cases same
      cases record with
      | none => exact each next (by simp)
      | some earlier => exact (held earlier rfl).merge (each next (by simp))

/-! A record that does not end in the failure of a sequence that has matched nothing. -/

def Accountable (record : Option ParseError) : Prop :=
  ∀ held, record = some held → held.cause ≠ .emptyMatch

theorem Accountable.gather {record : Option ParseError} (accountable : Accountable record)
    (named : error.cause ≠ .emptyMatch) : Accountable (some (gather record error)) := by
  rintro _ ⟨⟩
  cases record with
  | none => exact named
  | some held =>
      have earlier := accountable held rfl
      simp only [ParseError.gather]
      rcases Nat.lt_trichotomy held.pos error.pos with further | level | behind
      · rwa [merge_of_lt further]
      · rw [merge_of_level level.symm]
        split
        · simp
        all_goals assumption
      · rwa [merge_of_gt behind]

theorem Accountable.absorbs {record : Option ParseError} (accountable : Accountable record)
    (reached : Reached record error.pos) (own : error.cause = .emptyMatch) :
    Accountable (some (ParseError.gather record error)) := by
  obtain ⟨held, rfl, within⟩ := reached
  intro joined same
  cases same
  rw [ParseError.gather, merge_of_ofRule (by rw [own]; rfl) within]
  exact accountable held rfl

end ParseError

open ParseError

/-- All errors of a journal are about places from a cursor on. -/
def Event.Truthful (start : Cursor) (journal : List Event) : Prop :=
  ∀ error ∈ Event.errors journal, error.Concerns start

namespace Event.Truthful

variable {start middle : Cursor} {first second journal : List Event}

theorem nil : Truthful start [] := by simp [Truthful, errors]

theorem failureAt {cause : Cause} (fits : cause.Fits start.peek) :
    Truthful start [.failureAt cause start] := by
  intro error member
  simp only [errors, Event.failureAt, List.filterMap_cons, error?, List.filterMap_nil,
    List.mem_singleton] at member
  subst member
  exact ⟨[], start, .refl start, rfl, fits⟩

theorem behind (truthful : Truthful middle journal)
    (follows : Ending.Follows start (.matched count middle)) : Truthful start journal :=
  fun error member => (truthful error member).behind follows

theorem append (earlier : Truthful start first) (later : Truthful start second) :
    Truthful start (first ++ second) := by
  intro error member
  rw [errors_append, List.mem_append] at member
  exact member.elim (earlier error) (later error)

theorem call (truthful : Truthful start journal) (rule : String) (place : Cursor)
    (ending : Ending) : Truthful start (Event.call rule place journal ending) := by
  rwa [Truthful, Event.call, errors_enclosed]

end Event.Truthful

namespace Grammar.Performs

open Event (Truthful)
open Ending (Follows)

variable {grammar : Grammar}

theorem truthful (performed : grammar.Performs task start journal ending) :
    Truthful start journal := by
  induction performed with
  | anyToken | accepted | plainGap | full | noMoreFields | noMoreAlternatives => exact .nil
  | atEnd _ absent => exact .failureAt (Token.isEnd_iff.mp absent)
  | refused constrained missing =>
      refine .failureAt ⟨by simpa [Constraint.isEmpty] using constrained, fun pattern member => ?_⟩
      simpa using List.find?_eq_none.mp missing pattern member
  | fullShort | nothing | noAlternative => exact .failureAt trivial
  | unguarded _ _ _ body => exact body.call _ _ _
  | guarded _ _ _ _ check body => exact (check.behind (.skip _ _)).append (body.call _ _ _)
  | guardFails _ _ _ check | brokenGap _ _ _ check | repetitionCutOff _ _ _ check
  | separatedGap _ _ _ check | choice _ _ check => exact check.behind (.skip _ _)
  | item gap _ first second => exact first.append (second.behind gap.follows)
  | separatedRepetition _ _ check _ first second =>
      exact (first.behind (.skip _ _)).append
        (second.behind ((Follows.skip _ _).trans check.follows))
  | stalledShort _ repetition _ _ ih =>
      refine ih.append (Truthful.behind ?_ repetition.follows)
      exact .failureAt trivial
  | repeats _ repetition _ _ first second =>
      exact first.append (second.behind repetition.follows)
  | fields values _ first second => exact first.append (second.behind values.follows)
  | passedOver _ _ first second => exact first.append second
  | _ => assumption

/-- What keeps a task from failing by itself without a failed check before it. -/
def Sheltered (record : Option ParseError) (start : Cursor) : Task → Prop
  | .fields _ rest before => (∀ field ∈ rest, field.size.Sound) ∧
    (rest = [] → before = 0 → Reached record start.pos)
  | .alternatives _ rest tried => rest = [] → tried = true
  | .body rule => rule.fields ≠ [] ∧ ∀ field ∈ rule.fields, field.size.Sound
  | _ => True

theorem accountable (sized : grammar.Sized)
    (performed : grammar.Performs task start journal ending) :
    ∀ record, Sheltered record start task → Accountable record →
      Accountable (recordAll record (Event.errors journal)) := by
  induction performed with
  | anyToken | accepted | plainGap | full | noMoreFields | noMoreAlternatives =>
      exact fun _ _ held => held
  | atEnd | refused | fullShort => exact fun _ _ held => held.gather (by simp [atCursor, FieldDescriptor.tooFew])
  | unguarded defined _ _ ih =>
      intro record _ held
      rw [Event.call, Event.errors_enclosed]
      exact ih record (sized _ _ defined) held
  | guarded defined _ _ _ checked ih =>
      intro record _ held
      rw [Event.errors_append, recordAll_append, Event.call, Event.errors_enclosed]
      exact ih _ (sized _ _ defined) (checked record trivial held)
  | item _ _ first second | separatedRepetition _ _ _ _ first second
  | repeats _ _ _ _ first second =>
      intro record _ held
      rw [Event.errors_append, recordAll_append]
      exact second _ trivial (first record trivial held)
  | stalledShort _ _ _ _ ih =>
      intro record _ held
      rw [Event.errors_append, recordAll_append]
      exact (ih record trivial held).gather (by simp [atCursor, FieldDescriptor.tooFew])
  | nothing => exact fun record sheltered held => held.absorbs (sheltered.2 rfl rfl) rfl
  | fields values _ first second =>
      intro record sheltered held
      have sound := sheltered.1
      rw [Event.errors_append, recordAll_append]
      refine second _ ⟨fun _ member => sound _ (by simp [member]), fun _ none => ?_⟩
        (first record trivial held)
      obtain ⟨rfl, rfl⟩ := Nat.add_eq_zero_iff.mp none
      obtain ⟨error, member, within⟩ := values.values_missing (sound _ (by simp))
      exact (reached_recordAll record member).mono within
  | noAlternative => exact fun record sheltered _ => absurd (sheltered rfl) (by simp)
  | passedOver _ _ first second =>
      intro record _ held
      rw [Event.errors_append, recordAll_append]
      exact second _ (fun _ => rfl) (first record trivial held)
  | sequence _ _ ih =>
      exact fun record sheltered => ih record ⟨sheltered.2, fun none => absurd none sheltered.1⟩
  | choice _ _ ih => exact fun record sheltered => ih record fun none => absurd none sheltered.1
  | _ => exact fun record _ => by apply_assumption; trivial

end Grammar.Performs

/-- An error that tells the truth about the stream that a parse has read from. -/
structure ParseError.Describes (stream : TokenStream) (error : ParseError) : Prop where
  notBefore : stream.pos ≤ error.pos
  inside : error.pos ≤ stream.tokens.length
  token : error.token = (stream.restore error.pos).next.1
  fits : error.cause.Fits error.token
  named : error.cause ≠ .emptyMatch

theorem ParseError.Concerns.describes {stream : TokenStream} {error : ParseError}
    (concerns : Concerns stream.cursor error) (within : stream.pos ≤ stream.tokens.length)
    (named : error.cause ≠ .emptyMatch) : error.Describes stream := by
  obtain ⟨taken, place, consumes, same, fits⟩ := concerns
  have there : place = (stream.restore (stream.pos + taken.length)).cursor :=
    TokenStream.cursor_of_consumes consumes
  have position : error.pos = stream.pos + taken.length := by rw [same, there]; rfl
  have token : error.token = place.peek := by rw [same]; rfl
  have remaining := congrArg List.length consumes.rest
  simp only [TokenStream.cursor, List.length_drop, List.length_append] at remaining
  exact {
    notBefore := by omega
    inside := by omega
    token := by rw [token, TokenStream.next_eq, position, ← there]
    fits := by rwa [token]
    named }

namespace Grammar

variable {grammar : Grammar} {root : Symbol} {complete : Bool} {start : Cursor}

theorem consumes_skipTrailing (grammar : Grammar) (root : Symbol) (start : Cursor) :
    ∃ taken, start.Consumes taken (grammar.skipTrailing root start) := by
  unfold skipTrailing
  split
  · obtain ⟨taken, _, consumes⟩ := start.consumes_skip _
    exact ⟨taken, consumes⟩
  · exact ⟨[], .refl start⟩

theorem Produces.truthful (produces : grammar.Produces root complete start errors) :
    ∀ error ∈ errors, error.Concerns start := by
  cases produces with
  | rootFails performed => exact performed.truthful
  | @inputRemains _ _ next _ performed remains =>
      intro error member
      rcases List.mem_append.mp member with earlier | last
      · exact performed.truthful error earlier
      · obtain ⟨taken, consumes⟩ := performed.follows _ _ rfl
        obtain ⟨more, further⟩ := grammar.consumes_skipTrailing root next
        have present : (grammar.skipTrailing root next).peek ≠ .endOfInput := by
          simpa [← Token.isEnd_iff] using remains
        cases List.mem_singleton.mp last
        exact ⟨_, _, consumes.trans further, rfl, present⟩

theorem Produces.accountable (sized : grammar.Sized)
    (produces : grammar.Produces root complete start errors) : Accountable (furthest errors) := by
  have fresh : Accountable none := by simp [Accountable]
  cases produces with
  | rootFails performed => exact performed.accountable sized none trivial fresh
  | inputRemains _ performed =>
      have matched := performed.accountable sized none trivial fresh
      rw [furthest_concat]
      exact Accountable.gather matched (by simp [atCursor])

/-- The error of a whole parse that fails names the token that the stream yields at its position,
which lies between the start of the parse and the end of the stream, and a cause that this token
gives. It is never that a sequence has matched nothing: the check that failed before overrules
that. -/
theorem parseFrom_describes (declarations : List Declaration) (root : Symbol) (complete : Bool)
    (stream : TokenStream) (within : stream.pos ≤ stream.tokens.length)
    (failed : ((ofDeclarations declarations).parseFrom root complete stream.cursor).outcome =
      .failed error stop) : error.Describes stream := by
  obtain ⟨errors, produces, joined⟩ := parseFrom_furthest failed
  have concerns : error.Concerns stream.cursor :=
    concerns_recordAll (by simp) produces.truthful joined
  exact concerns.describes within (produces.accountable (sized declarations) error joined)

open Declaration in
/-- Neither field of a pair is there. The check of each fails behind the token that the rule
drops, and overrules the empty match before it. -/
theorem parseFrom_describes_empty_pair :
    let declarations := [seq "Pair" "space"
      [optional (tokenField "first" "a"), optional (tokenField "second" "b")]]
    let stream : TokenStream := ⟨[.ordinary "a" "", .ordinary "space" " ", .ordinary "c" ""], 1⟩
    let error : ParseError := ⟨.ordinary "c" "", 2, .expected [.ofType "a", .ofType "b"]⟩
    ((ofDeclarations declarations).parseFrom (.rule "Pair") true stream.cursor).outcome =
        .failed error stream.cursor ∧ error.Describes stream := by
  intro declarations stream error
  have failed : ((ofDeclarations declarations).parseFrom (.rule "Pair") true
      stream.cursor).outcome = .failed error stream.cursor := by decide +kernel
  exact ⟨failed, parseFrom_describes declarations (.rule "Pair") true stream (by decide) failed⟩

end Grammar
end TokenGrammar
