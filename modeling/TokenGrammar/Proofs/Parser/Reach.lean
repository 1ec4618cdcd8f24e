import TokenGrammar.Proofs.Parser.Adequacy
import TokenGrammar.Proofs.Parser.Consumption
import TokenGrammar.Proofs.Parser.Record

namespace TokenGrammar

/-! How far a parse looks: up to where it ends, or up to a check that fails. No part of a rule
looks beyond its end without putting a failure on record that lies at least as far. -/

theorem Cursor.pos_le_skip (start : Cursor) (drop : Constraint) :
    start.pos ≤ (start.skip drop).pos := by
  obtain ⟨_, _, consumes⟩ := start.consumes_skip drop
  have := consumes.pos
  omega

namespace Ending

variable {first second : List Event} {ending : Ending} {start middle : Cursor} {pos : Nat}

/-- A match ends where some tokens have been consumed. -/
def Follows (start : Cursor) (ending : Ending) : Prop :=
  ∀ count next, ending = .matched count next → ∃ taken, start.Consumes taken next

namespace Follows

theorem of_failed : Follows start (.failed stop) := by
  intro count next ends
  cases ends

theorem of_consumes (consumes : start.Consumes taken next) :
    Follows start (.matched count next) := by
  intro count next ends
  cases ends
  exact ⟨taken, consumes⟩

theorem refl (start : Cursor) : Follows start (.matched count start) := .of_consumes (.refl start)

theorem skip (start : Cursor) (drop : Constraint) :
    Follows start (.matched 0 (start.skip drop)) := by
  obtain ⟨_, _, consumes⟩ := start.consumes_skip drop
  exact .of_consumes consumes

theorem trans (follows : Follows start (.matched count middle)) (more : Follows middle ending) :
    Follows start ending := by
  intro count next ends
  obtain ⟨_, consumes⟩ := follows _ _ rfl
  obtain ⟨_, consumesMore⟩ := more _ _ ends
  exact ⟨_, consumes.trans consumesMore⟩

theorem add (follows : Follows start ending) (before : Nat) : Follows start (ending.add before) := by
  cases ending with
  | matched count next =>
      obtain ⟨_, consumes⟩ := follows _ _ rfl
      exact .of_consumes consumes
  | failed stop => exact .of_failed

theorem ofBody (follows : Follows start ending) : Follows start (ending.ofBody start) := by
  cases ending with
  | matched count next =>
      obtain ⟨_, consumes⟩ := follows _ _ rfl
      exact .of_consumes consumes
  | failed stop => exact .of_failed

theorem pos_le (follows : Follows start (.matched count next)) : start.pos ≤ next.pos := by
  obtain ⟨_, consumes⟩ := follows _ _ rfl
  have := consumes.pos
  omega

end Follows

/-- A journal and an ending that get to a position: a check fails there or further on, or there
is a match that ends there or further on. -/
def Reaches (journal : List Event) (ending : Ending) (pos : Nat) : Prop :=
  (∃ error ∈ Event.errors journal, pos ≤ error.pos) ∨
    ∃ count next, ending = .matched count next ∧ pos ≤ next.pos

namespace Reaches

theorem of_matched (within : pos ≤ next.pos) : Reaches journal (.matched count next) pos :=
  .inr ⟨count, next, rfl, within⟩

theorem of_failureAt (cause : Cause) {place : Cursor} (within : pos ≤ place.pos) :
    Reaches [.failureAt cause place] ending pos :=
  .inl ⟨.atCursor cause place, by simp [Event.errors, Event.error?, Event.failureAt], within⟩

/-- A failure gets as far as its checks do, and these stay on record. -/
theorem of_failed (reaches : Reaches first (.failed stop) pos) :
    Reaches (first ++ second) ending pos := by
  rcases reaches with ⟨error, member, within⟩ | ⟨_, _, ends, _⟩
  · exact .inl ⟨error, by simp [Event.errors_append, member], within⟩
  · cases ends

theorem anyway (reaches : Reaches first (.failed stop) pos) : Reaches first ending pos := by
  have kept : Reaches (first ++ []) ending pos := reaches.of_failed
  simpa using kept

theorem trans (reaches : Reaches first (.matched count middle) pos)
    (more : Reaches second ending middle.pos) : Reaches (first ++ second) ending pos := by
  rcases reaches with ⟨error, member, within⟩ | ⟨_, _, ends, within⟩
  · exact .inl ⟨error, by simp [Event.errors_append, member], within⟩
  · cases ends
    rcases more with ⟨error, member, further⟩ | ⟨_, next, ends, further⟩
    · exact .inl ⟨error, by simp [Event.errors_append, member], Nat.le_trans within further⟩
    · exact .inr ⟨_, next, ends, Nat.le_trans within further⟩

/-- A match that goes on to a later place, with any number of values. -/
theorem onward (reaches : Reaches first (.matched count middle) pos)
    (later : middle.pos ≤ next.pos) : Reaches first (.matched total next) pos := by
  have gone : Reaches (first ++ []) (.matched total next) pos := reaches.trans (.of_matched later)
  simpa using gone

theorem after (reaches : Reaches second ending pos) : Reaches (first ++ second) ending pos := by
  rcases reaches with ⟨error, member, within⟩ | matched
  · exact .inl ⟨error, by simp [Event.errors_append, member], within⟩
  · exact .inr matched

theorem mono (reaches : Reaches first ending pos) (nearer : near ≤ pos) :
    Reaches first ending near := by
  rcases reaches with ⟨error, member, within⟩ | ⟨count, next, ends, within⟩
  · exact .inl ⟨error, member, Nat.le_trans nearer within⟩
  · exact .inr ⟨count, next, ends, Nat.le_trans nearer within⟩

theorem add (reaches : Reaches first ending pos) (before : Nat) :
    Reaches first (ending.add before) pos := by
  rcases reaches with failed | ⟨_, next, rfl, within⟩
  · exact .inl failed
  · exact .of_matched within

theorem call (reaches : Reaches first ending pos) (rule : String) (start : Cursor) :
    Reaches (Event.call rule start first ending) (ending.ofBody start) pos := by
  rcases reaches with failed | ⟨_, next, rfl, within⟩
  · exact .inl (by rwa [Event.call, Event.errors_enclosed])
  · exact .of_matched within

end Reaches
end Ending

namespace Grammar.Performs

open Ending (Follows Reaches)

variable {grammar : Grammar}

/-- A task that matches consumes the tokens before the place where it ends. -/
theorem follows (performed : grammar.Performs task start journal ending) : Follows start ending := by
  induction performed with
  | anyToken unconstrained present => exact .of_consumes (Cursor.consumes_advance present)
  | @accepted pattern constraint start constrained found =>
      by_cases looking : pattern.lookahead = true
      · rw [if_pos looking]
        exact .refl start
      · rw [if_neg looking]
        exact .of_consumes (Cursor.consumes_advance (Cursor.peek_of_found found))
  | unguarded _ _ _ body | guarded _ _ _ _ _ body => exact body.ofBody
  | leftOut | full | stopped | absent | noMoreFields => exact .refl _
  | plainGap => exact .skip _ _
  | separatedGap _ _ _ separator => exact ((Follows.skip _ _).trans separator).trans (.skip _ _)
  | item _ _ gap content => exact gap.trans content
  | separatedRepetition _ _ _ _ check item => exact ((Follows.skip _ _).trans check).trans item
  | repeats _ _ _ _ repetition more => exact (repetition.trans more).add 1
  | fields _ _ values more => exact (values.trans more).add _
  | choice _ _ alternatives => exact (Follows.skip _ _).trans alternatives
  | atEnd | refused | guardFails | unseparated | brokenGap | itemCutOff | repetitionCutOff
  | fullShort | stoppedShort | stalledShort | nothing | fieldFails | noAlternative
  | noMoreAlternatives => exact .of_failed
  | separated _ content | stalled _ _ _ _ content | chosen _ content | present _ _ content =>
      obtain ⟨_, consumes⟩ := content _ _ rfl
      exact .of_consumes consumes
  | token _ ih | mark _ ih | boxed _ ih | plainRepetition _ _ ih | single _ _ ih
  | repeated _ _ ih | lone _ _ ih | list _ _ ih | passedOver _ _ _ ih | sequence _ _ ih =>
      exact ih

/-- Every task gets to where it starts, except for a choice that has no more fields to try: its
failures are those of the fields before. -/
theorem reaches (performed : grammar.Performs task start journal ending)
    (begun : ∀ rule, task ≠ .alternatives rule [] true) : Reaches journal ending start.pos := by
  induction performed with
  | anyToken unconstrained present =>
      have moved := (Cursor.consumes_advance present).pos
      exact .of_matched (by omega)
  | @accepted pattern constraint start constrained found =>
      have performed : grammar.Performs (.check constraint) start [] _ := .accepted constrained found
      exact .of_matched performed.follows.pos_le
  | atEnd | refused | fullShort | nothing | noAlternative => exact .of_failureAt _ (Nat.le_refl _)
  | unguarded _ _ _ body => exact (body (by simp)).call _ _
  | guarded _ _ _ _ _ body => exact ((body (by simp)).call _ _).after
  | guardFails _ _ _ check | brokenGap _ _ _ check | repetitionCutOff _ _ _ check =>
      exact ((check (by simp)).anyway).mono (Cursor.pos_le_skip _ _)
  | leftOut _ _ content | unseparated _ _ content | stopped _ _ _ content
  | stoppedShort _ _ _ content | absent _ _ content | itemCutOff _ content
  | fieldFails _ content => exact (content (by simp)).anyway
  | separated _ content | stalled _ _ _ _ content =>
      exact (content (by simp)).onward (Nat.le_refl _)
  | plainGap => exact .of_matched (Cursor.pos_le_skip _ _)
  | separatedGap _ _ _ separator =>
      exact ((separator (by simp)).mono (Cursor.pos_le_skip _ _)).onward (Cursor.pos_le_skip _ _)
  | full | noMoreFields => exact .of_matched (Nat.le_refl _)
  | item _ _ gap content => exact (gap (by simp)).trans (content (by simp))
  | separatedRepetition _ _ _ _ check item =>
      exact ((check (by simp)).mono (Cursor.pos_le_skip _ _)).trans (item (by simp))
  | stalledShort _ repetition _ _ content =>
      exact (content (by simp)).trans (.of_failureAt _ (Nat.le_refl _))
  | repeats _ _ _ _ repetition more => exact ((repetition (by simp)).trans (more (by simp))).add 1
  | fields _ _ values more => exact ((values (by simp)).trans (more (by simp))).add _
  | passedOver _ _ alternative _ => exact (alternative (by simp)).of_failed
  | choice _ _ alternatives => exact (alternatives (by simp)).mono (Cursor.pos_le_skip _ _)
  | noMoreAlternatives => exact absurd rfl (begun _)
  | token _ ih | mark _ ih | boxed _ ih | plainRepetition _ _ ih | single _ _ ih | present _ _ ih
  | repeated _ _ ih | lone _ _ ih | list _ _ ih | sequence _ _ ih | chosen _ ih =>
      exact ih (by simp)

/-! The first item of a rule lies behind the tokens that the rule drops, and so does what its
guard has looked at. -/

theorem item_reaches {between : Gap}
    (performed : grammar.Performs (.item between field 0) start journal ending) :
    Reaches journal ending (start.skip between.drop).pos := by
  cases performed with
  | item gap content =>
      cases gap with
      | plainGap => simpa using content.reaches (by simp)
      | separatedGap _ later => exact absurd rfl later
  | itemCutOff gap =>
      cases gap with
      | brokenGap _ later => exact absurd rfl later

theorem repetition_reaches {between : Gap}
    (performed : grammar.Performs (.repetition between field 0 0) start journal ending) :
    Reaches journal ending (start.skip between.drop).pos := by
  cases performed with
  | plainRepetition plain item => exact item.item_reaches
  | separatedRepetition later | repetitionCutOff later => exact absurd rfl later

theorem repetitions_reaches {between : Gap} {field : FieldDescriptor}
    (performed : grammar.Performs (.repetitions rule between field 0 least 0) start journal ending)
    (allowed : field.size.allowsMore 0 = true) :
    Reaches journal ending (start.skip between.drop).pos := by
  cases performed with
  | full last | fullShort last => simp [allowed] at last
  | stopped _ repetition | stoppedShort _ repetition => exact repetition.repetition_reaches.anyway
  | stalled _ repetition => exact repetition.repetition_reaches.onward (Nat.le_refl _)
  | stalledShort _ repetition =>
      exact repetition.repetition_reaches.trans (.of_failureAt _ (Nat.le_refl _))
  | repeats _ repetition _ more =>
      exact (repetition.repetition_reaches.trans (more.reaches (by simp))).add 1

theorem values_reaches {rule : Descriptor} {field : FieldDescriptor}
    (performed : grammar.Performs (.values rule field 0) start journal ending)
    (allowed : field.size.allowsMore 0 = true) :
    Reaches journal ending (start.skip rule.drop).pos := by
  cases performed with
  | single _ item | present _ item => exact item.item_reaches
  | absent _ item => exact item.item_reaches.anyway
  | repeated _ repetitions => exact repetitions.repetitions_reaches allowed

/-- A rule that has fields gets as far as its guard does. -/
theorem body_reaches {rule : Descriptor}
    (performed : grammar.Performs (.body rule) start journal ending) (some : rule.fields ≠ [])
    (allowed : ∀ field ∈ rule.fields, field.size.allowsMore 0 = true) :
    Reaches journal ending (start.skip rule.drop).pos := by
  cases performed with
  | sequence _ fields =>
      generalize found : rule.fields = listed at fields some allowed
      cases fields with
      | nothing | noMoreFields => exact absurd rfl some
      | fields values more =>
          have first := values.values_reaches (allowed _ (by simp))
          exact (first.trans (more.reaches (by simp))).add _
      | fieldFails values => exact (values.values_reaches (allowed _ (by simp))).anyway
  | choice _ alternatives => exact alternatives.reaches (by simp [some])

theorem rule_reaches {name : String} {rule : Descriptor} {guard : Constraint}
    (performed : grammar.Performs (.content (.rule name) guard) start journal ending)
    (defined : grammar.find? name = some (.ok rule)) (some : rule.fields ≠ [])
    (allowed : ∀ field ∈ rule.fields, field.size.allowsMore 0 = true) :
    Reaches journal ending (start.skip rule.drop).pos := by
  cases performed with
  | unguarded found _ body =>
      cases found.symm.trans defined
      exact (body.body_reaches some allowed).call _ _
  | guarded found _ _ body =>
      cases found.symm.trans defined
      exact ((body.body_reaches some allowed).call _ _).after
  | guardFails found _ check =>
      cases found.symm.trans defined
      exact (check.reaches (by simp)).anyway

end Grammar.Performs
end TokenGrammar
