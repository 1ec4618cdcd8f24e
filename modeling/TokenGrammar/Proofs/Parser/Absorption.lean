import TokenGrammar.Proofs.ParseError.Merge
import TokenGrammar.Proofs.Parser.Correspondence

namespace TokenGrammar

/-! A rule fails by itself, and not by a check of its tokens, when it has matched no item. By then
some check has failed at the same place or further on, and the record keeps that failure. -/

namespace ParseError

variable {record : Option ParseError} {errors : List ParseError} {error : ParseError}
  {pos : Nat}

/-- The failures of checks, without those of rules themselves. -/
def checks (errors : List ParseError) : List ParseError :=
  errors.filter fun error => !error.cause.ofRule

theorem checks_append (first second : List ParseError) :
    checks (first ++ second) = checks first ++ checks second := List.filter_append _ _

/-- A record that lies at a position or further on. -/
def Reached (record : Option ParseError) (pos : Nat) : Prop :=
  ∃ held, record = some held ∧ pos ≤ held.pos

theorem Reached.recordAll (reached : Reached record pos) (errors : List ParseError) :
    Reached (recordAll record errors) pos := by
  induction errors generalizing record with
  | nil => exact reached
  | cons error rest ih =>
      obtain ⟨held, rfl, within⟩ := reached
      refine ih ⟨held.merge error, rfl, ?_⟩
      rw [pos_merge]
      omega

theorem Reached.mono (reached : Reached record pos) (nearer : near ≤ pos) : Reached record near := by
  obtain ⟨held, same, within⟩ := reached
  exact ⟨held, same, Nat.le_trans nearer within⟩

theorem reached_recordAll (record : Option ParseError) (member : error ∈ errors) :
    Reached (recordAll record errors) error.pos := by
  induction errors generalizing record with
  | nil => cases member
  | cons first rest ih =>
      rcases List.mem_cons.mp member with rfl | later
      · refine Reached.recordAll ⟨gather record error, rfl, ?_⟩ rest
        cases record with
        | none => exact Nat.le_refl _
        | some held =>
            simp only [gather, pos_merge]
            omega
      · exact ih _ later

/-- What a rule says of itself is lost on a record that is as far. -/
theorem merge_of_ofRule {held : ParseError} (own : error.cause.ofRule = true)
    (within : error.pos ≤ held.pos) : held.merge error = held := by
  rcases Nat.lt_or_eq_of_le within with behind | level
  · exact merge_of_gt behind
  · rw [merge_of_level level]
    cases cause : error.cause with
    | message | emptyMatch => cases held.cause <;> rfl
    | expected | unexpectedEnd | trailingInput => simp [cause, Cause.ofRule] at own

end ParseError

open ParseError

/-- The record after a journal does not depend on what rules say of themselves. -/
def Absorbed (record : Option ParseError) (journal : List Event) : Prop :=
  recordAll record (Event.errors journal) = recordAll record (checks (Event.errors journal))

namespace Absorbed

variable {record : Option ParseError} {first second journal : List Event}

theorem nil : Absorbed record [] := rfl

theorem check {cause : Cause} (of : cause.ofRule = false) (start : Cursor) :
    Absorbed record [.failureAt cause start] := by
  simp [Absorbed, checks, Event.errors, Event.error?, Event.failureAt, atCursor, of]

theorem ofRule {cause : Cause} {start : Cursor} (own : cause.ofRule = true)
    (reached : Reached record start.pos) : Absorbed record [.failureAt cause start] := by
  obtain ⟨held, rfl, within⟩ := reached
  have lost : held.merge (.atCursor cause start) = held := merge_of_ofRule own within
  simp [Absorbed, checks, Event.errors, Event.error?, Event.failureAt, atCursor, own, recordAll,
    gather]
  exact lost

theorem append (earlier : Absorbed record first)
    (later : Absorbed (recordAll record (Event.errors first)) second) :
    Absorbed record (first ++ second) := by
  unfold Absorbed at earlier later ⊢
  rw [Event.errors_append, checks_append, recordAll_append, recordAll_append, later, earlier]

theorem call (absorbed : Absorbed record journal) (rule : String) (start : Cursor)
    (ending : Ending) : Absorbed record (Event.call rule start journal ending) := by
  unfold Absorbed at absorbed ⊢
  rwa [Event.call, Event.errors_enclosed]

end Absorbed

theorem Repetition.Sound.least_le {repetition : Repetition} (sound : repetition.Sound)
    (last : repetition.allowsMore count = false) : Max.max 1 repetition.min ≤ count := by
  cases limit : repetition.max with
  | none => simp [Repetition.allowsMore, limit] at last
  | some most =>
      obtain ⟨positive, enough⟩ := sound most limit
      simp only [Repetition.allowsMore, limit, Option.all_some, decide_eq_false_iff_not] at last
      omega

theorem Ending.matched_zero_ne_add (next : Cursor) (ending : Ending) :
    Ending.matched 0 next ≠ ending.add 1 := by
  cases ending <;> simp [add, Nat.add_comm]

namespace Grammar

variable {grammar : Grammar}

/-- A field that can be repeated as often as it has to, and consumes a token each time. -/
def Progresses (grammar : Grammar) (field : FieldDescriptor) : Prop :=
  field.size.Sound ∧ ¬ grammar.MayIdle field.symbol field.tokens

namespace Performs

open Ending (Reaches)

theorem check_count (performed : grammar.Performs (.check constraint) start journal
    (.matched count next)) : count = 1 := by
  cases performed <;> rfl

theorem content_count {symbol : Symbol} (performed : grammar.Performs (.content symbol constraint)
    start journal (.matched count next)) : count = 1 := by
  induction symbol with
  | token =>
      cases performed with
      | token check => exact check.check_count
  | mark =>
      cases performed with
      | mark check => exact check.check_count
  | rule name =>
      generalize ends : Ending.matched count next = ending at performed
      cases performed with
      | @unguarded _ _ _ journal ending _ _ body =>
          cases ending <;> cases ends
          rfl
      | @guarded _ _ _ _ _ journal ending _ _ _ _ body =>
          cases ending <;> cases ends
          rfl
      | guardFails => cases ends
  | boxed symbol ih =>
      cases performed with
      | boxed content => exact ih content

theorem item_count (performed : grammar.Performs (.item between field before) start journal
    (.matched count next)) : count = 1 := by
  cases performed with
  | item gap content => exact content.content_count

theorem failed_reaches (performed : grammar.Performs task start journal (.failed stop))
    (begun : ∀ rule, task ≠ .alternatives rule [] true) :
    ∃ error ∈ Event.errors journal, start.pos ≤ error.pos := by
  rcases performed.reaches begun with failed | ⟨_, _, ends, _⟩
  · exact failed
  · cases ends

/-- A field of a sequence has no values only if one has been looked for. -/
theorem values_missing (sound : field.size.Sound)
    (performed : grammar.Performs (.values rule field before) start journal (.matched 0 next)) :
    ∃ error ∈ Event.errors journal, next.pos ≤ error.pos := by
  cases performed with
  | single _ item | present _ item => cases item.item_count
  | absent _ item => exact item.failed_reaches (by simp)
  | repeated _ repetitions =>
      generalize ends : Ending.matched 0 next = ending at repetitions
      cases repetitions with
      | full last => simp [sound.allowsMore_zero] at last
      | stopped _ repetition =>
          cases ends
          exact repetition.failed_reaches (by simp)
      | repeats => exact absurd ends (Ending.matched_zero_ne_add _ _)
      | fullShort | stoppedShort | stalledShort | stalled => cases ends

/-- What has to hold of a task and of the record before it. -/
def Prepared (grammar : Grammar) (record : Option ParseError) (start : Cursor) : Task → Prop
  | .repetitions _ _ field _ least _ => grammar.Progresses field ∧ least ≤ max 1 field.size.min
  | .values _ field _ | .alternative _ field => grammar.Progresses field
  | .fields _ rest before => (∀ field ∈ rest, grammar.Progresses field) ∧
    (rest = [] → before = 0 → Reached record start.pos)
  | .alternatives _ rest tried => (∀ field ∈ rest, grammar.Progresses field) ∧
    (rest = [] → tried = true)
  | .body rule => (∀ field ∈ rule.fields, grammar.Progresses field) ∧ rule.fields ≠ []
  | _ => True

theorem absorbed
    (progresses : ∀ name rule, grammar.find? name = some (.ok rule) →
      (∀ field ∈ rule.fields, grammar.Progresses field) ∧ rule.fields ≠ [])
    (performed : grammar.Performs task start journal ending) :
    ∀ record, Prepared grammar record start task → Absorbed record journal := by
  induction performed with
  | anyToken | accepted | plainGap | full | noMoreFields | noMoreAlternatives =>
      exact fun _ _ => .nil
  | atEnd | refused => exact fun _ _ => .check rfl _
  | unguarded defined _ _ ih =>
      exact fun record _ => (ih record (progresses _ _ defined)).call _ _ _
  | guarded defined _ _ _ checked ih =>
      exact fun record _ =>
        (checked record trivial).append ((ih _ (progresses _ _ defined)).call _ _ _)
  | item _ _ first second | separatedRepetition _ _ _ _ first second =>
      exact fun record _ => (first record trivial).append (second _ trivial)
  | fullShort last short =>
      rintro record ⟨⟨sound, _⟩, needed⟩
      have enough := sound.least_le last
      omega
  | stopped _ _ _ ih | stoppedShort _ _ _ ih | stalled _ _ _ _ ih | lone _ _ ih | single _ _ ih
  | present _ _ ih | absent _ _ ih => exact fun record _ => ih record trivial
  | stalledShort _ repetition idle _ _ =>
      rintro record ⟨⟨_, busy⟩, _⟩
      exact absurd (repetition.idles _ _ rfl idle).2.2 busy
  | repeats _ _ _ _ first second =>
      exact fun record prepared => (first record trivial).append (second _ prepared)
  | repeated _ _ ih =>
      exact fun record prepared => ih record ⟨prepared, Nat.le_max_right _ _⟩
  | list _ _ ih =>
      exact fun record prepared => ih record ⟨prepared, Nat.le_refl _⟩
  | nothing => exact fun record prepared => .ofRule rfl (prepared.2 rfl rfl)
  | fields values more first second =>
      rintro record ⟨fields, _⟩
      have progress := fields _ (List.mem_cons_self ..)
      refine (first record progress).append
        (second _ ⟨fun _ member => fields _ (by simp [member]), fun _ empty => ?_⟩)
      obtain ⟨rfl, rfl⟩ := Nat.add_eq_zero_iff.mp empty
      obtain ⟨error, member, within⟩ := values.values_missing progress.1
      exact (reached_recordAll record member).mono within
  | fieldFails _ ih => exact fun record prepared => ih record (prepared.1 _ (by simp))
  | noAlternative => exact fun record prepared => absurd (prepared.2 rfl) (by simp)
  | chosen _ ih => exact fun record prepared => ih record (prepared.1 _ (by simp))
  | passedOver _ _ first second =>
      rintro record ⟨fields, _⟩
      exact (first record (fields _ (by simp))).append
        (second _ ⟨fun _ member => fields _ (by simp [member]), fun _ => rfl⟩)
  | sequence _ _ ih | choice _ _ ih =>
      rintro record ⟨fields, some⟩
      exact ih record ⟨fields, fun none => absurd none some⟩
  | _ => assumption

end Performs
end Grammar
end TokenGrammar
