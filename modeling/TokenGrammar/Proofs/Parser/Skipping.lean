import TokenGrammar.Proofs.Parser.Matching
import TokenGrammar.Proofs.Parser.Transparency

namespace TokenGrammar

/-! # Tokens with others to be skipped between them

A rule with a filter reads the same tokens wherever the filter would drop others, up to the last
one that it reads. -/

namespace Cursor

variable {drop : Constraint} {start middle next : Cursor} {token : Token}
  {tokens more : List Token}

/-- The tokens that a filter leaves of those between two places. It leaves the last of them. -/
def Reads (start : Cursor) (drop : Constraint) (tokens : List Token) (next : Cursor) : Prop :=
  ∃ taken, start.Consumes taken next ∧ drop.kept taken = tokens ∧
    ∀ last ∈ taken.getLast?, drop.find? last = none

theorem skip_of_consumes {dropped : List Token} (drops : drop.Drops dropped)
    (consumes : start.Consumes dropped middle) (keeps : drop.find? middle.peek = none) :
    start.skip drop = middle := by
  induction dropped generalizing start with
  | nil =>
      cases consumes.eq_of_nil
      exact skip_of_kept keeps
  | cons token rest ih =>
      obtain ⟨pos, tokens⟩ := start
      obtain ⟨split, moved⟩ := consumes
      have ahead : tokens = token :: (rest ++ middle.rest) := split
      subst ahead
      obtain ⟨pattern, found⟩ := Option.isSome_iff_exists.mp (drops token (by simp))
      have further : skip drop ⟨pos, token :: (rest ++ middle.rest)⟩ =
          skip drop ⟨pos + 1, rest ++ middle.rest⟩ := skip_of_dropped found
      rw [further]
      refine ih (fun other member => drops other (by simp [member])) ⟨rfl, ?_⟩
      rw [moved, List.length_cons, Nat.add_assoc, Nat.add_comm 1]

theorem skip_skip (start : Cursor) (drop : Constraint) :
    (start.skip drop).skip drop = start.skip drop := skip_of_kept (start.find_peek_skip drop)

/-- Only skipped tokens lie ahead where a filter gets to the end. -/
theorem skip_isEnd_iff (ordinary : ∀ token ∈ start.rest, token.isEnd = false) :
    (start.skip drop).peek.isEnd = true ↔ drop.kept start.rest = [] := by
  obtain ⟨dropped, drops, consumes⟩ := start.consumes_skip drop
  have kept : drop.kept start.rest = drop.kept (start.skip drop).rest := by
    rw [consumes.rest, Constraint.kept_append, Constraint.kept_of_drops drops, List.nil_append]
  rw [kept]
  constructor
  · intro ends
    have none : (start.skip drop).rest = [] :=
      rest_of_isEnd (fun token member => ordinary token (by simp [consumes.rest, member])) ends
    rw [none]
    rfl
  · intro none
    have settled : (start.skip drop).Settled drop := start.find_peek_skip drop
    rw [settled.peek_eq, none]
    rfl

namespace Reads

theorem refl (start : Cursor) : start.Reads drop [] start := ⟨[], .refl start, rfl, by simp⟩

theorem eq_of_nil (reads : start.Reads drop [] next) : next = start := by
  obtain ⟨taken, consumes, none, ends⟩ := reads
  obtain rfl | ⟨others, last, rfl⟩ := taken.eq_nil_or_concat
  · exact consumes.eq_of_nil
  · have kept : drop.find? last = .none := ends last (by simp)
    rw [List.concat_eq_append, Constraint.kept_append, Constraint.kept_cons_of_none kept] at none
    simp at none

end Reads

/-- The next token that is read is the first behind those that are skipped. -/
theorem reads_cons : start.Reads drop (token :: tokens) next ↔
    drop.find? token = none ∧ ∃ middle, (start.skip drop).Consumes [token] middle ∧
      middle.Reads drop tokens next := by
  constructor
  · intro ⟨taken, consumes, kept, ends⟩
    obtain ⟨dropped, rest, rfl, drops, keeps, others⟩ := List.filter_eq_cons_iff.mp kept
    have keeps : drop.find? token = none := by simpa using keeps
    obtain ⟨place, before, behind⟩ := consumes.split
    obtain ⟨middle, own, further⟩ := Consumes.split (show place.Consumes ([token] ++ rest) next
      from behind)
    have skipped : start.skip drop = place := by
      refine skip_of_consumes (fun other member => ?_) before (by rwa [own.peek])
      simpa [Option.isSome_iff_ne_none] using drops other member
    refine ⟨keeps, middle, skipped ▸ own, rest, further, others, fun last member => ?_⟩
    refine ends last ?_
    cases rest with
    | nil => simp at member
    | cons => simpa [List.getLast?_append, List.getLast?_cons_cons] using member
  · intro ⟨keeps, middle, own, rest, further, others, ends⟩
    obtain ⟨dropped, drops, before⟩ := start.consumes_skip drop
    refine ⟨dropped ++ ([token] ++ rest), before.trans (own.trans further), ?_, ?_⟩
    · rw [Constraint.kept_append, Constraint.kept_of_drops drops, List.singleton_append,
        Constraint.kept_cons_of_none keeps, others, List.nil_append]
    · intro last member
      cases rest with
      | nil =>
          obtain rfl : token = last := by simpa using member
          exact keeps
      | cons => exact ends last (by simpa [List.getLast?_append, List.getLast?_cons_cons] using member)

namespace Reads

theorem trans (first : start.Reads drop tokens middle) (second : middle.Reads drop more next) :
    start.Reads drop (tokens ++ more) next := by
  induction tokens generalizing start with
  | nil =>
      cases first.eq_of_nil
      exact second
  | cons token rest ih =>
      obtain ⟨keeps, place, own, further⟩ := reads_cons.mp first
      exact reads_cons.mpr ⟨keeps, place, own, ih further⟩

theorem split (reads : start.Reads drop (tokens ++ more) next) :
    ∃ middle, start.Reads drop tokens middle ∧ middle.Reads drop more next := by
  induction tokens generalizing start with
  | nil => exact ⟨start, .refl start, reads⟩
  | cons token rest ih =>
      obtain ⟨keeps, place, own, further⟩ := reads_cons.mp reads
      obtain ⟨middle, first, second⟩ := ih further
      exact ⟨middle, reads_cons.mpr ⟨keeps, place, own, first⟩, second⟩

theorem peek (reads : start.Reads drop (token :: tokens) next) : (start.skip drop).peek = token := by
  obtain ⟨_, _, own, _⟩ := reads_cons.mp reads
  exact own.peek

/-- Whether the filter has run already makes no difference. -/
theorem skip_iff (present : tokens ≠ []) :
    (start.skip drop).Reads drop tokens next ↔ start.Reads drop tokens next := by
  obtain ⟨token, rest, rfl⟩ := List.exists_cons_of_ne_nil present
  rw [reads_cons, reads_cons, skip_skip]

theorem single : start.Reads drop [token] next ↔
    drop.find? token = none ∧ (start.skip drop).Consumes [token] next := by
  rw [reads_cons]
  constructor
  · intro ⟨keeps, middle, own, further⟩
    cases further.eq_of_nil
    exact ⟨keeps, own⟩
  · intro ⟨keeps, own⟩
    exact ⟨keeps, next, own, .refl next⟩

theorem length_le (reads : start.Reads drop tokens next) :
    next.rest.length + tokens.length ≤ start.rest.length ∧
      start.pos + tokens.length ≤ next.pos := by
  obtain ⟨taken, consumes, kept, _⟩ := reads
  have fewer : tokens.length ≤ taken.length := kept ▸ List.length_filter_le _ _
  have rest := congrArg List.length consumes.rest
  have moved := consumes.pos
  simp only [List.length_append] at rest
  omega

end Reads
end Cursor

namespace Parser

open Cursor (Reads)

section Repetitions

variable {content : Symbol → Constraint → Parser Tree} {between : Gap} {field : FieldDescriptor}
  {before count : Nat} {write : Tree → List Token} {trees : List Tree} {start next : Cursor}
  (plain : between.separator = none) (unseparated : field.separator.isEmpty = true)

include plain unseparated

theorem repetition_run_plain : repetition content between field before count start =
    content field.symbol field.tokens (start.skip between.drop) := by
  rcases repetition_cases content between field before count with ⟨_, same⟩ | ⟨_, separated, _⟩
  · rw [same, item_run_plain plain]
  · rw [unseparated] at separated
    cases separated

/-- Repetitions read what their items are read as. -/
theorem Repeats.reads {good : Tree → Prop} {journal : List Event} {error : Option ParseError}
    (each : ∀ {start next : Cursor} {tree : Tree},
      Matches (content field.symbol field.tokens) (start.skip between.drop) tree next →
        good tree ∧ start.Reads between.drop (write tree) next)
    (repeats : Repeats content between field before count start journal trees error next) :
    (∀ tree ∈ trees, good tree) ∧ start.Reads between.drop (trees.flatMap write) next := by
  have own {count : Nat} {start next : Cursor} {tree : Tree} {journal : List Event}
      (matched : repetition content between field before count start =
        ⟨journal, .matched tree next⟩) :
      good tree ∧ start.Reads between.drop (write tree) next := by
    rw [repetition_run_plain plain unseparated] at matched
    exact each (congrArg Run.outcome matched)
  induction repeats with
  | full | stopped => exact ⟨by simp, .refl _⟩
  | stalled allowed matched idle =>
      obtain ⟨held, reads⟩ := own matched
      exact ⟨by simpa using held, by simpa using reads⟩
  | more allowed matched moved rest ih =>
      obtain ⟨held, reads⟩ := own matched
      obtain ⟨others, further⟩ := ih
      exact ⟨List.forall_mem_cons.mpr ⟨held, others⟩, reads.trans further⟩

/-- Items that are read one after another are repetitions, and end where no item follows. -/
theorem repeats_of_reads {stop : Cursor}
    (unbounded : ∀ count, field.size.allowsMore count = true)
    (each : ∀ tree ∈ trees, ∀ {start next : Cursor}, start.Reads between.drop (write tree) next →
      Matches (content field.symbol field.tokens) (start.skip between.drop) tree next)
    (present : ∀ tree ∈ trees, write tree ≠ [])
    (ends : Fails (content field.symbol field.tokens) (stop.skip between.drop))
    (reads : start.Reads between.drop (trees.flatMap write) stop) :
    trees.length ≤ start.rest.length ∧ ∃ journal error,
      Repeats content between field before count start journal trees error stop := by
  induction trees generalizing start count with
  | nil =>
      cases reads.eq_of_nil
      have fails : Fails (repetition content between field before count) stop := by
        rwa [Fails, repetition_run_plain plain unseparated]
      obtain ⟨error, place, failed⟩ := fails
      exact ⟨Nat.zero_le _, _, some error,
        .stopped (unbounded count) (Run.eq_of_outcome failed)⟩
  | cons tree rest ih =>
      rw [List.flatMap_cons] at reads
      obtain ⟨middle, own, others⟩ := reads.split
      have matched : Matches (repetition content between field before count) start tree middle := by
        rw [Matches, repetition_run_plain plain unseparated]
        exact each tree (by simp) own
      obtain ⟨few, journal, error, repeats⟩ :=
        ih (fun other member => each other (by simp [member]))
          (fun other member => present other (by simp [member])) others
      have long := List.length_pos_iff.mpr (present tree (by simp))
      obtain ⟨shorter, further⟩ := own.length_le
      have moved : middle.pos ≠ start.pos := by omega
      refine ⟨by rw [List.length_cons]; omega, _, error,
        .more (unbounded count) (Run.eq_of_outcome matched) moved repeats⟩

end Repetitions
end Parser
end TokenGrammar
