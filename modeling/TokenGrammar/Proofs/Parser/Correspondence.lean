import TokenGrammar.Proofs.Parser.Termination

namespace TokenGrammar

/-! # Two parses side by side

One grammar parses two inputs. As long as both stand at places that correspond, and look at the
next token only where it is the same for both, they do the same. The comparison may give up where
the first parse gets to a position that is out of its scope. -/

/-- A failure of a rule itself, not of the check of a token. -/
def Cause.ofRule : Cause → Bool
  | message _ | emptyMatch => true
  | _ => false

/-- What is compared of two parses. -/
structure Correspondence where
  /-- Two places where the parses may stand. -/
  Place : Cursor → Cursor → Prop
  /-- Two places where both may look at the next token. -/
  Facing : Cursor → Cursor → Prop
  /-- Two errors with which they may fail. -/
  Error : ParseError → ParseError → Prop
  /-- The errors that they may put on record on the way. -/
  Notes : List ParseError → List ParseError → Prop
  /-- The positions of the first parse that are out of scope. -/
  Beyond : Nat → Prop
  place_of_facing : Facing start other → Place start other
  peek : Facing start other → start.peek = other.peek
  advance : Facing start other → start.peek.isEnd = false →
    Beyond start.advance.pos ∨ Place start.advance other.advance
  merge : Error earlier otherEarlier → Error later otherLater →
    Error (earlier.merge later) (otherEarlier.merge otherLater)
  notes_nil : Notes [] []
  notes_append : Notes first otherFirst → Notes second otherSecond →
    Notes (first ++ second) (otherFirst ++ otherSecond)
  error_check : Facing start other →
    Error (.atCursor cause start) (.atCursor cause other)
  notes_check : Facing start other →
    Notes [.atCursor cause start] [.atCursor cause other]
  error_rule : Place start other → cause.ofRule = true →
    Error (.atCursor cause start) (.atCursor cause other)
  notes_rule : Place start other → cause.ofRule = true →
    Notes [.atCursor cause start] [.atCursor cause other]

namespace Correspondence

variable {κ : Correspondence}

/-- After a filter has run at places that correspond, both parses may look at the next token. -/
def Clears (κ : Correspondence) (drop : Constraint) : Prop :=
  ∀ start other, κ.Place start other →
    κ.Beyond (start.skip drop).pos ∨ κ.Facing (start.skip drop) (other.skip drop)

/-- One parse moves from one place to the next if the other one does. -/
def Level (κ : Correspondence) : Prop :=
  ∀ start other next otherNext, κ.Place start other → κ.Place next otherNext →
    (next.pos = start.pos ↔ otherNext.pos = other.pos)

theorem gather (gathered : Option.Rel κ.Error earlier otherEarlier) (later : κ.Error error other) :
    κ.Error (.gather earlier error) (.gather otherEarlier other) := by
  cases gathered with
  | some earlier => exact κ.merge earlier later
  | none => exact later

/-- Parses that face each other wherever their places correspond, with the same errors. -/
def ofPlaces (Place : Cursor → Cursor → Prop) (Beyond : Nat → Prop)
    (peek : ∀ {start other}, Place start other → start.peek = other.peek)
    (advance : ∀ {start other}, Place start other → start.peek.isEnd = false →
      Beyond start.advance.pos ∨ Place start.advance other.advance)
    (atCursor : ∀ {start other} (cause : Cause), Place start other →
      ParseError.atCursor cause start = .atCursor cause other) : Correspondence where
  Place := Place
  Facing := Place
  Error := Eq
  Notes := Eq
  Beyond := Beyond
  place_of_facing place := place
  peek := peek
  advance := advance
  merge first second := by rw [first, second]
  notes_nil := rfl
  notes_append first second := by rw [first, second]
  error_check place := atCursor _ place
  notes_check place := by rw [atCursor _ place]
  error_rule place _ := atCursor _ place
  notes_rule place _ := by rw [atCursor _ place]

/-- A filter runs wherever a rule goes on to a token, but not between the repetitions of a field
in a choice. Unless the places tell whether a parse has moved, repeated fields have to consume a
token. -/
structure Suits (κ : Correspondence) (grammar : Grammar) (rule : Descriptor) : Prop where
  drop : κ.Clears rule.drop
  lists : rule.combinator = .oneOf →
    ∀ field ∈ rule.fields, field.cardinality = .repeated → κ.Clears .anyToken
  moves : ∀ field ∈ rule.fields, field.cardinality = .repeated →
    κ.Level ∨ ¬ grammar.MayIdle field.symbol field.tokens

end Correspondence

namespace Run

/-- A run that gets to a position: a check fails there or further on, or there is a match that
ends there or further on. -/
def Reaches (run : Run α) (pos : Nat) : Prop :=
  (∃ error ∈ Event.errors run.journal, pos ≤ error.pos) ∨
    ∃ value next, run.outcome = .matched value next ∧ pos ≤ next.pos

def Escapes (κ : Correspondence) (run : Run α) : Prop := ∃ pos, κ.Beyond pos ∧ run.Reaches pos

/-- Two runs that go alike, as far as the first one is in scope and does not get stuck. -/
inductive Corresponds (κ : Correspondence) (values : α → α → Prop)
    (ends : Cursor → Cursor → Prop) : Run α → Run α → Prop
  | stuck {journal : List Event} : Corresponds κ values ends ⟨journal, .stuck fault stop⟩ other
  | escaped {run other : Run α} (escapes : run.Escapes κ) : Corresponds κ values ends run other
  | matched {journal otherJournal : List Event}
      (notes : κ.Notes (Event.errors journal) (Event.errors otherJournal))
      (same : values value otherValue) (place : ends next otherNext) :
      Corresponds κ values ends ⟨journal, .matched value next⟩
        ⟨otherJournal, .matched otherValue otherNext⟩
  | failed {journal otherJournal : List Event}
      (notes : κ.Notes (Event.errors journal) (Event.errors otherJournal))
      (same : κ.Error error otherError) :
      Corresponds κ values ends ⟨journal, .failed error stop⟩
        ⟨otherJournal, .failed otherError otherStop⟩

namespace Reaches

variable {run : Run α} {journal : List Event}

theorem mono (reaches : run.Reaches pos) (nearer : near ≤ pos) : run.Reaches near := by
  rcases reaches with ⟨error, member, within⟩ | ⟨value, next, matched, within⟩
  · exact .inl ⟨error, member, Nat.le_trans nearer within⟩
  · exact .inr ⟨value, next, matched, Nat.le_trans nearer within⟩

theorem of_errors (member : error ∈ Event.errors journal) (within : pos ≤ error.pos)
    (outcome : Outcome α) (more : List Event) :
    (⟨journal ++ more, outcome⟩ : Run α).Reaches pos :=
  .inl ⟨error, by simp [Event.errors_append, member], within⟩

theorem errors_of_failed
    (reaches : (⟨journal, .failed error stop⟩ : Run α).Reaches pos) :
    ∃ error ∈ Event.errors journal, pos ≤ error.pos := by
  rcases reaches with failed | ⟨_, _, matched, _⟩
  · exact failed
  · cases matched

theorem behind (reaches : run.Reaches pos) :
    (⟨journal ++ run.journal, run.outcome⟩ : Run α).Reaches pos := by
  rcases reaches with ⟨error, member, within⟩ | matched
  · exact .inl ⟨error, by simp [Event.errors_append, member], within⟩
  · exact .inr matched

end Reaches

/-- A run that is not stuck gets as far as the task does that it performs. -/
theorem Performs.reaches {grammar : Grammar} {task : Task} {count : α → Nat} {run : Run α}
    (performs : run.Performs grammar task start count)
    (reaching : ∀ {journal ending}, grammar.Performs task start journal ending →
      Ending.Reaches journal ending pos) : run.outcome.isStuck = true ∨ run.Reaches pos := by
  obtain ⟨journal, outcome⟩ := run
  cases outcome with
  | matched value next =>
      rcases reaching (performs _ rfl) with failed | ⟨_, _, ends, within⟩
      · exact .inr (.inl failed)
      · cases ends
        exact .inr (.inr ⟨value, next, rfl, within⟩)
  | failed error stop =>
      rcases reaching (performs _ rfl) with failed | ⟨_, _, ends, _⟩
      · exact .inr (.inl failed)
      · cases ends
  | stuck fault stop => exact .inl rfl

namespace Corresponds

variable {κ : Correspondence} {values : α → α → Prop} {ends : Cursor → Cursor → Prop}

theorem of_stuck {run other : Run α} (stuck : run.outcome.isStuck = true) :
    Corresponds κ values ends run other := by
  obtain ⟨journal, outcome⟩ := run
  cases outcome with
  | matched | failed => cases stuck
  | stuck fault stop => exact .stuck

theorem of_beyond {run other : Run α} (beyond : κ.Beyond pos)
    (reaching : run.outcome.isStuck = true ∨ run.Reaches pos) :
    Corresponds κ values ends run other := by
  rcases reaching with stuck | reaches
  · exact of_stuck stuck
  · exact .escaped ⟨pos, beyond, reaches⟩

theorem behind {run other : Run α} {journal otherJournal : List Event}
    (notes : κ.Notes (Event.errors journal) (Event.errors otherJournal))
    (more : Corresponds κ values ends run other) :
    Corresponds κ values ends ⟨journal ++ run.journal, run.outcome⟩
      ⟨otherJournal ++ other.journal, other.outcome⟩ := by
  cases more with
  | stuck => exact .stuck
  | escaped escapes =>
      obtain ⟨pos, beyond, reaches⟩ := escapes
      exact .escaped ⟨pos, beyond, reaches.behind⟩
  | matched moreNotes same place =>
      refine .matched ?_ same place
      simpa only [Event.errors_append] using κ.notes_append notes moreNotes
  | failed moreNotes same =>
      refine .failed ?_ same
      simpa only [Event.errors_append] using κ.notes_append notes moreNotes

theorem mono {further : α → α → Prop} {later : Cursor → Cursor → Prop} {run other : Run α}
    (corresponds : Corresponds κ values ends run other)
    (implies : ∀ value other, values value other → further value other)
    (onward : ∀ next other, ends next other → later next other) :
    Corresponds κ further later run other := by
  cases corresponds with
  | stuck => exact .stuck
  | escaped escapes => exact .escaped escapes
  | matched notes same place => exact .matched notes (implies _ _ same) (onward _ _ place)
  | failed notes same => exact .failed notes same

end Corresponds
end Run

namespace Parser

open Run (Corresponds)

variable {κ : Correspondence}

/-- A parser that gets to where it starts, unless it gets stuck. -/
def Steady (parser : Parser α) : Prop :=
  ∀ start, (parser start).outcome.isStuck = true ∨ (parser start).Reaches start.pos

theorem steady_pure (value : α) : (pure value : Parser α).Steady :=
  fun start => .inr (.inr ⟨value, start, rfl, Nat.le_refl _⟩)

theorem steady_reject (cause : Cause) : (reject cause : Parser α).Steady :=
  fun start => .inr (.inl ⟨.atCursor cause start, by simp [reject, Event.errors, Event.error?],
    Nat.le_refl _⟩)

theorem steady_dropTokens (drop : Constraint) : (dropTokens drop).Steady :=
  fun start => .inr (.inr ⟨(), start.skip drop, rfl, start.pos_le_skip drop⟩)

theorem CarriesOut.steady {grammar : Grammar} {task : Task} {parser : Parser α} {count : α → Nat}
    (done : CarriesOut grammar task count parser)
    (begun : ∀ rule, task ≠ .alternatives rule [] true) : parser.Steady :=
  fun start => (done start).reaches fun performed => performed.reaches begun

theorem steady_matchNext (constraint : Constraint) : (matchNext constraint).Steady := by
  have done : CarriesOut (.ofDeclarations []) (.check constraint) (fun _ => 1) (matchNext constraint) :=
    matchNext_carriesOut constraint
  exact done.steady (by simp)

theorem reaching_of_steady {first : Parser α} {next : α → Parser β}
    (steady : ∀ value, (next value).Steady) (matched : (first start).outcome = .matched value stop) :
    ((first >>= next) start).outcome.isStuck = true ∨ ((first >>= next) start).Reaches stop.pos := by
  rw [bind_run]
  generalize first start = run at matched
  obtain ⟨journal, outcome⟩ := run
  cases matched
  exact (steady value stop).imp_right (·.behind)

theorem reaching_bind {first : Parser α} {next : α → Parser β}
    (reaches : (first start).Reaches pos)
    (reaching : ∀ value stop, (first start).outcome = .matched value stop →
      ((first >>= next) start).outcome.isStuck = true ∨
        ((first >>= next) start).Reaches stop.pos) :
    ((first >>= next) start).outcome.isStuck = true ∨ ((first >>= next) start).Reaches pos := by
  rw [bind_run] at reaching ⊢
  generalize first start = run at reaches reaching ⊢
  obtain ⟨journal, outcome⟩ := run
  cases outcome with
  | matched value stop =>
      rcases reaches with ⟨error, member, within⟩ | ⟨_, _, matched, within⟩
      · exact .inr (.of_errors member within _ _)
      · cases matched
        exact (reaching value stop rfl).imp_right (·.mono within)
  | failed error stop => exact .inr (.inl reaches.errors_of_failed)
  | stuck fault stop => exact .inl rfl

theorem Steady.bind {first : Parser α} {next : α → Parser β} (head : first.Steady)
    (tail : ∀ value, (next value).Steady) : (first >>= next).Steady := by
  intro start
  rcases head start with stuck | reaches
  · rw [bind_run]
    generalize first start = run at stuck
    obtain ⟨journal, outcome⟩ := run
    cases outcome with
    | matched | failed => cases stuck
    | stuck fault stop => exact .inl rfl
  · exact reaching_bind reaches fun _ _ => reaching_of_steady tail

theorem reaches_within {parser : Parser α} (reaches : (parser start).Reaches pos) :
    (within rule parser start).Reaches pos := by
  unfold within
  generalize parser start = run at reaches ⊢
  obtain ⟨journal, outcome⟩ := run
  cases outcome with
  | matched value next =>
      rcases reaches with failed | matched
      · exact .inl (by simpa only [Event.errors_enclosed] using failed)
      · exact .inr matched
  | failed error stop =>
      exact .inl (by simpa only [Event.errors_enclosed] using reaches.errors_of_failed)
  | stuck fault stop =>
      rcases reaches with failed | ⟨_, _, matched, _⟩
      · exact .inl failed
      · cases matched

theorem Steady.within {parser : Parser α} (steady : parser.Steady) :
    (within rule parser).Steady := by
  intro start
  rcases steady start with stuck | reaches
  · unfold Parser.within
    generalize parser start = run at stuck
    obtain ⟨journal, outcome⟩ := run
    cases outcome with
    | matched | failed => cases stuck
    | stuck fault stop => exact .inl rfl
  · exact .inr (reaches_within reaches)

/-! Combinators of parsers that go alike. -/

section Combinators

variable {values : α → α → Prop} {more : β → β → Prop} {middle ends : Cursor → Cursor → Prop}
  {start other : Cursor}

theorem corresponds_pure {value otherValue : α} (same : values value otherValue)
    (place : ends start other) :
    Corresponds κ values ends ((pure value : Parser α) start) ((pure otherValue : Parser α) other) :=
  .matched κ.notes_nil same place

theorem corresponds_fail (same : κ.Error error otherError) :
    Corresponds κ values ends ((fail error : Parser α) start) ((fail otherError : Parser α) other) :=
  .failed κ.notes_nil same

theorem corresponds_reject {cause : Cause} (place : κ.Place start other) (own : cause.ofRule = true) :
    Corresponds κ values ends ((reject cause : Parser α) start) ((reject cause : Parser α) other) :=
  .failed (κ.notes_rule place own) (κ.error_rule place own)

/-- A check goes by the next token alone. -/
theorem matchNext_alike (constraint : Constraint) (same : start.peek = other.peek) :
    (∃ looking : Bool, start.peek.isEnd = false ∧
      matchNext constraint start =
        ⟨[], .matched start.peek (if looking then start else start.advance)⟩ ∧
      matchNext constraint other =
        ⟨[], .matched start.peek (if looking then other else other.advance)⟩) ∨
    ∃ cause, matchNext constraint start = reject cause start ∧
      matchNext constraint other = reject cause other := by
  by_cases unconstrained : constraint.isEmpty = true
  · by_cases absent : start.peek.isEnd = true
    · exact .inr ⟨.unexpectedEnd, by simp [matchNext, unconstrained, absent],
        by simp [matchNext, unconstrained, ← same, absent]⟩
    · exact .inl ⟨false, by simpa using absent, by simp [matchNext, unconstrained, absent],
        by simp [matchNext, unconstrained, ← same, absent]⟩
  · cases found : constraint.find? start.peek with
    | some pattern =>
        exact .inl ⟨pattern.lookahead, Cursor.peek_of_found found,
          by simp [matchNext, unconstrained, found],
          by simp [matchNext, unconstrained, ← same, found]⟩
    | none =>
        exact .inr ⟨.expected constraint.patterns, by simp [matchNext, unconstrained, found],
          by simp [matchNext, unconstrained, ← same, found]⟩

theorem corresponds_matchNext {constraint : Constraint} (facing : κ.Facing start other) :
    Corresponds κ Eq κ.Place (matchNext constraint start) (matchNext constraint other) := by
  rcases matchNext_alike constraint (κ.peek facing) with
    ⟨looking, present, ran, otherRan⟩ | ⟨cause, ran, otherRan⟩
  · rw [ran, otherRan]
    cases looking with
    | true => exact .matched κ.notes_nil rfl (κ.place_of_facing facing)
    | false =>
        rcases κ.advance facing present with beyond | place
        · exact .escaped ⟨_, beyond, .inr ⟨_, _, rfl, Nat.le_refl _⟩⟩
        · exact .matched κ.notes_nil rfl place
  · rw [ran, otherRan]
    exact .failed (κ.notes_check facing) (κ.error_check facing)

theorem corresponds_dropTokens {drop : Constraint} (clears : κ.Clears drop)
    (place : κ.Place start other) :
    Corresponds κ Eq κ.Facing (dropTokens drop start) (dropTokens drop other) := by
  rcases clears start other place with beyond | facing
  · exact .escaped ⟨_, beyond, .inr ⟨(), _, rfl, Nat.le_refl _⟩⟩
  · exact .matched κ.notes_nil rfl facing

/-- Two parsers in a row. If the match of the first ends out of scope, the whole has to get there,
too. -/
theorem corresponds_bind_reaching {first otherFirst : Parser α} {next otherNext : α → Parser β}
    (head : Corresponds κ values middle (first start) (otherFirst other))
    (reaching : ∀ value stop, (first start).outcome = .matched value stop →
      ((first >>= next) start).outcome.isStuck = true ∨
        ((first >>= next) start).Reaches stop.pos)
    (tail : ∀ value otherValue stop otherStop, values value otherValue → middle stop otherStop →
      (first start).outcome = .matched value stop →
      (otherFirst other).outcome = .matched otherValue otherStop →
      Corresponds κ more ends (next value stop) (otherNext otherValue otherStop)) :
    Corresponds κ more ends ((first >>= next) start) ((otherFirst >>= otherNext) other) := by
  have escape : (first start).Escapes κ →
      Corresponds κ more ends ((first >>= next) start) ((otherFirst >>= otherNext) other) :=
    fun ⟨_, beyond, reaches⟩ => .of_beyond beyond (reaching_bind reaches reaching)
  rw [bind_run, bind_run] at escape ⊢
  generalize first start = run at head tail escape ⊢
  generalize otherFirst other = otherRun at head tail escape ⊢
  cases head with
  | stuck => exact .stuck
  | matched notes same place => exact (tail _ _ _ _ same place rfl rfl).behind notes
  | failed notes same => exact .failed notes same
  | escaped escapes => exact escape escapes

theorem corresponds_bind {first otherFirst : Parser α} {next otherNext : α → Parser β}
    (head : Corresponds κ values middle (first start) (otherFirst other))
    (steady : ∀ value, (next value).Steady)
    (tail : ∀ value otherValue stop otherStop, values value otherValue → middle stop otherStop →
      (first start).outcome = .matched value stop →
      (otherFirst other).outcome = .matched otherValue otherStop →
      Corresponds κ more ends (next value stop) (otherNext otherValue otherStop)) :
    Corresponds κ more ends ((first >>= next) start) ((otherFirst >>= otherNext) other) :=
  corresponds_bind_reaching head (fun _ _ => reaching_of_steady steady) tail

/-- What follows an attempt begins at the ends of the matches, or where the attempts began. -/
theorem corresponds_attempt_bind {first otherFirst : Parser α}
    {next otherNext : Except ParseError α → Parser β}
    (head : Corresponds κ values middle (first start) (otherFirst other))
    (goBack : ∀ error otherError, κ.Error error otherError →
      Corresponds κ more ends (next (.error error) start) (otherNext (.error otherError) other))
    (steady : ∀ value, (next (.ok value)).Steady)
    (goOn : ∀ value otherValue stop otherStop, values value otherValue → middle stop otherStop →
      (first start).outcome = .matched value stop →
      (otherFirst other).outcome = .matched otherValue otherStop →
      Corresponds κ more ends (next (.ok value) stop) (otherNext (.ok otherValue) otherStop)) :
    Corresponds κ more ends ((attempt first >>= next) start)
      ((attempt otherFirst >>= otherNext) other) := by
  rw [bind_run, bind_run, attempt_run, attempt_run]
  generalize first start = run at head goOn ⊢
  generalize otherFirst other = otherRun at head goOn ⊢
  cases head with
  | stuck => exact .stuck
  | matched notes same place => exact (goOn _ _ _ _ same place rfl rfl).behind notes
  | failed notes same => exact (goBack _ _ same).behind notes
  | escaped escapes =>
      obtain ⟨pos, beyond, reaches⟩ := escapes
      obtain ⟨journal, outcome⟩ := run
      cases outcome with
      | matched value stop =>
          rcases reaches with ⟨error, member, within⟩ | ⟨_, _, matched, within⟩
          · exact .escaped ⟨pos, beyond, .of_errors member within _ _⟩
          · cases matched
            refine .of_beyond beyond ?_
            exact (steady value stop).imp_right fun more => more.behind.mono within
      | failed error stop =>
          obtain ⟨error, member, within⟩ := reaches.errors_of_failed
          exact .escaped ⟨pos, beyond, .of_errors member within _ _⟩
      | stuck fault stop => exact .stuck

theorem corresponds_within {parser otherParser : Parser α}
    (inner : Corresponds κ values ends (parser start) (otherParser other)) :
    Corresponds κ values ends (within rule parser start) (within rule otherParser other) := by
  have escape : (parser start).Escapes κ → (within rule parser start).Escapes κ :=
    fun ⟨pos, beyond, reaches⟩ => ⟨pos, beyond, reaches_within reaches⟩
  unfold within at escape ⊢
  generalize parser start = run at inner escape ⊢
  generalize otherParser other = otherRun at inner ⊢
  cases inner with
  | stuck => exact .stuck
  | escaped escapes => exact .escaped (escape escapes)
  | matched notes same place =>
      refine .matched ?_ same place
      simpa only [Event.errors_enclosed] using notes
  | failed notes same =>
      refine .failed ?_ same
      simpa only [Event.errors_enclosed] using notes

/-- A guard leaves both parses where they are, so that it may look at the last token in scope. -/
theorem corresponds_guarded {rule : Descriptor} (guard : Constraint) (place : κ.Place start other)
    (facing : κ.Facing (start.skip rule.drop) (other.skip rule.drop)) :
    Corresponds κ Eq κ.Place (guarded rule guard start) (guarded rule guard other) := by
  by_cases free : guard.isEmpty = true
  · rw [guarded_run_free free, guarded_run_free free]
    exact .matched κ.notes_nil rfl place
  · rw [guarded_run_bound (by simpa using free), guarded_run_bound (by simpa using free)]
    rcases matchNext_alike guard (κ.peek facing) with
      ⟨looking, present, ran, otherRan⟩ | ⟨cause, ran, otherRan⟩
    · rw [ran, otherRan]
      exact .matched κ.notes_nil rfl place
    · rw [ran, otherRan]
      exact .failed (κ.notes_check facing) (κ.error_check facing)

end Combinators
end Parser
end TokenGrammar
