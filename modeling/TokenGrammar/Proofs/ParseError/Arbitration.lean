import TokenGrammar.Proofs.ParseError.Merge

namespace TokenGrammar.ParseError

/-! What the join of a list of errors says about the list. -/

def carriesPatterns (error : ParseError) : Bool := error.cause.patterns?.isSome

/-- An error that speaks for a list of errors. It lies as far into the input as any of them. If
one of those at its position names patterns, it names exactly the patterns of all of them there,
in the order in which they first occur; otherwise it is the first of those at its position. -/
structure Arbitrates (errors : List ParseError) (error : ParseError) : Prop where
  reached : ∃ other ∈ errors, other.pos = error.pos
  furthest : ∀ other ∈ errors, other.pos ≤ error.pos
  united : (∃ other ∈ errors, other.pos = error.pos ∧ other.carriesPatterns = true) →
    ∃ patterns, error.cause = .expected patterns ∧
      (∀ pattern, pattern ∈ patterns ↔
        ∃ other ∈ errors, other.pos = error.pos ∧ pattern ∈ other.patterns) ∧
      patterns.eraseDups =
        ((errors.filter (·.pos = error.pos)).flatMap (·.patterns)).eraseDups
  earliest : (∀ other ∈ errors, other.pos = error.pos → other.carriesPatterns = false) →
    errors.find? (·.pos = error.pos) = some error

theorem patterns_of_not_carries {error : ParseError} (bare : error.carriesPatterns = false) :
    error.patterns = [] := by
  have none : error.cause.patterns? = none := by simpa [carriesPatterns] using bare
  simp [patterns, none]

theorem cause_of_carries {error : ParseError} (carries : error.carriesPatterns = true) :
    error.cause = .expected error.patterns := by
  cases cause : error.cause <;> simp_all [carriesPatterns, patterns, Cause.patterns?]

/-- Of two errors at one position, both with patterns, the first takes in those of the second. -/
theorem merge_of_both {error later : ParseError} (same : later.pos = error.pos)
    (carries : error.carriesPatterns = true) (laterCarries : later.carriesPatterns = true) :
    error.merge later = { error with cause := .expected (unite error.patterns later.patterns) } := by
  rw [merge_of_level same, cause_of_carries carries, cause_of_carries laterCarries]

/-- Otherwise the second counts only if it alone has patterns. -/
theorem merge_of_bare {error later : ParseError} (same : later.pos = error.pos)
    (bare : later.carriesPatterns = false) : error.merge later = error := by
  rw [merge_of_level same]
  cases cause : error.cause <;> cases laterCause : later.cause <;>
    simp_all [carriesPatterns, Cause.patterns?]

theorem merge_of_carries {error later : ParseError} (same : later.pos = error.pos)
    (bare : error.carriesPatterns = false) (carries : later.carriesPatterns = true) :
    error.merge later = later := by
  rw [merge_of_level same]
  cases cause : error.cause <;> cases laterCause : later.cause <;>
    simp_all [carriesPatterns, Cause.patterns?]

/-- The first occurrences in a list decide on those in a longer one. -/
theorem eraseDups_append_congr {first second : List TokenPattern}
    (same : first.eraseDups = second.eraseDups) (more : List TokenPattern) :
    (first ++ more).eraseDups = (second ++ more).eraseDups := by
  have members (pattern : TokenPattern) : pattern ∈ first ↔ pattern ∈ second := by
    rw [← List.mem_eraseDups, same, List.mem_eraseDups]
  have rest : more.removeAll first = more.removeAll second := by
    simp [List.removeAll, members]
  rw [List.eraseDups_append, List.eraseDups_append, same, rest]

/-! Joining errors one by one, of which only those at the furthest position count. -/

/-- An error for a list of errors at its own position. -/
structure SpeaksFor (level : List ParseError) (error : ParseError) : Prop where
  present : level ≠ []
  named : (∃ other ∈ level, other.carriesPatterns = true) → error.carriesPatterns = true
  ordered : error.patterns.eraseDups = (level.flatMap (·.patterns)).eraseDups
  earliest : (∀ other ∈ level, other.carriesPatterns = false) → level.head? = some error

namespace SpeaksFor

variable {level : List ParseError} {error later : ParseError}

theorem single (error : ParseError) : SpeaksFor [error] error := by
  constructor <;> simp

theorem patterns_of_bare (speaks : SpeaksFor level error)
    (bare : error.carriesPatterns = false) : level.flatMap (·.patterns) = [] := by
  simp only [List.flatMap_eq_nil_iff]
  intro other member
  cases carries : other.carriesPatterns with
  | false => exact patterns_of_not_carries carries
  | true =>
      have named := speaks.named ⟨other, member, carries⟩
      simp [bare] at named

theorem merge (speaks : SpeaksFor level error) (same : later.pos = error.pos) :
    SpeaksFor (level ++ [later]) (error.merge later) := by
  have patterns : (level ++ [later]).flatMap (·.patterns) =
      level.flatMap (·.patterns) ++ later.patterns := by simp
  have order := eraseDups_append_congr speaks.ordered later.patterns
  cases laterCarries : later.carriesPatterns with
  | false =>
      rw [merge_of_bare same laterCarries]
      rw [patterns_of_not_carries laterCarries, List.append_nil] at patterns
      refine ⟨by simp, fun carrying => ?_, patterns ▸ speaks.ordered, fun bare => ?_⟩
      · obtain ⟨other, member, carries⟩ := carrying
        rcases List.mem_append.mp member with earlier | last
        · exact speaks.named ⟨other, earlier, carries⟩
        · simp only [List.mem_singleton] at last
          simp [last, laterCarries] at carries
      · have first := speaks.earliest fun other member => bare other (by simp [member])
        simp [List.head?_append, first]
  | true =>
      have named : ¬ ∀ other ∈ level ++ [later], other.carriesPatterns = false := by
        intro bare
        simp [bare later (by simp)] at laterCarries
      cases carries : error.carriesPatterns with
      | true =>
          rw [merge_of_both same carries laterCarries]
          refine ⟨by simp, fun _ => rfl, ?_, fun bare => absurd bare named⟩
          rw [patterns, ← order]
          exact eraseDups_unite error.patterns later.patterns
      | false =>
          rw [merge_of_carries same carries laterCarries]
          refine ⟨by simp, fun _ => laterCarries, ?_, fun bare => absurd bare named⟩
          rw [patterns, speaks.patterns_of_bare carries, List.nil_append]

end SpeaksFor

/-- The join of some errors: none lies further, and it speaks for those at its position. -/
structure Joins (errors : List ParseError) (error : ParseError) : Prop where
  furthest : ∀ other ∈ errors, other.pos ≤ error.pos
  level : SpeaksFor (errors.filter (·.pos = error.pos)) error

theorem Joins.merge (joins : Joins errors error) (later : ParseError) :
    Joins (errors ++ [later]) (error.merge later) := by
  have place := pos_merge error later
  refine ⟨fun other member => ?_, ?_⟩
  · rcases List.mem_append.mp member with earlier | last
    · have := joins.furthest other earlier
      omega
    · simp only [List.mem_singleton] at last
      subst last
      omega
  · rw [List.filter_append]
    rcases Nat.lt_trichotomy error.pos later.pos with further | level | behind
    · have nothing : errors.filter (·.pos = (error.merge later).pos) = [] := by
        simp only [List.filter_eq_nil_iff, decide_eq_true_eq]
        intro other member
        have := joins.furthest other member
        omega
      rw [nothing, merge_of_lt further]
      simpa using SpeaksFor.single later
    · have both : (error.merge later).pos = error.pos := by omega
      have speaks := joins.level.merge level.symm
      simpa [both, level] using speaks
    · rw [merge_of_gt behind]
      have short : later.pos ≠ error.pos := by omega
      simpa [short] using joins.level

theorem Joins.recordAll {seen rest : List ParseError} (joins : Joins seen held)
    (recorded : recordAll (some held) rest = some error) : Joins (seen ++ rest) error := by
  induction rest generalizing seen held with
  | nil =>
      cases recorded
      simpa using joins
  | cons later rest ih => simpa using ih (joins.merge later) recorded

theorem joins_furthest (found : furthest errors = some error) : Joins errors error := by
  cases errors with
  | nil => cases found
  | cons first rest =>
      have alone : Joins [first] first := ⟨by simp, by simpa using SpeaksFor.single first⟩
      exact alone.recordAll found

/-- The furthest of some errors speaks for all of them. -/
theorem arbitrates_furthest (found : furthest errors = some error) : Arbitrates errors error := by
  obtain ⟨furthest, level⟩ := joins_furthest found
  have atLevel (other : ParseError) : other ∈ errors.filter (·.pos = error.pos) ↔
      other ∈ errors ∧ other.pos = error.pos := by
    simp only [List.mem_filter, decide_eq_true_eq]
  refine ⟨?_, furthest, ?_, ?_⟩
  · obtain ⟨other, member⟩ := List.exists_mem_of_ne_nil _ level.present
    exact ⟨other, (atLevel other).mp member⟩
  · rintro ⟨other, member, same, carries⟩
    have named := level.named ⟨other, (atLevel other).mpr ⟨member, same⟩, carries⟩
    refine ⟨error.patterns, cause_of_carries named, fun pattern => ?_, level.ordered⟩
    rw [← List.mem_eraseDups, level.ordered, List.mem_eraseDups, List.mem_flatMap]
    simp only [atLevel, and_assoc]
  · intro bare
    rw [← List.head?_filter]
    exact level.earliest fun other member =>
      bare other ((atLevel other).mp member).1 ((atLevel other).mp member).2

end TokenGrammar.ParseError
