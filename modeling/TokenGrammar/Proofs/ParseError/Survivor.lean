import TokenGrammar.Proofs.ParseError.Arbitration

namespace TokenGrammar.ParseError

/-! Which of some errors is left when they are joined one by one, and which patterns it has then. -/

/-- A union adds what is not there yet, each pattern once and in order. -/
theorem unite_eq (first second : List TokenPattern) :
    unite first second = first ++ (second.removeAll first).eraseDups := by
  induction second generalizing first with
  | nil => simp [List.removeAll]
  | cons pattern rest ih =>
      rw [unite_cons, ih]
      by_cases known : pattern ∈ first
      · simp [known, List.removeAll]
      · have others : rest.removeAll (first ++ [pattern]) =
            (rest.removeAll first).filter fun other => !other == pattern := by
          simp only [List.removeAll, List.filter_filter]
          refine List.filter_congr fun other _ => ?_
          rw [Bool.eq_iff_iff]
          simp [and_comm]
        rw [if_neg known, others, List.append_assoc]
        simp [List.removeAll, known, List.eraseDups_cons]

/-- The errors at a position, in order. -/
def level (errors : List ParseError) (pos : Nat) : List ParseError :=
  errors.filter (·.pos = pos)

/-- An error that is left of some errors. It lies where the furthest of them lie. If none of those
there names patterns, it is the first of them. Otherwise it is the first that does, with its own
patterns and behind them those that the later ones add. -/
structure Outlasts (errors : List ParseError) (error : ParseError) : Prop where
  furthest : (errors.map (·.pos)).max? = some error.pos
  unnamed : (∀ other ∈ level errors error.pos, other.carriesPatterns = false) →
    (level errors error.pos).head? = some error
  named : ∀ earlier leader later, level errors error.pos = earlier ++ leader :: later →
    (∀ other ∈ earlier, other.carriesPatterns = false) → leader.carriesPatterns = true →
    error = { leader with
      cause := .expected <|
        leader.patterns ++ ((later.flatMap (·.patterns)).removeAll leader.patterns).eraseDups }

section Level

variable {errors rest earlier later : List ParseError} {held leader error : ParseError}

theorem recordAll_cons (held other : ParseError) (rest : List ParseError) :
    recordAll (some held) (other :: rest) = recordAll (some (held.merge other)) rest := rfl

theorem mem_level {pos : Nat} : error ∈ level errors pos ↔ error ∈ errors ∧ error.pos = pos := by
  simp [level]

theorem recordAll_level (nearer : ∀ other ∈ rest, other.pos ≤ held.pos) :
    recordAll (some held) rest = recordAll (some held) (level rest held.pos) := by
  induction rest generalizing held with
  | nil => rfl
  | cons other rest ih =>
      obtain ⟨own, others⟩ := List.forall_mem_cons.mp nearer
      rcases Nat.lt_or_eq_of_le own with behind | same
      · have skipped : level (other :: rest) held.pos = level rest held.pos := by
          simp [level, Nat.ne_of_lt behind]
        rw [skipped, ← ih others, recordAll_cons, merge_of_gt behind]
      · have kept : level (other :: rest) held.pos = other :: level rest held.pos := by
          simp [level, same]
        have place : (held.merge other).pos = held.pos := by
          rw [pos_merge]
          omega
        have further := @ih (held.merge other) (by rw [place]; exact others)
        rw [place] at further
        rw [kept]
        exact further

theorem furthest_concat_of_lt (nearer : ∀ other ∈ earlier, other.pos < error.pos) :
    furthest (earlier ++ [error]) = some error := by
  rw [furthest_concat]
  cases found : furthest earlier with
  | none => rfl
  | some held =>
      obtain ⟨other, member, same⟩ := (arbitrates_furthest found).reached
      have ahead : held.pos < error.pos := same ▸ nearer other member
      exact congrArg some (merge_of_lt ahead)

/-- Only the errors at the furthest position count. -/
theorem furthest_level {pos : Nat} (nearer : ∀ other ∈ errors, other.pos ≤ pos)
    (reached : ∃ other ∈ errors, other.pos = pos) : furthest errors = furthest (level errors pos) := by
  have present : (errors.find? (·.pos = pos)).isSome = true := by
    simpa [List.find?_isSome] using reached
  obtain ⟨first, found⟩ := Option.isSome_iff_exists.mp present
  obtain ⟨place, before, after, split, short⟩ := List.find?_eq_some_iff_append.mp found
  simp only [decide_eq_true_eq, Bool.not_eq_true', decide_eq_false_iff_not] at place short
  subst place
  -- All errors before the first one at that position lie nearer, so that it takes their place.
  rw [split] at nearer
  have behind : ∀ other ∈ before, other.pos < first.pos := fun other member =>
    Nat.lt_of_le_of_ne (nearer other (by simp [member])) (short other member)
  have start : recordAll none (before ++ [first]) = some first := furthest_concat_of_lt behind
  have whole : level errors first.pos = first :: level after first.pos := by
    have none : level before first.pos = [] := by simpa [level] using short
    rw [split, level, List.filter_append, ← level, none]
    simp [level]
  calc furthest errors
      = recordAll (recordAll none (before ++ [first])) after := by
        rw [← recordAll_append, List.append_assoc, split]
        rfl
    _ = recordAll (some first) (level after first.pos) := by
        rw [start, recordAll_level fun other member => nearer other (by simp [member])]
    _ = furthest (level errors first.pos) := by
        rw [whole]
        rfl

theorem recordAll_unnamed (same : ∀ other ∈ rest, other.pos = held.pos)
    (bare : ∀ other ∈ rest, other.carriesPatterns = false) :
    recordAll (some held) rest = some held := by
  induction rest with
  | nil => rfl
  | cons other rest ih =>
      obtain ⟨place, places⟩ := List.forall_mem_cons.mp same
      obtain ⟨own, others⟩ := List.forall_mem_cons.mp bare
      rw [recordAll_cons, merge_of_bare place own, ih places others]

/-- An error that names patterns takes in those of all later ones at its position. -/
theorem recordAll_named (same : ∀ other ∈ rest, other.pos = held.pos)
    (carries : held.carriesPatterns = true) : recordAll (some held) rest =
      some { held with cause := .expected (unite held.patterns (rest.flatMap (·.patterns))) } := by
  induction rest generalizing held with
  | nil => exact congrArg some (by rw [List.flatMap_nil, unite_nil, ← cause_of_carries carries])
  | cons other rest ih =>
      obtain ⟨place, places⟩ := List.forall_mem_cons.mp same
      rw [List.flatMap_cons, unite_append, recordAll_cons]
      cases own : other.carriesPatterns with
      | false =>
          rw [merge_of_bare place own, ih places carries, patterns_of_not_carries own, unite_nil]
      | true =>
          rw [merge_of_both place carries own]
          exact ih places rfl

theorem furthest_named (same : ∀ other ∈ earlier ++ later, other.pos = leader.pos)
    (bare : ∀ other ∈ earlier, other.carriesPatterns = false)
    (carries : leader.carriesPatterns = true) : furthest (earlier ++ leader :: later) =
      some { leader with cause := .expected (unite leader.patterns (later.flatMap (·.patterns))) } := by
  have places : ∀ other ∈ later, other.pos = leader.pos := fun other member =>
    same other (by simp [member])
  rw [← recordAll_named places carries]
  cases earlier with
  | nil => rfl
  | cons first earlier =>
      have place : first.pos = leader.pos := same first (by simp)
      obtain ⟨own, others⟩ := List.forall_mem_cons.mp bare
      have kept : recordAll (some first) earlier = some first := by
        refine recordAll_unnamed (fun other member => ?_) others
        rw [place]
        exact same other (by simp [member])
      calc furthest (first :: earlier ++ leader :: later)
          = recordAll (recordAll (some first) earlier) (leader :: later) := by
            rw [← recordAll_append]
            rfl
        _ = recordAll (some (first.merge leader)) later := by
            rw [kept]
            rfl
        _ = recordAll (some leader) later := by
            rw [merge_of_carries place.symm own carries]

end Level

theorem furthest_isSome (first : ParseError) (rest : List ParseError) :
    ∃ error, furthest (first :: rest) = some error := by
  have grows (held : ParseError) : ∃ error, recordAll (some held) rest = some error := by
    induction rest generalizing held with
    | nil => exact ⟨held, rfl⟩
    | cons other rest ih => exact ih (held.merge other)
  exact grows first

theorem outlasts_furthest {errors : List ParseError} {error : ParseError}
    (found : furthest errors = some error) : Outlasts errors error := by
  have arbitrates := arbitrates_furthest found
  rw [furthest_level arbitrates.furthest arbitrates.reached] at found
  have places {other : ParseError} (member : other ∈ level errors error.pos) :
      other.pos = error.pos := (mem_level.mp member).2
  refine ⟨?_, fun bare => ?_, fun earlier leader later split bare carries => ?_⟩
  · obtain ⟨other, member, same⟩ := arbitrates.reached
    refine List.max?_eq_some_iff.mpr ⟨List.mem_map.mpr ⟨other, member, same⟩, fun pos listed => ?_⟩
    obtain ⟨other, member, rfl⟩ := List.mem_map.mp listed
    exact arbitrates.furthest other member
  · have earliest := arbitrates.earliest fun other member same =>
      bare other (mem_level.mpr ⟨member, same⟩)
    rw [level, List.head?_filter]
    exact earliest
  · have leads : leader.pos = error.pos := places (by simp [split])
    have same : ∀ other ∈ earlier ++ later, other.pos = leader.pos := by
      intro other member
      rw [leads]
      refine places ?_
      rw [split]
      rcases List.mem_append.mp member with before | after
      · simp [before]
      · simp [after]
    rw [split, furthest_named same bare carries] at found
    rw [← Option.some.inj found, unite_eq]

theorem furthest_again {errors : List ParseError} {error : ParseError} (member : error ∈ errors) :
    furthest (errors ++ [error]) = furthest errors := by
  obtain ⟨before, after, rfl⟩ := List.append_of_mem member
  have held : Holds (furthest (before ++ error :: after)) error := by
    have whole : furthest (before ++ error :: after) =
        recordAll (some (gather (furthest before) error)) after :=
      recordAll_append none before (error :: after)
    rw [whole]
    exact (holds_gather (furthest before) error).recordAll after
  exact (furthest_concat _ error).trans held

theorem mem_patterns_furthest {errors : List ParseError} {error : ParseError}
    (found : furthest errors = some error) (pattern : TokenPattern) :
    pattern ∈ error.patterns ↔ ∃ other ∈ level errors error.pos, pattern ∈ other.patterns := by
  have ordered := (joins_furthest found).level.ordered
  rw [← List.mem_eraseDups, ordered, List.mem_eraseDups, List.mem_flatMap]
  rfl

theorem furthest_perm {errors others : List ParseError} {error other : ParseError}
    (perm : others.Perm errors) (found : furthest errors = some error)
    (foundToo : furthest others = some other) :
    other.pos = error.pos ∧ ∀ pattern, pattern ∈ other.patterns ↔ pattern ∈ error.patterns := by
  have place : other.pos = error.pos := by
    obtain ⟨one, member, same⟩ := (arbitrates_furthest found).reached
    obtain ⟨two, memberToo, sameToo⟩ := (arbitrates_furthest foundToo).reached
    have above := (arbitrates_furthest foundToo).furthest one (perm.mem_iff.mpr member)
    have below := (arbitrates_furthest found).furthest two (perm.mem_iff.mp memberToo)
    omega
  refine ⟨place, fun pattern => ?_⟩
  rw [mem_patterns_furthest found, mem_patterns_furthest foundToo, place]
  simp only [mem_level, perm.mem_iff]

/-- Joining errors one by one decides between them: by their positions, then by who names patterns, then
by who came first. How they are grouped does not matter, nor how often one of them is joined. Their
order matters neither to the position nor to which patterns are named. -/
theorem furthest_decides (first : ParseError) (rest : List ParseError) :
    ∃ error, furthest (first :: rest) = some error ∧ Outlasts (first :: rest) error ∧
      (∀ one two three : ParseError, (one.merge two).merge three = one.merge (two.merge three)) ∧
      (∀ other ∈ first :: rest, furthest (first :: rest ++ [other]) = some error) ∧
      ∀ others, others.Perm (first :: rest) → ∃ other, furthest others = some other ∧
        other.pos = error.pos ∧ ∀ pattern, pattern ∈ other.patterns ↔ pattern ∈ error.patterns := by
  obtain ⟨error, found⟩ := furthest_isSome first rest
  refine ⟨error, found, outlasts_furthest found, merge_assoc, fun other member => ?_,
    fun others perm => ?_⟩
  · exact (furthest_again member).trans found
  · cases others with
    | nil => simp at perm
    | cons one more =>
        obtain ⟨other, foundToo⟩ := furthest_isSome one more
        exact ⟨other, foundToo, furthest_perm perm found foundToo⟩

/-- Of four errors, the furthest three are at one position, and the last two of these name patterns. -/
theorem furthest_decides_tie :
    let bare : ParseError := ⟨.ordinary "op" "]", 2, .emptyMatch⟩
    let near : ParseError := ⟨.ordinary "op" "[", 1, .expected [.ofType "word"]⟩
    let leader : ParseError := ⟨.endOfInput, 2, .expected [.ofType "number", .ofType "number"]⟩
    let later : ParseError :=
      ⟨.ordinary "op" "]", 2, .expected [.ofType "string", .ofType "number", .ofType "string"]⟩
    ∃ error, furthest [bare, near, leader, later] = some error ∧
      error = { leader with
        cause := .expected [.ofType "number", .ofType "number", .ofType "string"] } ∧
      later ∈ [bare, near, leader, later] ∧
      furthest ([bare, near, leader, later] ++ [later]) = some error ∧
      [later, leader, near, bare].Perm [bare, near, leader, later] ∧
      ∃ other, furthest [later, leader, near, bare] = some other ∧ other.pos = error.pos ∧
        ∀ pattern, pattern ∈ other.patterns ↔ pattern ∈ error.patterns := by
  intro bare near leader later
  obtain ⟨error, found, outlasts, _, again, permuted⟩ :=
    furthest_decides bare [near, leader, later]
  have place : error.pos = 2 := by
    have positions : ([bare, near, leader, later].map (·.pos)).max? = some 2 := by decide
    exact Option.some.inj (outlasts.furthest.symm.trans positions)
  have leads : level [bare, near, leader, later] error.pos = [bare] ++ leader :: [later] := by
    rw [place]
    decide
  have member : later ∈ [bare, near, leader, later] := by simp
  have perm : [later, leader, near, bare].Perm [bare, near, leader, later] :=
    List.reverse_perm [bare, near, leader, later]
  refine ⟨error, found, ?_, member, again later member, perm, permuted _ perm⟩
  exact outlasts.named [bare] leader [later] leads (by simp [bare, carriesPatterns, Cause.patterns?]) rfl

end TokenGrammar.ParseError
