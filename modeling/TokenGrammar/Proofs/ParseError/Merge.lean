import TokenGrammar.ParseError

namespace TokenGrammar.ParseError

/-! The algebra of joined errors: joining is associative, and joining what is joined already
changes nothing. It is not commutative, since of two errors the earlier decides on the order. -/

section Unite

variable {first second third : List TokenPattern} {pattern : TokenPattern}

@[simp] theorem unite_nil (first : List TokenPattern) : unite first [] = first := rfl

theorem unite_cons (first rest : List TokenPattern) (pattern : TokenPattern) :
    unite first (pattern :: rest) =
      unite (if pattern ∈ first then first else first ++ [pattern]) rest := rfl

theorem unite_append (first second third : List TokenPattern) :
    unite first (second ++ third) = unite (unite first second) third := by
  simp only [unite, List.foldl_append]

@[simp] theorem mem_unite : pattern ∈ unite first second ↔ pattern ∈ first ∨ pattern ∈ second := by
  induction second generalizing first with
  | nil => simp
  | cons head rest ih =>
      rw [unite_cons, ih]
      split <;> grind

/-- Patterns that are there already are not added again. -/
theorem unite_of_subset (contained : ∀ pattern ∈ second, pattern ∈ first) :
    unite first second = first := by
  induction second with
  | nil => rfl
  | cons head rest ih =>
      rw [unite_cons, if_pos (contained head (by simp))]
      exact ih fun pattern member => contained pattern (by simp [member])

theorem unite_assoc (first second third : List TokenPattern) :
    unite (unite first second) third = unite first (unite second third) := by
  induction third generalizing second with
  | nil => rfl
  | cons pattern rest ih =>
      have step : (if pattern ∈ unite first second then unite first second
          else unite first second ++ [pattern]) =
          unite first (if pattern ∈ second then second else second ++ [pattern]) := by
        by_cases known : pattern ∈ second
        · rw [if_pos known, if_pos (mem_unite.mpr (.inr known))]
        · rw [if_neg known, unite_append]
          rfl
      rw [unite_cons, unite_cons, step, ih]

/-- A list of patterns and its first occurrences are the same to a union. -/
theorem eraseDups_unite (first second : List TokenPattern) :
    (unite first second).eraseDups = (first ++ second).eraseDups := by
  induction second generalizing first with
  | nil => simp
  | cons pattern rest ih =>
      rw [unite_cons, ih]
      by_cases known : pattern ∈ first
      · rw [if_pos known, List.eraseDups_append, List.eraseDups_append]
        simp [List.removeAll, known]
      · rw [if_neg known, List.append_assoc]
        rfl

end Unite

section Merge

variable {earlier later other : ParseError}

theorem merge_of_lt (further : earlier.pos < later.pos) : earlier.merge later = later := by
  simp only [merge, further, if_true]

theorem merge_of_gt (further : later.pos < earlier.pos) : earlier.merge later = earlier := by
  have behind : ¬ earlier.pos < later.pos := by omega
  simp only [merge, behind, further, if_true, if_false]

theorem merge_of_level (level : later.pos = earlier.pos) :
    earlier.merge later = match earlier.cause, later.cause with
      | .expected first, .expected second => { earlier with cause := .expected (unite first second) }
      | .expected _, _ => earlier
      | _, .expected _ => later
      | _, _ => earlier := by
  cases cause : earlier.cause <;> cases laterCause : later.cause <;>
    simp [merge, level, cause, laterCause]

@[simp] theorem pos_merge (earlier later : ParseError) :
    (earlier.merge later).pos = max earlier.pos later.pos := by
  rcases Nat.lt_trichotomy earlier.pos later.pos with further | level | behind
  · rw [merge_of_lt further]
    omega
  · rw [merge_of_level level.symm]
    split <;> (try simp only) <;> omega
  · rw [merge_of_gt behind]
    omega

theorem merge_assoc (first second third : ParseError) :
    (first.merge second).merge third = first.merge (second.merge third) := by
  have outer := pos_merge first second
  have inner := pos_merge second third
  rcases Nat.lt_trichotomy first.pos second.pos with ahead | level | behind
  · have reached : first.pos < (second.merge third).pos := by omega
    rw [merge_of_lt ahead, merge_of_lt reached]
  · rcases Nat.lt_trichotomy second.pos third.pos with further | same | nearer
    · have reached : (first.merge second).pos < third.pos := by omega
      rw [merge_of_lt further, merge_of_lt reached, merge_of_lt (level ▸ further)]
    · obtain ⟨firstToken, firstPos, firstCause⟩ := first
      obtain ⟨secondToken, secondPos, secondCause⟩ := second
      obtain ⟨thirdToken, thirdPos, thirdCause⟩ := third
      simp only at level same
      subst level same
      cases firstCause <;> cases secondCause <;> cases thirdCause <;>
        simp [merge, unite_assoc]
    · have left : third.pos < (first.merge second).pos := by omega
      rw [merge_of_gt nearer, merge_of_gt left]
  · rw [merge_of_gt behind]
    rcases Nat.lt_trichotomy second.pos third.pos with further | same | nearer
    · rw [merge_of_lt further]
    · have left : (second.merge third).pos < first.pos := by omega
      rw [merge_of_gt left, merge_of_gt (same ▸ behind)]
    · rw [merge_of_gt nearer, merge_of_gt behind, merge_of_gt (Nat.lt_trans nearer behind)]

@[simp] theorem merge_self (error : ParseError) : error.merge error = error := by
  obtain ⟨token, pos, cause⟩ := error
  cases cause <;> simp [merge, unite_of_subset]

/-- Joining an error again, after any other, changes nothing. -/
theorem merge_merge_self (first second : ParseError) :
    (first.merge second).merge first = first.merge second := by
  have outer := pos_merge first second
  rcases Nat.lt_trichotomy first.pos second.pos with ahead | level | behind
  · have left : first.pos < (first.merge second).pos := by omega
    rw [merge_of_gt left]
  · obtain ⟨firstToken, firstPos, firstCause⟩ := first
    obtain ⟨secondToken, secondPos, secondCause⟩ := second
    simp only at level
    subst level
    have united (patterns more : List TokenPattern) :
        unite (unite patterns more) patterns = unite patterns more :=
      unite_of_subset fun _ member => mem_unite.mpr (.inl member)
    cases firstCause <;> cases secondCause <;> simp [merge, united, unite_of_subset]
  · rw [merge_of_gt behind, merge_self]

end Merge

/-! A record of errors holds an error if joining it changes nothing. -/

/-- The record after more errors. -/
def recordAll (record : Option ParseError) (errors : List ParseError) : Option ParseError :=
  errors.foldl (fun record error => some (gather record error)) record

def Holds (record : Option ParseError) (error : ParseError) : Prop :=
  some (gather record error) = record

section Record

variable {record : Option ParseError} {error later : ParseError}

theorem recordAll_append (record : Option ParseError) (first second : List ParseError) :
    recordAll record (first ++ second) = recordAll (recordAll record first) second := by
  simp only [recordAll, List.foldl_append]

theorem furthest_concat (errors : List ParseError) (error : ParseError) :
    furthest (errors ++ [error]) = some (gather (furthest errors) error) :=
  recordAll_append none errors [error]

theorem holds_gather (record : Option ParseError) (error : ParseError) :
    Holds (some (gather record error)) error := by
  cases record with
  | none => simp [Holds, gather]
  | some held => simp [Holds, gather, merge_assoc]

theorem Holds.gather (held : Holds record error) (later : ParseError) :
    Holds (some (ParseError.gather record later)) error := by
  cases record with
  | none => simp [Holds] at held
  | some furthest =>
      simp only [Holds, ParseError.gather, Option.some.injEq] at held ⊢
      calc (furthest.merge later).merge error
          = ((furthest.merge error).merge later).merge error := by rw [held]
        _ = furthest.merge ((error.merge later).merge error) := by simp only [merge_assoc]
        _ = furthest.merge (error.merge later) := by rw [merge_merge_self]
        _ = (furthest.merge error).merge later := by rw [merge_assoc]
        _ = furthest.merge later := by rw [held]

/-- What a record holds, it goes on holding. -/
theorem Holds.recordAll (held : Holds record error) (errors : List ParseError) :
    Holds (ParseError.recordAll record errors) error := by
  induction errors generalizing record with
  | nil => exact held
  | cons next rest ih => exact ih (held.gather next)

theorem Holds.merge (held : Holds record error) (laterHeld : Holds record later) :
    Holds record (error.merge later) := by
  cases record with
  | none => simp [Holds] at held
  | some furthest =>
      simp only [Holds, ParseError.gather, Option.some.injEq] at held laterHeld ⊢
      rw [← merge_assoc, held, laterHeld]

end Record

/-! Errors that are all changed in the same way are joined as they were before. -/

section Change

variable {change : ParseError → ParseError}
  (merges : ∀ earlier later, (change earlier).merge (change later) = change (earlier.merge later))

include merges

theorem gather_map (gathered : Option ParseError) (error : ParseError) :
    gather (gathered.map change) (change error) = change (gather gathered error) := by
  cases gathered with
  | none => rfl
  | some earlier => exact merges earlier error

theorem recordAll_map (record : Option ParseError) (errors : List ParseError) :
    recordAll (record.map change) (errors.map change) = (recordAll record errors).map change := by
  induction errors generalizing record with
  | nil => rfl
  | cons error rest ih =>
      have joined := ih (some (gather record error))
      rwa [Option.map_some, ← gather_map merges] at joined

theorem furthest_map (errors : List ParseError) :
    furthest (errors.map change) = (furthest errors).map change :=
  recordAll_map merges none errors

end Change
end TokenGrammar.ParseError
