import TokenGrammar.Proofs.Constraint.Directive

namespace TokenGrammar

/-! # The texts of sizes

A size is nothing at all, one count, or two of them with a dash between. Which texts are read, as
which sizes, and why the others are refused, is said here by how such a text is put together. A size
that can be met at all is written with a dash, as long as its counts fit a machine word, and is read
back from that text; no other size comes from any text. -/

namespace Text

variable {text before word after : List Char}

theorem dropWhile_isSpace_of_solid (solid : ∀ c ∈ word, isSpace c = false) :
    word.dropWhile isSpace = word := by
  cases word with
  | nil => rfl
  | cons c rest => exact List.dropWhile_cons_of_neg (by simp [solid c (by simp)])

theorem trimSpace_pad (leading : ∀ c ∈ before, isSpace c = true)
    (trailing : ∀ c ∈ after, isSpace c = true) (solid : ∀ c ∈ word, isSpace c = false) :
    trimSpace (before ++ word ++ after) = word := by
  have front : (before ++ word ++ after).dropWhile isSpace =
      if word = [] then [] else word ++ after := by
    rw [List.append_assoc, List.dropWhile_append_of_pos leading]
    cases word with
    | nil => simpa using trailing
    | cons c rest => exact List.dropWhile_cons_of_neg (by simp [solid c (by simp)])
  rw [trimSpace, front]
  by_cases empty : word = []
  · simp [empty]
  · rw [if_neg empty, List.reverse_append, List.dropWhile_append_of_pos (by simpa using trailing),
      dropWhile_isSpace_of_solid (by simpa using solid), List.reverse_reverse]

theorem exists_trimSpace (text : List Char) : ∃ before after,
    (∀ c ∈ before, isSpace c = true) ∧ (∀ c ∈ after, isSpace c = true) ∧
      text = before ++ trimSpace text ++ after := by
  let rest := text.dropWhile isSpace
  refine ⟨text.takeWhile isSpace, (rest.reverse.takeWhile isSpace).reverse,
    fun c member => List.mem_takeWhile_imp member,
    fun c member => List.mem_takeWhile_imp (List.mem_reverse.mp member), ?_⟩
  have ends : trimSpace text ++ (rest.reverse.takeWhile isSpace).reverse = rest := by
    rw [trimSpace, ← List.reverse_append, List.takeWhile_append_dropWhile, List.reverse_reverse]
  rw [List.append_assoc, ends]
  exact List.takeWhile_append_dropWhile.symm

theorem isSpace_of_isDigit {c : Char} (digit : c.isDigit = true) : isSpace c = false := by
  rw [Char.isDigit, Bool.and_eq_true, decide_eq_true_eq, decide_eq_true_eq] at digit
  have low : 48 ≤ c.toNat := UInt32.le_iff_toNat_le.mp digit.1
  have high : c.toNat ≤ 57 := UInt32.le_iff_toNat_le.mp digit.2
  rw [isSpace, ← Bool.not_eq_true, CodeRanges.contains_iff]
  simp only [spaceRanges, List.mem_cons, List.not_mem_nil, or_false, exists_eq_or_imp,
    exists_eq_left]
  omega

theorem decimalValue_toDigits (n : Nat) : decimalValue (Nat.toDigits 10 n) = n := by
  have folded (digits : List Char) : decimalValue digits = Nat.ofDigitChars 10 digits 0 := by
    simp only [decimalValue, Nat.ofDigitChars, Nat.mul_comm]
  rw [folded, Nat.ofDigitChars_toDigits (by decide) (by decide)]

/-- Decimal digits, which a plus sign may precede, of a number that fits a word. -/
inductive Writes : List Char → Nat → Prop
  | digits (signed : Bool) {digits : List Char} (present : digits ≠ [])
      (decimal : ∀ digit ∈ digits, digit.isDigit = true) (fits : decimalValue digits ≤ maxWord) :
      Writes ((if signed then ['+'] else []) ++ digits) (decimalValue digits)

namespace Writes

variable {number : Nat}

theorem solid (writes : Writes text number) : ∀ c ∈ text, isSpace c = false := by
  cases writes with
  | digits signed present decimal fits =>
      intro c member
      rcases List.mem_append.mp member with sign | digit
      · cases signed with
        | true =>
            obtain rfl := List.mem_singleton.mp sign
            decide
        | false => cases sign
      · exact isSpace_of_isDigit (decimal c digit)

theorem readWord (writes : Writes text number) : readWord text = some number := by
  cases writes with
  | @digits signed digits present decimal fits =>
      have read : readDigits digits = some (decimalValue digits) :=
        if_pos ⟨present, List.all_eq_true.mpr decimal⟩
      cases signed with
      | true => simpa [Text.readWord, read] using fits
      | false =>
          cases digits with
          | nil => exact absurd rfl present
          | cons digit rest =>
              have unsigned : digit ≠ '+' := by
                rintro rfl
                exact absurd (decimal '+' (by simp)) (by decide)
              simp only [Bool.false_eq_true, if_false, List.nil_append, Text.readWord]
              split
              · exact absurd (List.cons.inj ‹_›).1 unsigned
              · simpa [read] using fits

theorem of_readDigits (signed : Bool) {digits : List Char}
    (read : (readDigits digits).filter (· ≤ maxWord) = some number) :
    Writes ((if signed then ['+'] else []) ++ digits) number := by
  obtain ⟨read, fits⟩ := Option.filter_eq_some_iff.mp read
  by_cases decimal : digits ≠ [] ∧ digits.all Char.isDigit
  · rw [readDigits, if_pos decimal, Option.some.injEq] at read
    subst read
    exact .digits signed decimal.1 (List.all_eq_true.mp decimal.2) (by simpa using fits)
  · rw [readDigits, if_neg decimal] at read
    cases read

theorem of_readWord (read : Text.readWord text = some number) : Writes text number := by
  simp only [Text.readWord] at read
  split at read
  · exact of_readDigits true read
  · exact of_readDigits false read

theorem toDigits (fits : number ≤ maxWord) : Writes (Nat.toDigits 10 number) number := by
  have writes := Writes.digits false Nat.toDigits_ne_nil
    (fun digit => Nat.isDigit_of_mem_toDigits (by decide) (by decide))
    ((decimalValue_toDigits number).symm ▸ fits)
  rwa [decimalValue_toDigits] at writes

end Writes
end Text

namespace Repetition

open Text

/-- A maximum is not zero, nor is it below the minimum. -/
def Sound (repetition : Repetition) : Prop :=
  ∀ most, repetition.max = some most → 0 < most ∧ repetition.min ≤ most

theorem Sound.allowsMore_zero {repetition : Repetition} (sound : repetition.Sound) :
    repetition.allowsMore 0 = true := by
  cases limit : repetition.max with
  | none => simp [allowsMore, limit]
  | some most => simpa [allowsMore, limit] using (sound most limit).1

/-- A size that can be met, and whose counts fit a word. -/
structure Expressible (repetition : Repetition) : Prop where
  sound : repetition.Sound
  min : repetition.min ≤ maxWord
  max : ∀ most, repetition.max = some most → most ≤ maxWord

/-- The minimum and a dash, and the maximum if there is one. -/
def directive (repetition : Repetition) : String :=
  toString repetition.min ++ "-" ++ repetition.max.elim "" toString

/-- What one end of a range asks for: nothing, or a count with white space around it. -/
inductive Bound : List Char → Nat → Prop
  | missing : Bound [] 0
  | count {before text after : List Char} {count : Nat} (leading : ∀ c ∈ before, isSpace c = true)
      (writes : Writes text count) (trailing : ∀ c ∈ after, isSpace c = true) :
      Bound (before ++ text ++ after) count

/-- What becomes of a text that should say a size. -/
inductive Reads : List Char → Except DirectiveError Repetition → Prop
  | any : Reads [] (.ok unbounded)
  | exactly {text : List Char} {count : Nat} (bound : Bound text count) (positive : 0 < count) :
      Reads text (.ok ⟨count, some count⟩)
  | atLeast {low high : List Char} {min : Nat} (lower : Bound low min) (upper : Bound high 0) :
      Reads (low ++ '-' :: high) (.ok ⟨min, none⟩)
  | between {low high : List Char} {min max : Nat} (lower : Bound low min) (upper : Bound high max)
      (positive : 0 < max) (ordered : min ≤ max) : Reads (low ++ '-' :: high) (.ok ⟨min, some max⟩)
  | notACount {text : List Char} (plain : '-' ∉ text) (unread : ∀ count, ¬ Bound text count) :
      Reads text (.error (.notACount (String.ofList text)))
  | zeroCount {text : List Char} (present : text ≠ []) (bound : Bound text 0) :
      Reads text (.error .zeroCount)
  | badLow {low high : List Char} (plain : '-' ∉ low) (unread : ∀ count, ¬ Bound low count) :
      Reads (low ++ '-' :: high) (.error (.notACount (String.ofList low)))
  | badHigh {low high : List Char} {min : Nat} (lower : Bound low min)
      (unread : ∀ count, ¬ Bound high count) :
      Reads (low ++ '-' :: high) (.error (.notACount (String.ofList high)))
  | emptyRange {low high : List Char} {min max : Nat} (lower : Bound low min)
      (upper : Bound high max) (positive : 0 < max) (crossed : max < min) :
      Reads (low ++ '-' :: high) (.error (.emptyRange min max))

namespace Bound

variable {text : List Char} {count : Nat}

theorem readBound (bound : Bound text count) : readBound text = .ok count := by
  cases bound with
  | missing => rfl
  | @count before word after count leading writes trailing =>
      have present : (before ++ word ++ after).isEmpty = false := by
        cases writes with
        | digits signed present => simp [present]
      simp only [Repetition.readBound, present, Bool.false_eq_true, if_false,
        trimSpace_pad leading trailing writes.solid, writes.readWord]

theorem le_maxWord (bound : Bound text count) : count ≤ maxWord := by
  cases bound with
  | missing => exact Nat.zero_le _
  | count leading writes trailing => exact readWord_le writes.readWord

theorem dash_not_mem (bound : Bound text count) : '-' ∉ text := by
  cases bound with
  | missing => exact List.not_mem_nil
  | count leading writes trailing =>
      simp only [List.mem_append, not_or]
      refine ⟨⟨fun member => ?_, fun member => ?_⟩, fun member => ?_⟩
      · exact absurd (leading '-' member) (by decide)
      · cases writes with
        | digits signed present decimal =>
            rcases List.mem_append.mp member with sign | digit
            · cases signed <;> simp at sign
            · exact absurd (decimal '-' digit) (by decide)
      · exact absurd (trailing '-' member) (by decide)

theorem toDigits (fits : count ≤ maxWord) : Bound (Nat.toDigits 10 count) count := by
  have bound : Bound ([] ++ Nat.toDigits 10 count ++ []) count := .count nofun (.toDigits fits) nofun
  simpa using bound

end Bound

/-- An end of a range is read as what it asks for, and refused if it asks for nothing that is a
count. -/
theorem readBound_cases (text : List Char) : (∃ count, Bound text count) ∨
    (∀ count, ¬ Bound text count) ∧ readBound text = .error (.notACount (String.ofList text)) := by
  by_cases asks : ∃ count, Bound text count
  · exact .inl asks
  refine .inr ⟨not_exists.mp asks, ?_⟩
  have present : text.isEmpty = false := by
    rw [List.isEmpty_eq_false_iff]
    rintro rfl
    exact asks ⟨0, .missing⟩
  cases word : readWord (trimSpace text) with
  | none => simp only [readBound, present, Bool.false_eq_true, if_false, word]
  | some count =>
      obtain ⟨before, after, leading, trailing, split⟩ := exists_trimSpace text
      refine absurd ⟨count, ?_⟩ asks
      rw [split]
      exact .count leading (.of_readWord word) trailing

section Outcome

variable {text : List Char}

theorem readBound_of_unread (unread : ∀ count, ¬ Bound text count) :
    readBound text = .error (.notACount (String.ofList text)) := by
  rcases readBound_cases text with ⟨count, bound⟩ | ⟨_, refused⟩
  · exact absurd bound (unread count)
  · exact refused

theorem ofDirective_plain (present : text ≠ []) (plain : '-' ∉ text) :
    ofDirective (String.ofList text) = (do
      let count ← readBound text
      if count = 0 then throw .zeroCount
      return ⟨count, some count⟩) := by
  have written : (String.ofList text).isEmpty = false := by
    simpa [← Bool.not_eq_true, String.isEmpty_iff, ← String.toList_inj] using present
  simp only [ofDirective, written, Bool.false_eq_true, if_false, String.toList_ofList,
    cutAt_of_not_mem plain]

theorem ofDirective_range {low : List Char} (plain : '-' ∉ low) (high : List Char) :
    ofDirective (String.ofList (low ++ '-' :: high)) = (do
      let min ← readBound low
      let max ← readBound high
      if max = 0 then return ⟨min, none⟩
      if max < min then throw (.emptyRange min max)
      return ⟨min, some max⟩) := by
  have written : (String.ofList (low ++ '-' :: high)).isEmpty = false := by
    simp [← Bool.not_eq_true, String.isEmpty_iff, ← String.toList_inj]
  simp only [ofDirective, written, Bool.false_eq_true, if_false, String.toList_ofList,
    cutAt_append plain]

theorem Reads.ofDirective {outcome : Except DirectiveError Repetition}
    (reads : Reads text outcome) : ofDirective (String.ofList text) = outcome := by
  cases reads with
  | any => rfl
  | exactly bound positive =>
      have present : text ≠ [] := by
        rintro rfl
        cases bound.readBound
        exact absurd positive (by decide)
      rw [ofDirective_plain present bound.dash_not_mem, bound.readBound]
      exact if_neg (Nat.ne_of_gt positive)
  | atLeast lower upper =>
      rw [ofDirective_range lower.dash_not_mem, lower.readBound, upper.readBound]
      rfl
  | between lower upper positive ordered =>
      rw [ofDirective_range lower.dash_not_mem, lower.readBound, upper.readBound]
      exact (if_neg (Nat.ne_of_gt positive)).trans (if_neg (Nat.not_lt.mpr ordered))
  | notACount plain unread =>
      have present : text ≠ [] := by
        rintro rfl
        exact unread 0 .missing
      rw [ofDirective_plain present plain, readBound_of_unread unread]
      rfl
  | zeroCount present bound =>
      rw [ofDirective_plain present bound.dash_not_mem, bound.readBound]
      rfl
  | badLow plain unread =>
      rw [ofDirective_range plain, readBound_of_unread unread]
      rfl
  | badHigh lower unread =>
      rw [ofDirective_range lower.dash_not_mem, lower.readBound, readBound_of_unread unread]
      rfl
  | emptyRange lower upper positive crossed =>
      rw [ofDirective_range lower.dash_not_mem, lower.readBound, upper.readBound]
      exact (if_neg (Nat.ne_of_gt positive)).trans (if_pos crossed)

theorem exists_reads (text : List Char) : ∃ outcome, Reads text outcome := by
  by_cases empty : text = []
  · subst empty
    exact ⟨_, .any⟩
  by_cases member : '-' ∈ text
  · obtain ⟨low, high, rfl, plain⟩ := List.eq_append_cons_of_mem member
    rcases readBound_cases low with ⟨min, lower⟩ | ⟨unread, _⟩
    · rcases readBound_cases high with ⟨max, upper⟩ | ⟨unread, _⟩
      · rcases Nat.eq_zero_or_pos max with rfl | positive
        · exact ⟨_, .atLeast lower upper⟩
        · rcases Nat.lt_or_ge max min with crossed | ordered
          · exact ⟨_, .emptyRange lower upper positive crossed⟩
          · exact ⟨_, .between lower upper positive ordered⟩
      · exact ⟨_, .badHigh lower unread⟩
    · exact ⟨_, .badLow plain unread⟩
  · rcases readBound_cases text with ⟨count, bound⟩ | ⟨unread, _⟩
    · rcases Nat.eq_zero_or_pos count with rfl | positive
      · exact ⟨_, .zeroCount empty bound⟩
      · exact ⟨_, .exactly bound positive⟩
    · exact ⟨_, .notACount member unread⟩

end Outcome

variable {directive : String} {repetition : Repetition}

/-- Which texts are read, as what, and for what reason the others are refused. -/
theorem ofDirective_iff (directive : String) (outcome : Except DirectiveError Repetition) :
    ofDirective directive = outcome ↔ Reads directive.toList outcome := by
  constructor
  · intro read
    obtain ⟨other, reads⟩ := exists_reads directive.toList
    have same : ofDirective directive = other := by
      rw [← reads.ofDirective, String.ofList_toList]
    rwa [← read, same]
  · intro reads
    rw [← reads.ofDirective, String.ofList_toList]

theorem expressible_of_directive (read : ofDirective directive = .ok repetition) :
    repetition.Expressible := by
  have reads := (ofDirective_iff directive _).mp read
  generalize directive.toList = text at reads
  cases reads with
  | any => exact ⟨nofun, Nat.zero_le _, nofun⟩
  | exactly bound positive =>
      refine ⟨?_, bound.le_maxWord, ?_⟩
      · rintro most ⟨⟩
        exact ⟨positive, Nat.le_refl _⟩
      · rintro most ⟨⟩
        exact bound.le_maxWord
  | atLeast lower upper => exact ⟨nofun, lower.le_maxWord, nofun⟩
  | between lower upper positive ordered =>
      refine ⟨?_, lower.le_maxWord, ?_⟩
      · rintro most ⟨⟩
        exact ⟨positive, ordered⟩
      · rintro most ⟨⟩
        exact upper.le_maxWord

theorem sound_of_directive (read : ofDirective directive = .ok repetition) : repetition.Sound :=
  (expressible_of_directive read).sound

theorem ofDirective_directive (expressible : repetition.Expressible) :
    ofDirective repetition.directive = .ok repetition := by
  obtain ⟨min, max⟩ := repetition
  rw [ofDirective_iff]
  have lower := Bound.toDigits expressible.min
  cases max with
  | none => simpa [Repetition.directive, Nat.toList_repr] using Reads.atLeast lower .missing
  | some max =>
      obtain ⟨positive, ordered⟩ := expressible.sound max rfl
      have upper := Bound.toDigits (expressible.max max rfl)
      simpa [Repetition.directive, Nat.toList_repr] using
        Reads.between lower upper positive ordered

/-- The sizes that texts are read as are those that can be met and fit. -/
theorem exists_directive_iff : (∃ directive, ofDirective directive = .ok repetition) ↔
    repetition.Expressible :=
  ⟨fun ⟨_, read⟩ => expressible_of_directive read,
    fun expressible => ⟨_, ofDirective_directive expressible⟩⟩

example : ofDirective " +2 - 04" = .ok ⟨2, some 4⟩ ∧
    ofDirective "2--4" = .error (.notACount "-4") ∧ ofDirective " " = .error (.notACount " ") := by
  decide +kernel

end Repetition
end TokenGrammar
