import Mathlib.Data.List.TakeWhile
import TokenGrammar.Pattern.Basic
import TokenGrammar.Text.Bytes

namespace TokenGrammar

/-! Matches of single characters, one after the other: of words, and of runs as long as they can
be. -/

namespace Spot

/-- The place after some characters. -/
def past (spot : Spot) : List Char → Spot
  | [] => spot
  | c :: taken => past ⟨some c, spot.rest.tail, spot.bytes + c.utf8Size, spot.names⟩ taken

theorem past_append (spot : Spot) (taken more : List Char) :
    spot.past (taken ++ more) = (spot.past taken).past more := by
  induction taken generalizing spot with
  | nil => rfl
  | cons c taken ih => exact ih _

theorem past_rest {spot : Spot} (text : spot.rest = taken ++ left) : (spot.past taken).rest = left := by
  induction taken generalizing spot with
  | nil => exact text
  | cons c taken ih => exact ih (by rw [text]; rfl)

theorem past_bytes (spot : Spot) (taken : List Char) :
    (spot.past taken).bytes = spot.bytes + Text.byteLength taken := by
  induction taken generalizing spot with
  | nil => rfl
  | cons c taken ih => rw [past, ih, Text.byteLength, Nat.add_assoc]

end Spot

namespace Pattern

variable {set : CharSet} {spot : Spot} {next : Spot → Option Spot}

theorem one_matches (text : spot.rest = c :: left) (member : set.contains c = true) :
    (one set).matcher spot next = next (spot.past [c]) := by
  obtain ⟨before, rest, bytes, names⟩ := spot
  cases text
  simp [matcher, member, Spot.next?, Spot.past]

theorem one_fails (text : ∀ c, spot.rest.head? = some c → set.contains c = false) :
    (one set).matcher spot next = none := by
  cases first : spot.rest.head? with
  | none => simp [matcher, first]
  | some c => simp [matcher, first, text c first]

/-- A pattern of certain characters. -/
def word (characters : List Char) : Pattern := chain (characters.map fun c => one (.one c))

theorem word_cons (c : Char) (characters : List Char) :
    (word (c :: characters)).matcher spot next =
      (one (.one c)).matcher spot fun middle => (word characters).matcher middle next := by
  cases characters with
  | nil => rfl
  | cons => rfl

theorem word_matches {characters : List Char} (text : spot.rest = characters ++ left) :
    (word characters).matcher spot next = next (spot.past characters) := by
  induction characters generalizing spot with
  | nil => rfl
  | cons c characters ih =>
      rw [word_cons, one_matches text (by simp [CharSet.contains_one]), ih (Spot.past_rest text)]
      rfl

theorem of_word {characters : List Char} (matched : (word characters).matcher spot next = some last) :
    ∃ left, spot.rest = characters ++ left ∧ next (spot.past characters) = some last := by
  induction characters generalizing spot with
  | nil => exact ⟨_, rfl, matched⟩
  | cons c characters ih =>
      rw [word_cons] at matched
      cases text : spot.rest with
      | nil =>
          rw [one_fails (by simp [text])] at matched
          cases matched
      | cons d rest =>
          by_cases same : c = d
          · subst same
            rw [one_matches text (by simp [CharSet.contains_one])] at matched
            obtain ⟨left, split, matched⟩ := ih matched
            rw [Spot.past_rest (text : spot.rest = [c] ++ rest)] at split
            exact ⟨left, by rw [split]; rfl, matched⟩
          · rw [one_fails (by simp [text, CharSet.contains_one, same])] at matched
            cases matched

/-- The longest run of members of a set at a place. -/
def run (set : CharSet) (spot : Spot) : List Char := spot.rest.takeWhile set.contains

/-- What comes after a run is found at its end, or could only be found there. -/
def EndsRun (set : CharSet) (spot : Spot) (next : Spot → Option Spot) : Prop :=
  (next (spot.past (run set spot))).isSome = true ∨
    ∀ (spot : Spot) (c : Char), spot.rest.head? = some c → set.contains c = true → next spot = none

theorem rest_run (set : CharSet) (spot : Spot) :
    spot.rest = run set spot ++ (spot.past (run set spot)).rest := by
  have split : spot.rest = run set spot ++ spot.rest.dropWhile set.contains :=
    List.takeWhile_append_dropWhile.symm
  rw [Spot.past_rest split]
  exact split

theorem run_append {taken rest : List Char} (all : ∀ c ∈ taken, set.contains c = true)
    (stops : ∀ c, rest.head? = some c → set.contains c = false) (text : spot.rest = taken ++ rest) :
    run set spot = taken := by
  rw [run, text, List.takeWhile_append_of_pos all]
  cases rest with
  | nil => simp
  | cons c rest => simp [stops c rfl]

theorem mem_run (member : c ∈ run set spot) : set.contains c = true := List.mem_takeWhile_imp member

theorem run_cons (text : spot.rest = c :: rest) (member : set.contains c = true) :
    run set spot = c :: run set (spot.past [c]) := by
  have rest_eq : (spot.past [c]).rest = rest := Spot.past_rest text
  simp [run, text, rest_eq, member]

theorem past_run_cons (text : spot.rest = c :: rest) (member : set.contains c = true) :
    spot.past (run set spot) = (spot.past [c]).past (run set (spot.past [c])) := by
  rw [run_cons text member]
  rfl

theorem EndsRun.tail (ends : EndsRun set spot next) (text : spot.rest = c :: rest)
    (member : set.contains c = true) : EndsRun set (spot.past [c]) next := by
  rw [EndsRun, past_run_cons text member] at ends
  exact ends

theorem more_run (ends : EndsRun set spot next) (enough : (run set spot).length ≤ steps) :
    Matcher.more (one set).matcher true steps spot next = next (spot.past (run set spot)) := by
  induction steps generalizing spot with
  | zero =>
      have none : run set spot = [] := List.length_eq_zero_iff.mp (Nat.le_zero.mp enough)
      rw [none]
      rfl
  | succ steps ih =>
      cases text : spot.rest with
      | nil =>
          have fails {next : Spot → Option Spot} : (one set).matcher spot next = none :=
            one_fails (by simp [text])
          simp [Matcher.more, fails, run, text, Spot.past]
      | cons c rest =>
          cases member : set.contains c with
          | false =>
              have fails {next : Spot → Option Spot} : (one set).matcher spot next = none :=
                one_fails (by simp [text, member])
              simp [Matcher.more, fails, run, text, member, Spot.past]
          | true =>
              have rest_eq : (spot.past [c]).rest = rest := Spot.past_rest text
              have shorter : (spot.past [c]).rest.length < spot.rest.length := by
                simp [rest_eq, text]
              rw [run_cons text member, List.length_cons] at enough
              have further := ih (ends.tail text member) (by omega)
              simp only [Matcher.more, if_true, one_matches text member, if_pos shorter, further]
              rw [past_run_cons text member]
              rcases ends with found | nowhere
              · rw [past_run_cons text member] at found
                obtain ⟨last, found⟩ := Option.isSome_iff_exists.mp found
                simp [found]
              · simp [nowhere spot c (by simp [text]) member]

theorem plus_matches (ends : EndsRun set spot next) :
    (repeated true 1 none (one set)).matcher spot next =
      if run set spot = [] then none else next (spot.past (run set spot)) := by
  have whole : (repeated true 1 none (one set)).matcher spot next =
      Matcher.plus (one set).matcher true spot next := rfl
  rw [whole, Matcher.plus]
  cases text : spot.rest with
  | nil => rw [one_fails (by simp [text]), if_pos (by simp [run, text])]
  | cons c rest =>
      cases member : set.contains c with
      | false => rw [one_fails (by simp [text, member]), if_pos (by simp [run, text, member])]
      | true =>
          have rest_eq : (spot.past [c]).rest = rest := Spot.past_rest text
          have shorter : (spot.past [c]).rest.length < (c :: rest).length := by simp [rest_eq]
          rw [one_matches text member, if_pos shorter,
            more_run (ends.tail text member) (List.takeWhile_sublist ..).length_le,
            run_cons text member, if_neg (by simp)]
          rfl

theorem star_matches (ends : EndsRun set spot next) :
    (repeated true 0 none (one set)).matcher spot next = next (spot.past (run set spot)) := by
  have whole : (repeated true 0 none (one set)).matcher spot next =
      ((repeated true 1 none (one set)).matcher spot next <|> next spot) := rfl
  rw [whole, plus_matches ends]
  split
  · rename_i none
    rw [none]
    rfl
  · rename_i some
    obtain ⟨c, rest, taken⟩ := List.exists_cons_of_ne_nil some
    rcases ends with found | nowhere
    · obtain ⟨last, found⟩ := Option.isSome_iff_exists.mp found
      simp [found]
    · have first : c ∈ run set spot := by simp [taken]
      have member : set.contains c = true := mem_run first
      have head : spot.rest.head? = Option.some c := by
        rw [rest_run set spot, taken]
        rfl
      simp [nowhere spot c head member]

/-- An optional part is left out only where it does not match. -/
theorem optional_matcher (body : Pattern) :
    (repeated true 0 (some 1) body).matcher spot next = (body.matcher spot next <|> next spot) := rfl

end Pattern
end TokenGrammar
