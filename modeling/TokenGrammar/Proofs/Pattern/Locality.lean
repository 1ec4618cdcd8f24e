import Mathlib.Data.List.TakeWhile
import TokenGrammar.Pattern.Reader
import TokenGrammar.Proofs.Rule.Compile

namespace TokenGrammar.Pattern

/-! What the reader of patterns makes of a text does not depend on what comes after the text. The
one exception is a text that ends in a comment, which takes in what comes after. -/

/-- Whether a text ends inside a comment. -/
def inComment (flags : Flags) : Bool → List Char → Bool
  | comment, [] => comment
  | true, c :: rest => inComment flags (c != '\n') rest
  | false, c :: rest => inComment flags (flags.verbose && c == '#') rest

section Run

variable {flags : Flags} {kind : Char → Bool} {comment : Bool} {text taken rest : List Char}

/-- A run passes over a character, takes it or ends before it, whatever comes after. -/
theorem readRun_cons (flags : Flags) (kind : Char → Bool) (comment : Bool) (c : Char) :
    (∃ inside, ∀ text,
      readRun flags kind comment (c :: text) = readRun flags kind inside text ∧
        inComment flags comment (c :: text) = inComment flags inside text) ∨
    (∀ text,
      readRun flags kind comment (c :: text) =
          (c :: (readRun flags kind false text).1, (readRun flags kind false text).2) ∧
        inComment flags comment (c :: text) = inComment flags false text) ∨
    ∀ text, readRun flags kind comment (c :: text) = ([], c :: text) := by
  cases comment with
  | true => exact .inl ⟨c != '\n', fun text => by simp only [readRun, inComment, and_self]⟩
  | false =>
      by_cases sign : (flags.verbose && c == '#') = true
      · have apart : Text.isSpace c = false := by
          simp only [Bool.and_eq_true, beq_iff_eq] at sign
          rw [sign.2]
          decide
        refine .inl ⟨true, fun text => ?_⟩
        simp only [readRun, inComment, sign, apart, Bool.and_false, if_true]
        simp
      · by_cases space : (flags.verbose && Text.isSpace c) = true
        · refine .inl ⟨false, fun text => ?_⟩
          simp only [readRun, inComment, sign, space, if_true, true_and]
        · by_cases member : kind c = true
          · refine .inr (.inl fun text => ?_)
            simp only [readRun, inComment, sign, space, member, if_true, and_true]
            simp
          · refine .inr (.inr fun text => ?_)
            simp only [readRun, sign, space, member]
            simp

/-- A run that ends before a character ends there whatever comes after. -/
theorem readRun_append (read : readRun flags kind comment text = (taken, rest)) (remains : rest ≠ [])
    (more : List Char) : readRun flags kind comment (text ++ more) = (taken, rest ++ more) := by
  induction text generalizing comment taken rest with
  | nil =>
      rw [readRun] at read
      cases read
      exact absurd rfl remains
  | cons c text ih =>
      rcases readRun_cons flags kind comment c with ⟨inside, passed⟩ | took | ended
      · rw [(passed text).1] at read
        rw [List.cons_append, (passed _).1, ih read remains]
      · rw [(took text).1] at read
        rw [List.cons_append, (took _).1]
        cases read
        rw [ih rfl remains]
      · rw [ended] at read
        rw [List.cons_append, ended]
        cases read
        rfl

/-- A run that ends with its text goes on in what comes after. -/
theorem readRun_append_of_end (read : (readRun flags kind comment text).2 = []) (more : List Char) :
    (readRun flags kind comment (text ++ more)).2 =
      (readRun flags kind (inComment flags comment text) more).2 := by
  induction text generalizing comment with
  | nil => cases comment <;> rfl
  | cons c text ih =>
      rcases readRun_cons flags kind comment c with ⟨inside, passed⟩ | took | ended
      · rw [(passed text).1] at read
        rw [List.cons_append, (passed _).1, (passed text).2, ih read]
      · rw [(took text).1] at read
        rw [List.cons_append, (took _).1, (took text).2, ih read]
      · rw [ended] at read
        cases read

theorem skip_append (remains : flags.skip text ≠ []) (more : List Char) :
    flags.skip (text ++ more) = flags.skip text ++ more :=
  congrArg Prod.snd (readRun_append rfl remains more)

/-- Behind a text that is skipped as a whole, and that leaves no comment open, a bracket counts. -/
theorem skip_append_of_end (ended : flags.skip text = []) (closed : inComment flags false text = false)
    (more : List Char) : flags.skip (text ++ more) = flags.skip more := by
  rw [Flags.skip, readRun_append_of_end ended, closed]
  rfl

theorem skip_bracket (flags : Flags) (more : List Char) : flags.skip (')' :: more) = ')' :: more := by
  have space : Text.isSpace ')' = false := by decide
  simp [Flags.skip, readRun, space]

/-- A comment that is left open takes in a bracket. -/
theorem skip_append_bracket (ended : flags.skip text = []) (opened : inComment flags false text = true) :
    flags.skip (text ++ [')']) = [] := by
  rw [Flags.skip, readRun_append_of_end ended, opened]
  rfl

end Run

/-! The parts that the reader reads as a whole are read alike with more text behind them. -/

section Parts

variable {flags : Flags} {text taken rest : List Char}

theorem readCharacters_append {count : Nat}
    (read : readCharacters flags count text = some (taken, rest)) (more : List Char) :
    readCharacters flags count (text ++ more) = some (taken, rest ++ more) := by
  induction count generalizing text taken with
  | zero =>
      cases read
      rfl
  | succ count ih =>
      rw [readCharacters] at read ⊢
      cases counted : flags.skip text with
      | nil => simp [counted] at read
      | cons c tail =>
          rw [skip_append (by simp [counted]), counted]
          simp only [counted, Option.bind_eq_bind, Option.bind_eq_some_iff] at read
          obtain ⟨⟨others, after⟩, found, same⟩ := read
          cases same
          simp [ih found]

theorem readBraced_append (read : readBraced flags text = some (taken, rest)) (more : List Char) :
    readBraced flags (text ++ more) = some (taken, rest ++ more) := by
  rw [readBraced] at read ⊢
  split at read
  · rename_i run
    cases read
    rw [readRun_append run (by simp)]
    rfl
  · cases read

theorem readCodePoint_append {width : Nat} (wide : width ≠ 0)
    (read : readCodePoint flags width text = some (taken, rest)) (more : List Char) :
    readCodePoint flags width (text ++ more) = some (taken, rest ++ more) := by
  rw [readCodePoint] at read ⊢
  cases counted : flags.skip text with
  | nil =>
      obtain ⟨less, rfl⟩ := Nat.exists_eq_succ_of_ne_zero wide
      rw [counted] at read
      cases read
  | cons c tail =>
      rw [counted] at read
      rw [skip_append (by simp [counted]), counted, List.cons_append]
      by_cases brace : c = '{'
      · subst brace
        exact readBraced_append read more
      · simp [brace] at read ⊢
        exact readCharacters_append read more

theorem readHex_append {width : Nat} (wide : width ≠ 0)
    (read : readHex flags width text = .ok (value, rest)) (more : List Char) :
    readHex flags width (text ++ more) = .ok (value, rest ++ more) := by
  rw [readHex] at read ⊢
  cases found : readCodePoint flags width text with
  | none =>
      rw [found] at read
      cases read
  | some result =>
      obtain ⟨digits, after⟩ := result
      rw [found] at read
      rw [readCodePoint_append wide found]
      obtain ⟨c, valid, same⟩ := Except.ok_of_bind_ok read
      cases same
      simp only [valid]
      rfl

theorem codePointWidth_ne_zero {c : Char} (found : codePointWidth? c = some width) : width ≠ 0 := by
  unfold codePointWidth? at found
  split at found <;> cases found <;> decide

theorem readEscape_append (read : readEscape flags text = .ok (value, rest)) (more : List Char) :
    readEscape flags (text ++ more) = .ok (value, rest ++ more) := by
  cases text with
  | nil => cases read
  | cons c tail =>
      rw [List.cons_append]
      rw [readEscape] at read ⊢
      cases wide : codePointWidth? c with
      | some width =>
          simp only [wide] at read ⊢
          obtain ⟨⟨d, after⟩, found, same⟩ := Except.ok_of_bind_ok read
          cases same
          rw [readHex_append (codePointWidth_ne_zero wide) found]
          rfl
      | none =>
          simp only [wide] at read ⊢
          cases meaning : Escape.ofCharacter? c with
          | some escape =>
              simp only [meaning] at read ⊢
              cases read
              rfl
          | none =>
              simp only [meaning] at read
              cases read

theorem readClassAtom_append (read : readClassAtom flags text = .ok (value, rest))
    (more : List Char) : readClassAtom flags (text ++ more) = .ok (value, rest ++ more) := by
  cases text with
  | nil => cases read
  | cons c tail =>
      rw [List.cons_append]
      by_cases escape : c = '\\'
      · subst escape
        exact readEscape_append read more
      · simp only [readClassAtom] at read ⊢
        cases read
        rfl

end Parts

section Classes
variable {flags : Flags} {text taken rest tail : List Char}

theorem skip_of_plain (plain : flags.verbose = false) (text : List Char) : flags.skip text = text := by
  cases text with
  | nil => rfl
  | cons c tail => simp [Flags.skip, readRun, plain]

theorem isSpace_sign : Text.isSpace '#' = false := by decide

theorem readRun_of_ignored (verbose : flags.verbose = true) {kind : Char → Bool}
    (ignored : ∀ c ∈ text, Text.isSpace c = true ∨ c = '#') (comment : Bool) :
    (readRun flags kind comment text).2 = [] := by
  induction text generalizing comment with
  | nil => cases comment <;> rfl
  | cons c tail ih =>
      have later := ih fun d member => ignored d (by simp [member])
      cases comment with
      | true => exact later _
      | false =>
          rcases ignored c (by simp) with space | rfl
          · simp [readRun, verbose, space, later]
          · simp [readRun, verbose, isSpace_sign, later]

/-! The character after a hyphen is one of the text, and stays the same with more text behind. -/

theorem dropWhile_append_of_cons {p : Char → Bool} (dropped : text.dropWhile p = c :: tail)
    (more : List Char) : (text ++ more).dropWhile p = c :: (tail ++ more) := by
  simp [List.dropWhile_append, dropped]

theorem takeWhile_append_of_cons {p : Char → Bool} (dropped : text.dropWhile p = c :: tail)
    (more : List Char) : (text ++ more).takeWhile p = text.takeWhile p := by
  induction text with
  | nil => cases dropped
  | cons d text ih =>
      by_cases member : p d = true
      · simp only [List.dropWhile_cons, member, if_true] at dropped
        simp [member, ih dropped]
      · simp [member]

theorem characterAhead_of_skip (remains : flags.skip text ≠ []) :
    ∃ c, characterAhead? flags text = some c := by
  cases verbose : flags.verbose with
  | false =>
      rw [skip_of_plain verbose] at remains
      obtain ⟨c, tail, rfl⟩ := List.exists_cons_of_ne_nil remains
      exact ⟨c, by simp [characterAhead?, verbose]⟩
  | true =>
      rw [← Option.ne_none_iff_exists']
      intro none
      simp only [characterAhead?, verbose, if_true] at none
      refine remains (readRun_of_ignored verbose (fun c member => ?_) false)
      rw [← List.takeWhile_append_dropWhile (p := Text.isSpace) (l := text)] at member
      rcases List.mem_append.mp member with space | later
      · exact .inl (List.mem_takeWhile_imp space)
      · cases dropped : text.dropWhile Text.isSpace with
        | nil => simp [dropped] at later
        | cons d tail =>
            rw [dropped] at none later
            by_cases sign : d = '#'
            · subst sign
              rcases List.mem_cons.mp later with same | inside
              · exact .inr same
              · exact .inl (List.dropWhile_eq_nil_iff.mp (List.head?_eq_none_iff.mp none) c inside)
            · simp [sign] at none

theorem characterAhead_append (found : characterAhead? flags text = some c) (more : List Char) :
    characterAhead? flags (text ++ more) = some c := by
  unfold characterAhead? at found ⊢
  cases verbose : flags.verbose with
  | false =>
      simp only [verbose, Bool.false_eq_true, if_false] at found ⊢
      cases text with
      | nil => cases found
      | cons d tail => exact found
  | true =>
      simp only [verbose, if_true] at found ⊢
      cases dropped : text.dropWhile Text.isSpace with
      | nil => simp [dropped] at found
      | cons d tail =>
          rw [dropped] at found
          rw [dropWhile_append_of_cons dropped]
          by_cases sign : d = '#'
          · subst sign
            cases inside : tail.dropWhile Text.isSpace with
            | nil => simp [inside] at found
            | cons e rest =>
                simp only [inside] at found
                simp only [dropWhile_append_of_cons inside]
                exact found
          · simp [sign] at found ⊢
            exact found

theorem afterRangeHyphen_append (remains : flags.skip text ≠ [])
    (single : afterRangeHyphen? flags text = none) (more : List Char) :
    afterRangeHyphen? flags (text ++ more) = none := by
  unfold afterRangeHyphen? at single ⊢
  rw [skip_append remains]
  cases counted : flags.skip text with
  | nil => exact absurd counted remains
  | cons c tail =>
      rw [counted] at single
      rw [List.cons_append]
      by_cases hyphen : c = '-'
      · subst hyphen
        change (if _ then _ else _) = _ at single ⊢
        split at single
        · rename_i closing
          obtain ⟨ahead, found⟩ : ∃ ahead, characterAhead? flags tail = some ahead := by
            rcases closing with found | found <;> exact ⟨_, found⟩
          rw [found] at closing
          rw [characterAhead_append found, if_pos closing]
        · cases single
      · simp [hyphen]

theorem afterRangeHyphen_append_of_some (found : afterRangeHyphen? flags text = some tail)
    (remains : tail ≠ []) (more : List Char) :
    afterRangeHyphen? flags (text ++ more) = some (tail ++ more) := by
  unfold afterRangeHyphen? at found ⊢
  cases counted : flags.skip text with
  | nil => simp [counted] at found
  | cons c after =>
      rw [counted] at found
      rw [skip_append (by simp [counted]), counted, List.cons_append]
      by_cases hyphen : c = '-'
      · subst hyphen
        change (if _ then _ else _) = _ at found ⊢
        split at found
        · cases found
        · rename_i opening
          cases found
          obtain ⟨ahead, same⟩ := characterAhead_of_skip remains
          rw [same] at opening
          rw [characterAhead_append same, if_neg opening, skip_append remains]
      · simp [hyphen] at found

theorem readClassMember_append (read : readClassMember flags text = .ok (value, rest))
    (remains : flags.skip rest ≠ []) (more : List Char) :
    readClassMember flags (text ++ more) = .ok (value, rest ++ more) := by
  unfold readClassMember at read ⊢
  obtain ⟨⟨first, after⟩, atom, read⟩ := Except.ok_of_bind_ok read
  rw [readClassAtom_append atom]
  simp only [Bind.bind, Except.bind] at read ⊢
  cases ranged : afterRangeHyphen? flags after with
  | none =>
      rw [ranged] at read
      cases first with
      | anchor => cases read
      | set set =>
          cases read
          rw [afterRangeHyphen_append remains ranged]
          rfl
      | character c =>
          cases read
          rw [afterRangeHyphen_append remains ranged]
          rfl
  | some tail =>
      rw [ranged] at read
      cases first with
      | anchor | set => cases read
      | character low =>
          simp only at read
          cases last : readClassAtom flags tail with
          | error error => simp [last] at read
          | ok result =>
              obtain ⟨second, beyond⟩ := result
              have present : tail ≠ [] := by
                intro none
                rw [none] at last
                cases last
              rw [afterRangeHyphen_append_of_some ranged present]
              simp only [readClassAtom_append last]
              simp only [last] at read
              cases second with
              | anchor | set => cases read
              | character high =>
                  simp only at read ⊢
                  split at read
                  · cases read
                    rename_i ordered
                    rw [if_pos ordered]
                    rfl
                  · cases read


theorem beginsClass_append (long : 2 ≤ text.length) (more : List Char) :
    beginsClass (text ++ more) = beginsClass text := by
  obtain ⟨c, d, tail, rfl⟩ : ∃ c d tail, text = c :: d :: tail := by
    match text, long with
    | c :: d :: tail, _ => exact ⟨c, d, tail, rfl⟩
  simp only [List.cons_append]
  unfold beginsClass
  split <;> simp_all

theorem readClassMember_single {c : Char} (read : readClassMember flags [c] = .ok (value, rest)) :
    rest = [] := by
  unfold readClassMember at read
  obtain ⟨⟨first, after⟩, atom, read⟩ := Except.ok_of_bind_ok read
  have none : after = [] := by
    by_cases escape : c = '\\'
    · subst escape
      cases atom
    · simp only [readClassAtom] at atom
      cases atom
      rfl
  subst none
  cases first <;> cases read <;> rfl

theorem readClassMembers_cons {bound : Nat} {set : CharSet} (counted : flags.skip text = c :: tail)
    (further : c ≠ ']') :
    readClassMembers flags (bound + 1) set text =
      if beginsClass (c :: tail) then .error .unsupported
      else (do
        let (member, rest) ← readClassMember flags (c :: tail)
        readClassMembers flags bound (.union set member) rest) := by
  rw [readClassMembers, counted]
  split
  · rename_i same
    cases same
  · rename_i same
    cases same
    exact absurd rfl further
  · rfl

/-- The members of a class end with a character, its bracket. -/
theorem skip_of_readClassMembers {bound : Nat} {set : CharSet}
    (read : readClassMembers flags bound set text = .ok (value, rest)) : flags.skip text ≠ [] := by
  intro none
  cases bound with
  | zero => cases read
  | succ bound =>
      rw [readClassMembers, none] at read
      cases read

theorem readClassMembers_append {bound larger : Nat} {set : CharSet}
    (read : readClassMembers flags bound set text = .ok (value, rest)) (enough : bound ≤ larger)
    (more : List Char) :
    readClassMembers flags larger set (text ++ more) = .ok (value, rest ++ more) := by
  induction bound generalizing larger set text with
  | zero => cases read
  | succ bound ih =>
      obtain ⟨less, rfl⟩ : ∃ less, larger = less + 1 := ⟨larger - 1, by omega⟩
      obtain ⟨c, tail, counted⟩ := List.exists_cons_of_ne_nil (skip_of_readClassMembers read)
      have countedToo : flags.skip (text ++ more) = c :: (tail ++ more) := by
        rw [skip_append (by simp [counted]), counted, List.cons_append]
      by_cases bracket : c = ']'
      · subst bracket
        rw [readClassMembers, counted] at read
        rw [readClassMembers, countedToo]
        cases read
        rfl
      · rw [readClassMembers_cons counted bracket] at read
        rw [readClassMembers_cons countedToo bracket]
        split at read
        · cases read
        · rename_i plain
          obtain ⟨⟨member, after⟩, first, others⟩ := Except.ok_of_bind_ok read
          have remains := skip_of_readClassMembers others
          have present : tail ≠ [] := by
            intro none
            subst none
            rw [readClassMember_single first] at remains
            exact remains rfl
          have long : 2 ≤ (c :: tail).length := by
            have some := List.length_pos_iff.mpr present
            simp only [List.length_cons]
            omega
          rw [← List.cons_append, beginsClass_append long, if_neg plain,
            readClassMember_append first remains]
          exact ih others (by omega)

theorem readCaret_append (present : text ≠ []) (more : List Char) :
    readCaret (text ++ more) = ((readCaret text).1, (readCaret text).2 ++ more) := by
  obtain ⟨c, tail, rfl⟩ := List.exists_cons_of_ne_nil present
  rw [List.cons_append]
  by_cases caret : c = '^'
  · subst caret
    rfl
  · simp [readCaret, caret]

theorem readClassStart_append {set : CharSet} (read : readClassStart flags text = (set, rest))
    (remains : rest ≠ []) (more : List Char) :
    readClassStart flags (text ++ more) = (set, rest ++ more) := by
  unfold readClassStart at read ⊢
  cases run : readRun flags (· == '-') false text with
  | mk hyphens after =>
      rw [run] at read
      have present : after ≠ [] := by
        intro none
        subst none
        cases hyphens <;> cases read <;> exact remains rfl
      rw [readRun_append run present]
      obtain ⟨c, tail, rfl⟩ := List.exists_cons_of_ne_nil present
      rw [List.cons_append]
      cases hyphens with
      | nil =>
          by_cases bracket : c = ']'
          · subst bracket
            cases read
            rfl
          · simp [bracket] at read ⊢
            rw [← read.1, ← read.2]
            exact ⟨rfl, rfl⟩
      | cons =>
          cases read
          rfl

theorem readClass_append (read : readClass flags text = .ok (value, rest)) (more : List Char) :
    readClass flags (text ++ more) = .ok (value, rest ++ more) := by
  unfold readClass at read ⊢
  cases caret : readCaret (flags.skip text) with
  | mk negated inside =>
      cases start : readClassStart flags inside with
      | mk set after =>
          simp only [caret, start] at read
          obtain ⟨⟨members, beyond⟩, found, same⟩ := Except.ok_of_bind_ok read
          have begun : after ≠ [] := by
            intro none
            exact skip_of_readClassMembers found (by rw [none]; rfl)
          have present : flags.skip text ≠ [] := by
            intro none
            rw [none] at caret
            cases caret
            cases start
            exact begun rfl
          have larger : after.length + 1 ≤ (after ++ more).length + 1 := by simp
          rw [skip_append present, readCaret_append present, caret]
          simp only [readClassStart_append start begun]
          rw [readClassMembers_append found larger]
          cases same
          rfl

end Classes

section Bounds

variable {flags : Flags} {text rest : List Char}

theorem readCount_append (read : readCount flags text = (count, rest)) (remains : rest ≠ [])
    (more : List Char) : readCount flags (text ++ more) = (count, rest ++ more) := by
  unfold readCount at read ⊢
  cases run : readRun flags Char.isDigit false (text.dropWhile Text.isSpace) with
  | mk digits after =>
      rw [run] at read
      obtain ⟨c, tail, dropped⟩ : ∃ c tail, after.dropWhile Text.isSpace = c :: tail := by
        refine List.exists_cons_of_ne_nil fun none => ?_
        cases read
        exact remains none
      have present : after ≠ [] := by
        intro none
        simp [none] at dropped
      obtain ⟨d, others, spaces⟩ : ∃ d others, text.dropWhile Text.isSpace = d :: others := by
        refine List.exists_cons_of_ne_nil fun none => ?_
        rw [none] at run
        cases run
        exact present rfl
      have ran := readRun_append run present more
      rw [spaces, List.cons_append] at ran
      rw [dropWhile_append_of_cons spaces, ran]
      cases read
      simp only [dropWhile_append_of_cons dropped, dropped, List.cons_append]

theorem readMaximum_append {min : Nat} (read : readMaximum flags min text = .ok (value, rest))
    (more : List Char) : readMaximum flags min (text ++ more) = .ok (value, rest ++ more) := by
  unfold readMaximum at read ⊢
  obtain ⟨c, tail, counted⟩ : ∃ c tail, flags.skip text = c :: tail := by
    refine List.exists_cons_of_ne_nil fun none => ?_
    rw [none] at read
    cases read
  rw [skip_append (by simp [counted]), counted, List.cons_append]
  rw [counted] at read
  by_cases brace : c = '}'
  · subst brace
    cases read
    rfl
  · simp only [List.cons.injEq, brace, false_and, imp_self, implies_true] at read ⊢
    split at read
    · rename_i found
      rw [← List.cons_append, readCount_append found (by simp)]
      split at read
      · rename_i ordered
        cases read
        exact if_pos ordered
      · cases read
    · cases read

theorem readBounds_append (read : readBounds flags text = .ok (value, rest)) (more : List Char) :
    readBounds flags (text ++ more) = .ok (value, rest ++ more) := by
  unfold readBounds at read ⊢
  split at read
  · rename_i found
    rw [readCount_append found (by simp)]
    cases read
    rfl
  · rename_i found
    rw [readCount_append found (by simp)]
    exact readMaximum_append read more
  · cases read

theorem readName_append (read : readName text = .ok (value, rest)) (more : List Char) :
    readName (text ++ more) = .ok (value, rest ++ more) := by
  unfold readName at read ⊢
  cases dropped : text.dropWhile (· != '>') with
  | nil => simp [dropped] at read
  | cons c tail =>
      rw [takeWhile_append_of_cons dropped, dropWhile_append_of_cons dropped]
      cases name : text.takeWhile (· != '>') with
      | nil => simp [name] at read
      | cons first others =>
          simp only [name, dropped] at read ⊢
          split at read
          · rename_i valid
            cases read
            rw [if_pos valid]
          · cases read

end Bounds
end TokenGrammar.Pattern
