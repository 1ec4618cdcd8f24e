import TokenGrammar.Proofs.Pattern.Naming

namespace TokenGrammar.Pattern

/-! A pattern is read inside a group as it is read by itself, unless it leaves a comment open. -/

theorem nameAhead_append {text named : List Char} (ahead : nameAhead? text = some named)
    (more : List Char) : nameAhead? (text ++ more) = some (named ++ more) := by
  unfold nameAhead? at ahead
  split at ahead <;> cases ahead <;> rfl

theorem nameAhead_append_of_none {text : List Char} (ahead : nameAhead? text = none)
    (long : text ≠ [] ∧ text ≠ ['P']) (more : List Char) : nameAhead? (text ++ more) = none := by
  obtain ⟨c, tail, rfl⟩ := List.exists_cons_of_ne_nil long.1
  by_cases angle : c = '<'
  · subst angle
    cases ahead
  · by_cases letter : c = 'P'
    · subst letter
      obtain ⟨d, others, rfl⟩ := List.exists_cons_of_ne_nil (by simpa using long.2 : tail ≠ [])
      by_cases angle : d = '<'
      · subst angle
        cases ahead
      · simp [nameAhead?, angle]
    · simp [nameAhead?, angle, letter]

theorem readMark_of_other {ahead : List Char} (other : ∀ tail, ahead ≠ '?' :: tail)
    (text : List Char) : readMark ahead text = (false, text) := by
  unfold readMark
  split
  · exact absurd rfl (other _)
  · rfl

/-- A mark is looked for in a text, and in what comes after only if the text is over. -/
theorem readMark_append {ahead later : List Char} (text more : List Char)
    (remains : ahead ≠ [] → later = ahead ++ more) (ended : ahead = [] → ∀ tail, later ≠ '?' :: tail) :
    readMark later (text ++ more) = ((readMark ahead text).1, (readMark ahead text).2 ++ more) := by
  cases ahead with
  | nil => exact readMark_of_other (ended rfl) _
  | cons c tail =>
      rw [remains (by simp), List.cons_append]
      by_cases mark : c = '?'
      · subst mark
        rfl
      · simp [readMark, mark]

/-- The open groups of a pattern that is read by itself, and the same groups where the pattern
stands inside another group: its outermost group is that group there. -/
inductive Nested (name : Option String) (outer : List Group) :
    Group → List Group → Group → List Group → Prop
  | outermost {branches items : List Pattern} :
      Nested name outer ⟨none, {}, branches, items⟩ [] ⟨name, {}, branches, items⟩ outer
  | inner {group : Group} (nested : Nested name outer own around placed placedAround) :
      Nested name outer group (own :: around) group (placed :: placedAround)

namespace Nested

variable {name : Option String} {outer around placedAround : List Group} {own placed : Group}

theorem items (nested : Nested name outer own around placed placedAround) :
    placed.items = own.items := by
  cases nested <;> rfl

theorem setItems (nested : Nested name outer own around placed placedAround)
    (items : List Pattern) :
    Nested name outer { own with items } around { placed with items } placedAround := by
  cases nested with
  | outermost => exact .outermost
  | inner nested => exact .inner nested

theorem push (nested : Nested name outer own around placed placedAround) (item : Pattern) :
    Nested name outer (own.push item) around (placed.push item) placedAround := by
  unfold Group.push
  rw [nested.items]
  exact nested.setItems _

theorem endBranch (nested : Nested name outer own around placed placedAround) :
    Nested name outer own.endBranch around placed.endBranch placedAround := by
  cases nested with
  | outermost => exact .outermost
  | inner nested => exact .inner nested

/-- What the group is once the pattern in it has been read. -/
theorem settled (nested : Nested name outer own [] placed placedAround) :
    placedAround = outer ∧ placed.outer = {} ∧
      placed.pattern = name.elim own.pattern (named · own.pattern) := by
  cases nested with
  | outermost => cases name <;> exact ⟨rfl, rfl, rfl⟩

theorem around_ne_nil (nested : Nested name outer own around placed placedAround)
    (present : outer ≠ []) : placedAround ≠ [] := by
  cases nested with
  | outermost => exact present
  | inner nested => simp

end Nested

namespace Reader

/-- A reader of a pattern by itself, and one that reads it inside a group, with groups around that
and names that have occurred before. -/
structure PlacedIn (name : Option String) (outer : List Group) (names : List String)
    (own placed : Reader) : Prop where
  groups : Nested name outer own.group own.around placed.group placed.around
  flags : placed.flags = own.flags
  names : placed.names = own.names ++ names
  repeatable : placed.repeatable = own.repeatable

namespace PlacedIn

variable {name : Option String} {outer : List Group} {names : List String} {own placed : Reader}

theorem push (placing : PlacedIn name outer names own placed) (item : Pattern) :
    PlacedIn name outer names (own.push item) (placed.push item) :=
  ⟨placing.groups.push item, placing.flags, placing.names, rfl⟩

theorem literal (placing : PlacedIn name outer names own placed) (c : Char) :
    PlacedIn name outer names (own.literal c) (placed.literal c) := by
  unfold Reader.literal
  rw [placing.flags]
  exact placing.push _

theorem endBranch (placing : PlacedIn name outer names own placed) :
    PlacedIn name outer names own.endBranch placed.endBranch :=
  ⟨placing.groups.endBranch, placing.flags, placing.names, rfl⟩

theorem openGroup (placing : PlacedIn name outer names own placed) (inner : Option String)
    (flags : Flags) :
    PlacedIn name outer names (own.openGroup inner flags) (placed.openGroup inner flags) := by
  refine ⟨?_, rfl, placing.names, rfl⟩
  unfold Reader.openGroup
  rw [placing.flags]
  exact .inner placing.groups

theorem openNamed (placing : PlacedIn name outer names own placed) {inner : String}
    (read : own.openNamed inner = .ok next) (accepted : placed.openNamed inner = .ok other) :
    PlacedIn name outer names next other := by
  unfold Reader.openNamed at read accepted
  split at read
  · cases read
  · split at accepted
    · cases accepted
    · cases read
      cases accepted
      have opened := placing.openGroup (some inner) own.flags
      refine ⟨?_, ?_, ?_, rfl⟩
      · rw [placing.flags]
        exact opened.groups
      · exact placing.flags
      · simp [placing.names]

theorem closeGroup (placing : PlacedIn name outer names own placed)
    (read : own.closeGroup = .ok next) :
    ∃ other, placed.closeGroup = .ok other ∧ PlacedIn name outer names next other := by
  obtain ⟨group, around, flags, ownNames, repeatable⟩ := own
  obtain ⟨placedGroup, placedAround, placedFlags, placedNames, placedRepeatable⟩ := placed
  obtain ⟨groups, sameFlags, sameNames, _⟩ := placing
  simp only at groups sameFlags sameNames
  cases groups with
  | outermost => cases read
  | inner nested =>
      cases read
      exact ⟨_, rfl, nested.push _, rfl, sameNames, rfl⟩

theorem repeatLast (placing : PlacedIn name outer names own placed) {min : Nat} {max : Option Nat}
    {swapped : Bool} {text rest : List Char}
    (read : own.repeatLast min max (swapped, text) = .ok (next, rest)) (more : List Char) :
    rest = text ∧ next.flags = own.flags ∧
      ∃ other, placed.repeatLast min max (swapped, text ++ more) = .ok (other, rest ++ more) ∧
        PlacedIn name outer names next other := by
  unfold Reader.repeatLast at read ⊢
  split at read
  · rename_i item items able listed
    cases read
    let greedy := swapped == own.flags.lazyFirst
    let groups := placing.groups.setItems (.repeated greedy min max item :: items)
    refine ⟨rfl, rfl, { placed with group := { placed.group with
      items := .repeated greedy min max item :: items } }, ?_,
      groups, placing.flags, placing.names, placing.repeatable⟩
    simp only [placing.repeatable, placing.groups.items, able, listed, placing.flags]
    rfl
  · cases read

theorem flagged (placing : PlacedIn name outer names own placed) {text rest : List Char}
    (read : own.flagged text = .ok (next, rest)) (more : List Char) :
    ∃ other, placed.flagged (text ++ more) = .ok (other, rest ++ more) ∧
      PlacedIn name outer names next other := by
  unfold Reader.flagged at read ⊢
  split at read
  · rename_i dropped
    simp only [dropWhile_append_of_cons dropped, takeWhile_append_of_cons dropped, placing.flags]
    obtain ⟨flags, valid, same⟩ := Except.ok_of_bind_ok read
    cases same
    rw [valid]
    exact ⟨_, rfl, placing.openGroup none flags⟩
  · rename_i dropped
    simp only [dropWhile_append_of_cons dropped, takeWhile_append_of_cons dropped, placing.flags]
    obtain ⟨flags, valid, same⟩ := Except.ok_of_bind_ok read
    cases same
    rw [valid]
    exact ⟨_, rfl, placing.groups, rfl, placing.names, rfl⟩
  · cases read

theorem special (placing : PlacedIn name outer names own placed) {text rest more : List Char}
    (read : own.special text = .ok (next, rest))
    (accepted : placed.special (text ++ more) = .ok (other, beyond)) :
    PlacedIn name outer names next other ∧ beyond = rest ++ more := by
  unfold Reader.special at read accepted
  cases ahead : nameAhead? text with
  | some named =>
      rw [ahead] at read
      rw [nameAhead_append ahead] at accepted
      obtain ⟨⟨inner, after⟩, found, read⟩ := Except.ok_of_bind_ok read
      obtain ⟨⟨innerToo, afterToo⟩, foundToo, accepted⟩ := Except.ok_of_bind_ok accepted
      cases (readName_append found more).symm.trans foundToo
      obtain ⟨opened, first, same⟩ := Except.ok_of_bind_ok read
      obtain ⟨openedToo, firstToo, sameToo⟩ := Except.ok_of_bind_ok accepted
      cases same
      cases sameToo
      exact ⟨placing.openNamed first firstToo, rfl⟩
  | none =>
      rw [ahead] at read
      obtain ⟨last, flagged, placing⟩ := placing.flagged read more
      have long : text ≠ [] ∧ text ≠ ['P'] := by
        constructor <;> intro same <;> subst same <;> cases read
      have unnamed := nameAhead_append_of_none ahead long more
      rw [unnamed] at accepted
      cases flagged.symm.trans accepted
      exact ⟨placing, rfl⟩

end PlacedIn

/-- The characters that do not stand for themselves. -/
def operators : List Char := ['(', ')', '|', '*', '+', '?', '{', '[', '.', '^', '$', '\\']

theorem readItem_plain {c : Char} (plain : c ∉ operators) (reader : Reader) (tail : List Char) :
    reader.readItem (c :: tail) = .ok (reader.literal c, tail) := by
  simp only [operators, List.mem_cons, List.not_mem_nil, or_false, not_or] at plain
  unfold readItem
  split <;> simp_all

theorem readItem_special (reader : Reader) {tail inner : List Char}
    (counted : reader.flags.skip tail = '?' :: inner) :
    reader.readItem ('(' :: tail) = reader.special inner := by
  simp only [readItem, counted]

theorem readItem_open (reader : Reader) {tail : List Char}
    (other : ∀ inner, reader.flags.skip tail ≠ '?' :: inner) :
    reader.readItem ('(' :: tail) = .ok (reader.openGroup none reader.flags, tail) := by
  rw [readItem]
  split
  · exact absurd ‹_› (other _)
  · rfl

namespace PlacedIn

variable {name : Option String} {outer : List Group} {names : List String} {own placed : Reader}

variable {tail rest more : List Char}

theorem repeated (placing : PlacedIn name outer names own placed) {min : Nat} {max : Option Nat}
    (read : own.repeatLast min max (readMark tail tail) = .ok (next, rest))
    (plain : ∀ tail, more ≠ '?' :: tail)
    (accepted : placed.repeatLast min max (readMark (tail ++ more) (tail ++ more)) =
      .ok (other, beyond)) :
    PlacedIn name outer names next other ∧ beyond = rest ++ more := by
  rw [readMark_append tail more (fun _ => rfl) (fun none => by rw [none]; exact plain)] at accepted
  obtain ⟨same, _, last, repeated, placing⟩ := placing.repeatLast read more
  rw [same] at repeated
  cases repeated.symm.trans accepted
  exact ⟨placing, by rw [same]⟩

theorem counted (placing : PlacedIn name outer names own placed)
    (read : own.readItem ('\x7b' :: tail) = .ok (next, rest))
    (quiet : next.flags = own.flags → own.flags.skip rest = [] →
      ∀ tail, own.flags.skip (rest ++ more) ≠ '?' :: tail)
    (accepted : placed.readItem ('\x7b' :: (tail ++ more)) = .ok (other, beyond)) :
    PlacedIn name outer names next other ∧ beyond = rest ++ more := by
  simp only [Reader.readItem, placing.flags, placing.repeatable] at read accepted
  split at read
  · rename_i able
    rw [if_pos able] at accepted
    obtain ⟨⟨⟨min, max⟩, after⟩, bounds, read⟩ := Except.ok_of_bind_ok read
    obtain ⟨⟨⟨minToo, maxToo⟩, afterToo⟩, boundsToo, accepted⟩ := Except.ok_of_bind_ok accepted
    cases (readBounds_append bounds more).symm.trans boundsToo
    obtain ⟨same, flags, last, repeated, placing⟩ := placing.repeatLast read more
    have marked : readMark (own.flags.skip (after ++ more)) (after ++ more) =
        ((readMark (own.flags.skip after) after).1,
          (readMark (own.flags.skip after) after).2 ++ more) := by
      refine readMark_append after more (fun present => skip_append present more) fun ended => ?_
      rw [ended] at same
      change rest = after at same
      rw [← same] at ended ⊢
      exact quiet flags ended
    rw [marked] at accepted
    rw [same] at repeated
    cases repeated.symm.trans accepted
    exact ⟨placing, by rw [same]⟩
  · cases read

theorem opening (placing : PlacedIn name outer names own placed)
    (read : own.readItem ('(' :: tail) = .ok (next, rest))
    (quiet : next.flags = own.flags → own.flags.skip rest = [] →
      ∀ tail, own.flags.skip (rest ++ more) ≠ '?' :: tail)
    (accepted : placed.readItem ('(' :: (tail ++ more)) = .ok (other, beyond)) :
    PlacedIn name outer names next other ∧ beyond = rest ++ more := by
  by_cases special : ∃ inner, own.flags.skip tail = '?' :: inner
  · obtain ⟨inner, marked⟩ := special
    have markedToo : placed.flags.skip (tail ++ more) = '?' :: (inner ++ more) := by
      rw [placing.flags, skip_append (by simp [marked]), marked, List.cons_append]
    rw [readItem_special own marked] at read
    rw [readItem_special placed markedToo] at accepted
    exact placing.special read accepted
  · rw [readItem_open own (by simpa using special)] at read
    cases read
    have plain : ∀ inner, placed.flags.skip (tail ++ more) ≠ '?' :: inner := by
      rw [placing.flags]
      by_cases ended : own.flags.skip tail = []
      · exact quiet rfl ended
      · rw [skip_append ended]
        obtain ⟨d, others, skipped⟩ := List.exists_cons_of_ne_nil ended
        intro inner same
        rw [skipped] at same
        exact special ⟨others, by rw [skipped, (List.cons.inj same).1]⟩
    rw [readItem_open placed plain] at accepted
    cases accepted
    rw [placing.flags]
    exact ⟨placing.openGroup none own.flags, rfl⟩

theorem escaped (placing : PlacedIn name outer names own placed)
    (read : own.readItem ('\\' :: tail) = .ok (next, rest))
    (accepted : placed.readItem ('\\' :: (tail ++ more)) = .ok (other, beyond)) :
    PlacedIn name outer names next other ∧ beyond = rest ++ more := by
  obtain ⟨⟨escape, after⟩, found, same⟩ := Except.ok_of_bind_ok read
  obtain ⟨⟨escapeToo, afterToo⟩, foundToo, sameToo⟩ := Except.ok_of_bind_ok accepted
  rw [placing.flags] at foundToo
  cases (readEscape_append found more).symm.trans foundToo
  cases escape with
  | character c =>
      cases same
      cases sameToo
      exact ⟨placing.literal c, rfl⟩
  | set | anchor =>
      cases same
      cases sameToo
      exact ⟨placing.push _, rfl⟩

/-- An item is read inside a group as it is read in the pattern by itself. A question mark behind
it may belong to it, so that there must be none behind the pattern. -/
theorem readItem (placing : PlacedIn name outer names own placed) {c : Char}
    (read : own.readItem (c :: tail) = .ok (next, rest)) (plain : ∀ tail, more ≠ '?' :: tail)
    (quiet : next.flags = own.flags → own.flags.skip rest = [] →
      ∀ tail, own.flags.skip (rest ++ more) ≠ '?' :: tail)
    (accepted : placed.readItem (c :: (tail ++ more)) = .ok (other, beyond)) :
    PlacedIn name outer names next other ∧ beyond = rest ++ more := by
  by_cases special : c ∈ operators
  · -- One case for each operator, in the order of their list.
    simp only [operators, List.mem_cons, List.not_mem_nil, or_false] at special
    rcases special with rfl | rfl | rfl | rfl | rfl | rfl | rfl | rfl | rfl | rfl | rfl | rfl
    · exact placing.opening read quiet accepted
    · obtain ⟨closed, found, same⟩ := Except.ok_of_bind_ok read
      obtain ⟨closedToo, foundToo, sameToo⟩ := Except.ok_of_bind_ok accepted
      obtain ⟨last, closes, placing⟩ := placing.closeGroup found
      cases closes.symm.trans foundToo
      cases same
      cases sameToo
      exact ⟨placing, rfl⟩
    · cases read
      cases accepted
      exact ⟨placing.endBranch, rfl⟩
    · exact placing.repeated read plain accepted
    · exact placing.repeated read plain accepted
    · exact placing.repeated read plain accepted
    · exact placing.counted read quiet accepted
    · obtain ⟨⟨set, after⟩, found, same⟩ := Except.ok_of_bind_ok read
      obtain ⟨⟨setToo, afterToo⟩, foundToo, sameToo⟩ := Except.ok_of_bind_ok accepted
      rw [placing.flags] at foundToo
      cases (readClass_append found more).symm.trans foundToo
      cases same
      cases sameToo
      exact ⟨placing.push _, rfl⟩
    · cases read
      cases accepted
      rw [placing.flags]
      exact ⟨placing.push _, rfl⟩
    · cases read
      cases accepted
      rw [placing.flags]
      exact ⟨placing.push _, rfl⟩
    · cases read
      cases accepted
      rw [placing.flags]
      exact ⟨placing.push _, rfl⟩
    · exact placing.escaped read accepted
  · rw [readItem_plain special] at read accepted
    cases read
    cases accepted
    exact ⟨placing.literal c, rfl⟩

theorem step (placing : PlacedIn name outer names own placed) {text rest more : List Char}
    (read : own.step text = .ok (next, rest)) (present : own.flags.skip text ≠ [])
    (plain : ∀ tail, more ≠ '?' :: tail)
    (quiet : next.flags = own.flags → own.flags.skip rest = [] →
      ∀ tail, own.flags.skip (rest ++ more) ≠ '?' :: tail)
    (accepted : placed.step (text ++ more) = .ok (other, beyond)) :
    PlacedIn name outer names next other ∧ beyond = rest ++ more := by
  unfold Reader.step at read accepted
  rw [placing.flags, skip_append present] at accepted
  obtain ⟨c, tail, counted⟩ := List.exists_cons_of_ne_nil present
  rw [counted] at read accepted
  exact placing.readItem read plain quiet accepted

end PlacedIn

theorem step_of_skipped {reader : Reader} {text : List Char} (skipped : reader.flags.skip text = []) :
    reader.step text = .ok (reader, []) := by
  rw [step, skipped]
  rfl

namespace PlacedIn

variable {name : Option String} {outer : List Group} {names : List String}
  {own placed tested : Reader} {base : Group}

/-- A comment that is left open takes in the bracket that would close the group. -/
theorem around_of_inComment (inside : PlacedIn none [base] [] own tested) {text : List Char}
    (skipped : own.flags.skip text = []) (opened : inComment own.flags false text = true)
    (ran : tested.run steps (text ++ [')']) = .ok last) : last.around ≠ [] := by
  have skippedToo : tested.flags.skip (text ++ [')']) = [] := by
    rw [inside.flags, skip_append_bracket skipped opened]
  obtain ⟨fewer, next, rest, rfl, stepped, ran⟩ := run_cons (by simp) ran
  cases (step_of_skipped skippedToo).symm.trans stepped
  cases fewer <;> cases ran <;> exact inside.groups.around_ne_nil (by simp)

/-- A pattern is read inside a group up to the bracket that closes the group, if the pattern by
itself can stand in brackets. -/
theorem run (alone : own.run steps text = .ok last)
    (inside : PlacedIn none [base] [] own tested)
    (tests : tested.run testSteps (text ++ [')']) = .ok final) (closed : final.around = [])
    (placing : PlacedIn name outer names own placed) (naming : placed.Naming)
    (accepted : placed.run placedSteps (text ++ ')' :: more) = .ok result) :
    ∃ other left, PlacedIn name outer names last other ∧ other.Naming ∧
      other.run left (')' :: more) = .ok result := by
  induction steps generalizing own text tested placed testSteps placedSteps with
  | zero =>
      cases text with
      | nil =>
          cases alone
          exact ⟨placed, placedSteps, placing, naming, accepted⟩
      | cons => cases alone
  | succ steps ih =>
      by_cases none : text = []
      · subst none
        cases alone
        exact ⟨placed, placedSteps, placing, naming, accepted⟩
      obtain ⟨_, next, rest, ⟨⟩, stepped, alone⟩ := run_cons none alone
      have notMark : ∀ {rest : List Char} (tail : List Char), ')' :: rest ≠ '?' :: tail := by
        intro rest tail same
        exact absurd (List.cons.inj same).1 (by decide)
      by_cases skipped : own.flags.skip text = []
      · -- Nothing counts any more: what comes next is the bracket, or a comment is open.
        cases (step_of_skipped skipped).symm.trans stepped
        cases opened : inComment own.flags false text with
        | true => exact absurd closed (inside.around_of_inComment skipped opened tests)
        | false =>
            obtain ⟨fewer, _, _, rfl, stepped, accepted⟩ := run_cons (by simp) accepted
            have begins : placed.step (text ++ ')' :: more) = placed.step (')' :: more) := by
              rw [Reader.step, Reader.step, placing.flags, skip_append_of_end skipped opened]
            rw [begins] at stepped
            have last_eq : last = own := by cases steps <;> cases alone <;> rfl
            refine ⟨placed, fewer + 1, last_eq ▸ placing, naming, ?_⟩
            exact run_of_step (by simp) stepped accepted
      · obtain ⟨_, testedNext, testedRest, rfl, testedStep, tests⟩ := run_cons (by simp) tests
        obtain ⟨_, placedNext, placedRest, rfl, placedStep, accepted⟩ := run_cons (by simp) accepted
        obtain ⟨inside, rfl⟩ := inside.step stepped skipped notMark (fun _ ended => by
          cases opened : inComment own.flags false rest with
          | true =>
              rw [skip_append_bracket ended opened]
              simp
          | false =>
              rw [skip_append_of_end ended opened, skip_bracket]
              exact notMark) testedStep
        obtain ⟨placing, rfl⟩ := placing.step stepped skipped notMark (fun flags ended => by
          cases opened : inComment own.flags false rest with
          | true =>
              rw [← flags] at ended opened
              exact absurd closed (inside.around_of_inComment ended opened tests)
          | false =>
              rw [skip_append_of_end ended opened, skip_bracket]
              exact notMark) placedStep
        exact ih alone inside tests placing (naming.step placedStep) accepted

end PlacedIn
end Reader
end TokenGrammar.Pattern
