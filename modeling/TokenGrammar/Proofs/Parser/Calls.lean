import TokenGrammar.Parser.Trace
import TokenGrammar.Text.Space

namespace TokenGrammar

/-! # Calls, and the lines that draw them

Where rules call one another, each call has its place in another one or beside it. Calls are drawn
in lines, one where a call begins and one where it ends, around the lines of the calls in it; from
the indentation alone one can tell which two lines belong together. -/

namespace Trace

section Lines

/-- The blanks that a line begins with. -/
def margin (line : String) : Nat := (line.toList.takeWhile (· == ' ')).length

theorem margin_pushn (indent : Nat) {text : String} {c : Char} {rest : List Char}
    (begins : text.toList = c :: rest) (printed : (c == ' ') = false) :
    margin ("".pushn ' ' indent ++ text) = indent := by
  have indented : ("".pushn ' ' indent ++ text).toList =
      List.replicate indent ' ' ++ c :: rest := by
    rw [String.toList_append, Text.toList_pushn, begins]
    rfl
  rw [margin, indented, List.takeWhile_append_of_pos (by simp),
    List.takeWhile_cons_of_neg (by simpa using printed), List.append_nil, List.length_replicate]

@[simp] theorem margin_enterLine (depth : Nat) (rule : String) (pos : Nat) :
    margin (enterLine depth rule pos) = 2 * depth := by
  simp only [enterLine, String.append_assoc]
  exact margin_pushn _ (c := '>') (by simp; rfl) rfl

@[simp] theorem margin_leaveLine (depth : Nat) (rule : String) (matched : Bool) (pos : Nat) :
    margin (leaveLine depth rule matched pos) = 2 * depth := by
  simp only [leaveLine, String.append_assoc]
  exact margin_pushn _ (c := '<') (by simp; rfl) rfl

/-- A line where a rule begins or ends, with the other one of the two: the next line behind an
entry that is not indented further is its exit, and the last such line before an exit is its
entry. -/
def HasPartner (before : List String) (line : String) (after : List String) : Prop :=
  ∃ depth rule start matched stop, start ≤ stop ∧
    ((line = enterLine depth rule start ∧
        after.find? (margin · ≤ margin line) = some (leaveLine depth rule matched stop)) ∨
      (line = leaveLine depth rule matched stop ∧
        before.reverse.find? (margin · ≤ margin line) = some (enterLine depth rule start)))

def Paired (lines : List String) : Prop :=
  ∀ before line after, lines = before ++ line :: after → HasPartner before line after

variable {before after first second lines : List String} {line : String}

theorem HasPartner.frame (found : HasPartner before line after) (earlier later : List String) :
    HasPartner (earlier ++ before) line (after ++ later) := by
  obtain ⟨depth, rule, start, matched, stop, ordered, ⟨entry, next⟩ | ⟨exit, last⟩⟩ := found
  · refine ⟨depth, rule, start, matched, stop, ordered, .inl ⟨entry, ?_⟩⟩
    rw [List.find?_append, next, Option.some_or]
  · refine ⟨depth, rule, start, matched, stop, ordered, .inr ⟨exit, ?_⟩⟩
    rw [List.reverse_append, List.find?_append, last, Option.some_or]

theorem paired_nil : Paired [] := by
  intro before line after split
  simp at split

theorem Paired.append (paired : Paired first) (more : Paired second) :
    Paired (first ++ second) := by
  intro before line after split
  rcases List.append_eq_append_iff.mp split with
    ⟨earlier, rfl, inside⟩ | ⟨_ | ⟨head, later⟩, inside, rest⟩
  · simpa using (more earlier line after inside).frame first []
  · obtain rfl : first = before := by simpa using inside
    simpa using (more [] line after rest.symm).frame first []
  · cases rest
    exact (paired before line later inside).frame [] second

theorem Paired.enclose (paired : Paired lines) (inside : ∀ line ∈ lines, 2 * depth < margin line)
    (ordered : start ≤ stop) (rule : String) (matched : Bool) :
    Paired (enterLine depth rule start :: lines ++ [leaveLine depth rule matched stop]) := by
  have entry : HasPartner [] (enterLine depth rule start)
      (lines ++ [leaveLine depth rule matched stop]) := by
    refine ⟨depth, rule, start, matched, stop, ordered, .inl ⟨rfl, ?_⟩⟩
    have further : lines.find? (margin · ≤ margin (enterLine depth rule start)) = none := by
      simpa using inside
    rw [List.find?_append, further, Option.none_or]
    simp
  have exit : HasPartner (enterLine depth rule start :: lines)
      (leaveLine depth rule matched stop) [] := by
    refine ⟨depth, rule, start, matched, stop, ordered, .inr ⟨rfl, ?_⟩⟩
    have further : lines.reverse.find? (margin · ≤ margin (leaveLine depth rule matched stop)) =
        none := by
      simpa using inside
    rw [List.reverse_cons, List.find?_append, further, Option.none_or]
    simp
  intro before line after split
  rcases before with _ | ⟨head, before⟩
  · cases split
    exact entry
  · obtain ⟨rfl, rest⟩ := List.cons.inj split
    rcases List.eq_nil_or_concat after with rfl | ⟨later, final, rfl⟩
    · obtain ⟨rfl, last⟩ := List.append_inj' rest rfl
      cases last
      exact exit
    · have last : lines ++ [leaveLine depth rule matched stop] =
          (before ++ line :: later) ++ [final] := by
        simpa using rest
      obtain ⟨among, _⟩ := List.append_inj' last rfl
      simpa using (paired before line later among).frame [enterLine depth rule start] [final]

end Lines

section Notes

/-- A journal without the checks that failed. -/
def notes (journal : List Event) : List Event := journal.filter (·.error?.isNone)

variable {first second journal : List Event}

@[simp] theorem notes_nil : notes [] = [] := rfl

@[simp] theorem notes_append : notes (first ++ second) = notes first ++ notes second :=
  List.filter_append ..

@[simp] theorem notes_failure (error : ParseError) :
    notes (.failure error :: journal) = notes journal := rfl

@[simp] theorem notes_enter (rule : String) (pos : Nat) :
    notes (.enter rule pos :: journal) = .enter rule pos :: notes journal := rfl

@[simp] theorem notes_leave (rule : String) (matched : Bool) (pos : Nat) :
    notes (.leave rule matched pos :: journal) = .leave rule matched pos :: notes journal := rfl

theorem lines_notes (depth : Nat) (journal : List Event) :
    lines depth (notes journal) = lines depth journal := by
  induction journal generalizing depth with
  | nil => rfl
  | cons event rest ih => cases event <;> simp [lines, ih]

end Notes
end Trace

/-- Calls of rules in a row, each with those nested in it: where it begins, whether it matches, and
where it ends. A call that fails ends where its rule gives up. -/
inductive Calls where
  | none
  | call (rule : String) (start : Nat) (nested : Calls) (matched : Bool) (stop : Nat)
      (later : Calls)
deriving DecidableEq, Repr

namespace Calls

protected def append : Calls → Calls → Calls
  | none, more => more
  | call rule start nested matched stop later, more =>
    call rule start nested matched stop (later.append more)

instance : Append Calls := ⟨Calls.append⟩

/-- What calls leave in a journal. -/
def events : Calls → List Event
  | none => []
  | call rule start nested matched stop later =>
    .enter rule start :: nested.events ++ .leave rule matched stop :: later.events

/-- Calls as they are drawn with `depth` rules open around them. -/
def lines (depth : Nat) : Calls → List String
  | none => []
  | call rule start nested matched stop later =>
    Trace.enterLine depth rule start :: nested.lines (depth + 1) ++
      Trace.leaveLine depth rule matched stop :: later.lines depth

/-- No call begins before `place` or ends before it begins, and none begins before the call around
it. -/
def Ordered (place : Nat) : Calls → Prop
  | none => True
  | call _ start nested _ stop later =>
    place ≤ start ∧ start ≤ stop ∧ nested.Ordered start ∧ later.Ordered place

variable {calls more other : Calls} {place : Nat}

@[simp] theorem none_append (calls : Calls) : none ++ calls = calls := rfl

@[simp] theorem call_append (rule : String) (start : Nat) (nested : Calls) (matched : Bool)
    (stop : Nat) (later more : Calls) :
    call rule start nested matched stop later ++ more =
      call rule start nested matched stop (later ++ more) := rfl

@[simp] theorem events_append (calls more : Calls) :
    (calls ++ more).events = calls.events ++ more.events := by
  induction calls with
  | none => rfl
  | call rule start nested matched stop later _ ih => simp [events, ih]

theorem Ordered.append (ordered : calls.Ordered place) (after : more.Ordered place) :
    (calls ++ more).Ordered place := by
  induction calls with
  | none => exact after
  | call rule start nested matched stop later _ ih =>
      obtain ⟨begins, ends, inside, behind⟩ := ordered
      exact ⟨begins, ends, inside, ih behind⟩

theorem Ordered.mono (ordered : calls.Ordered place) (earlier : before ≤ place) :
    calls.Ordered before := by
  induction calls with
  | none => trivial
  | call rule start nested matched stop later _ ih =>
      obtain ⟨begins, ends, inside, behind⟩ := ordered
      exact ⟨Nat.le_trans earlier begins, ends, inside, ih behind⟩

/-- The lines of a journal are those of its calls. -/
theorem lines_events (calls : Calls) (depth : Nat) (rest : List Event) :
    Trace.lines depth (calls.events ++ rest) = calls.lines depth ++ Trace.lines depth rest := by
  induction calls generalizing depth rest with
  | none => rfl
  | call rule start nested matched stop later inner ih =>
      calc Trace.lines depth ((call rule start nested matched stop later).events ++ rest)
          = Trace.enterLine depth rule start :: Trace.lines (depth + 1)
              (nested.events ++ .leave rule matched stop :: (later.events ++ rest)) := by
            simp [events, Trace.lines]
        _ = Trace.enterLine depth rule start :: nested.lines (depth + 1) ++
              Trace.leaveLine depth rule matched stop ::
                Trace.lines depth (later.events ++ rest) := by
            rw [inner]
            simp [Trace.lines]
        _ = (call rule start nested matched stop later).lines depth ++ Trace.lines depth rest := by
            rw [ih]
            simp [lines]

/-- Calls are told by what they leave, with anything behind it that is not another call. -/
theorem events_append_inj {rest others : List Event}
    (ends : ∀ rule pos more, rest ≠ .enter rule pos :: more)
    (otherEnds : ∀ rule pos more, others ≠ .enter rule pos :: more)
    (same : calls.events ++ rest = other.events ++ others) : calls = other ∧ rest = others := by
  -- The calls nested in a call end where its exit stands, for no call begins with an exit.
  induction calls generalizing other rest others with
  | none =>
      cases other with
      | none => exact ⟨rfl, same⟩
      | call => exact absurd same (ends _ _ _)
  | call rule start nested matched stop later inner ih =>
      cases other with
      | none => exact absurd same.symm (otherEnds _ _ _)
      | call rule' start' nested' matched' stop' later' =>
          simp only [events, List.cons_append, List.append_assoc, List.cons.injEq] at same
          obtain ⟨entered, inside⟩ := same
          obtain ⟨rfl, closed⟩ := inner (by simp) (by simp) inside
          obtain ⟨left, behind⟩ := List.cons.inj closed
          obtain ⟨rfl, rfl⟩ := ih ends otherEnds behind
          cases entered
          cases left
          exact ⟨rfl, rfl⟩

theorem events_inj (same : calls.events = other.events) : calls = other := by
  have alone : calls.events ++ [] = other.events ++ [] := by rw [same]
  exact (events_append_inj (by simp) (by simp) alone).1

theorem margin_of_mem_lines (calls : Calls) {depth : Nat} (member : line ∈ calls.lines depth) :
    2 * depth ≤ Trace.margin line := by
  induction calls generalizing depth with
  | none => cases member
  | call rule start nested matched stop later inner ih =>
      simp only [lines, List.mem_append, List.mem_cons] at member
      obtain (rfl | inside) | rfl | behind := member
      · simp
      · have := inner inside
        omega
      · simp
      · exact ih behind

theorem Ordered.paired (ordered : calls.Ordered place) (depth : Nat) :
    Trace.Paired (calls.lines depth) := by
  induction calls generalizing place depth with
  | none => exact Trace.paired_nil
  | call rule start nested matched stop later inner ih =>
      obtain ⟨_, ends, inside, behind⟩ := ordered
      have further : ∀ line ∈ nested.lines (depth + 1), 2 * depth < Trace.margin line := by
        intro line member
        have := margin_of_mem_lines nested member
        omega
      have own := (inner inside (depth + 1)).enclose further ends rule matched
      simpa [lines] using own.append (ih behind depth)

end Calls

end TokenGrammar
