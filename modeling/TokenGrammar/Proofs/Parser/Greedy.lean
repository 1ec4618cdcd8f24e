import Mathlib.Data.Nat.Find
import Mathlib.Order.Bounds.Basic
import TokenGrammar.Proofs.Grammar.Ranking
import TokenGrammar.Proofs.Parser.Matching

namespace TokenGrammar

/-! # Rows of tokens

A repeated field of tokens, in a sequence that skips nothing and has no separator of its own, takes
the longest row that is there, up to its maximum. Where the items of a row stand can be told from
their indices: one directly behind the other, or with a token of the field's separator between. -/

/-- The token at an index satisfies the constraint. Behind the last one there is the end of the
input, which satisfies none. -/
def Constraint.FindsAt (constraint : Constraint) (tokens : List Token) (index : Nat) : Prop :=
  (constraint.find? (tokens.getD index .endOfInput)).isSome = true

instance (constraint : Constraint) (tokens : List Token) (index : Nat) :
    Decidable (constraint.FindsAt tokens index) :=
  inferInstanceAs (Decidable (_ = true))

namespace FieldDescriptor

/-- The place of an item in its row. -/
def place (field : FieldDescriptor) (index : Nat) : Nat :=
  if field.separator.isEmpty then index else 2 * index

/-- How many tokens a row of items takes, the separators between them included. -/
def extent (field : FieldDescriptor) (count : Nat) : Nat :=
  if field.separator.isEmpty then count else 2 * count - 1

/-- The items of a row. -/
def items (field : FieldDescriptor) (tokens : List Token) (count : Nat) : List Token :=
  (List.range count).map fun index => tokens.getD (field.place index) .endOfInput

/-- The tokens begin with a row of this many items. -/
structure Row (field : FieldDescriptor) (tokens : List Token) (count : Nat) : Prop where
  items : ∀ index < count, field.tokens.FindsAt tokens (field.place index)
  separators : field.separator.isEmpty = false →
    ∀ index < count - 1, field.separator.FindsAt tokens (field.place index + 1)

instance (field : FieldDescriptor) (tokens : List Token) (count : Nat) :
    Decidable (field.Row tokens count) :=
  decidable_of_iff
    ((∀ index < count, field.tokens.FindsAt tokens (field.place index)) ∧
      (field.separator.isEmpty = false →
        ∀ index < count - 1, field.separator.FindsAt tokens (field.place index + 1)))
    ⟨fun ⟨items, separators⟩ => ⟨items, separators⟩, fun row => ⟨row.items, row.separators⟩⟩

/-- A field of tokens, all of which are consumed, and so are those that separate them. -/
structure Consuming (field : FieldDescriptor) : Prop where
  leaf : field.symbol.content = .token
  constrained : field.tokens.isEmpty = false
  tokens : field.tokens.Consuming
  separator : field.separator.Consuming

end FieldDescriptor

/-- As many repetitions of those that are there as may be made. -/
def Repetition.atMost (repetition : Repetition) (count : Nat) : Nat :=
  match repetition.max with
  | none => count
  | some max => Nat.min count max

/-- The place behind so many more tokens. -/
def Cursor.ahead (start : Cursor) (count : Nat) : Cursor :=
  ⟨start.pos + count, start.rest.drop count⟩

namespace Repetition

variable {repetition : Repetition} {most count : Nat}

theorem atMost_le (repetition : Repetition) (most : Nat) : repetition.atMost most ≤ most := by
  unfold atMost
  cases repetition.max with
  | none => exact Nat.le_refl most
  | some max => exact Nat.min_le_left most max

theorem allowsMore_of_lt (fewer : count < repetition.atMost most) :
    repetition.allowsMore count = true := by
  unfold atMost at fewer
  unfold allowsMore
  cases limit : repetition.max with
  | none => rfl
  | some max =>
      rw [limit] at fewer
      simpa using Nat.lt_of_lt_of_le fewer (Nat.min_le_right most max)

/-- What keeps a repetition from going on is its maximum or the want of items. -/
theorem atMost_stops (repetition : Repetition) (most : Nat) :
    repetition.allowsMore (repetition.atMost most) = false ∨ repetition.atMost most = most := by
  unfold atMost allowsMore
  cases repetition.max with
  | none => exact .inr rfl
  | some max =>
      rcases Nat.le_total max most with reached | room
      · exact .inl (by simpa using Nat.le_min.mpr ⟨reached, Nat.le_refl max⟩)
      · exact .inr (Nat.min_eq_left room)

end Repetition

namespace Constraint

variable {constraint : Constraint} {tokens : List Token}

theorem eq_anyToken (empty : constraint.isEmpty = true) : constraint = .anyToken := by
  obtain ⟨patterns⟩ := constraint
  simpa [isEmpty, anyToken] using empty

theorem FindsAt.lt_length (finds : constraint.FindsAt tokens index) : index < tokens.length := by
  by_contra outside
  simp [FindsAt, List.getElem?_eq_none (Nat.le_of_not_lt outside)] at finds

end Constraint

namespace Cursor

variable {start : Cursor} {offset : Nat}

@[simp] theorem ahead_zero (start : Cursor) : start.ahead 0 = start := rfl

@[simp] theorem pos_ahead (start : Cursor) (offset : Nat) :
    (start.ahead offset).pos = start.pos + offset := rfl

theorem peek_ahead (start : Cursor) (offset : Nat) :
    (start.ahead offset).peek = start.rest.getD offset .endOfInput := by
  simp [ahead, peek, List.headD_eq_head?_getD, List.head?_drop]

theorem advance_ahead (present : offset < start.rest.length) :
    (start.ahead offset).advance = start.ahead (offset + 1) := by
  rw [ahead, List.drop_eq_getElem_cons present, advance_cons]
  rfl

end Cursor

namespace FieldDescriptor

variable {field : FieldDescriptor} {tokens : List Token} {count : Nat}

theorem extent_succ (field : FieldDescriptor) (count : Nat) :
    field.extent (count + 1) = field.place count + 1 := by
  unfold extent place
  split
  · rfl
  · omega

@[simp] theorem extent_zero (field : FieldDescriptor) : field.extent 0 = 0 := by
  unfold extent
  split <;> rfl

theorem extent_lt_succ (field : FieldDescriptor) (count : Nat) :
    field.extent count < field.extent (count + 1) := by
  unfold extent
  split <;> omega

/-- Behind a row its next item may follow at once, if it is the first or if none has a separator
before it. -/
theorem place_adjacent (adjacent : count = 0 ∨ field.separator.isEmpty = true) :
    field.place count = field.extent count := by
  unfold extent place
  rcases adjacent with rfl | plain
  · split <;> rfl
  · simp only [if_pos plain]

theorem place_separated (later : count ≠ 0) (separated : field.separator.isEmpty = false) :
    field.place count = field.extent count + 1 := by
  simp only [extent, place, separated]
  simp only [Bool.false_eq_true, if_false]
  omega

theorem le_place (field : FieldDescriptor) (index : Nat) : index ≤ field.place index := by
  unfold place
  split <;> omega

namespace Row

theorem zero (field : FieldDescriptor) (tokens : List Token) : field.Row tokens 0 :=
  ⟨fun _ among => absurd among (Nat.not_lt_zero _),
    fun _ _ among => absurd among (Nat.not_lt_zero _)⟩

theorem anti (row : field.Row tokens count) (fewer : less ≤ count) : field.Row tokens less :=
  ⟨fun index among => row.items index (by omega),
    fun separated index among => row.separators separated index (by omega)⟩

/-- A row grows by an item behind it, and if there is a separator, by one between the two. -/
theorem succ_iff : field.Row tokens (count + 1) ↔ field.Row tokens count ∧
    field.tokens.FindsAt tokens (field.place count) ∧
    (field.separator.isEmpty = false → count ≠ 0 →
      field.separator.FindsAt tokens (field.extent count)) := by
  constructor
  · intro row
    refine ⟨row.anti (Nat.le_succ count), row.items count (Nat.lt_succ_self count), ?_⟩
    intro separated later
    obtain ⟨before, rfl⟩ := Nat.exists_eq_succ_of_ne_zero later
    rw [extent_succ]
    exact row.separators separated before (by omega)
  · intro ⟨row, item, separator⟩
    refine ⟨fun index among => ?_, fun separated index among => ?_⟩
    · rcases Nat.lt_succ_iff_lt_or_eq.mp among with earlier | rfl
      · exact row.items index earlier
      · exact item
    · by_cases last : index + 1 = count
      · subst last
        rw [← extent_succ]
        exact separator separated (by omega)
      · exact row.separators separated index (by omega)

theorem le_length (row : field.Row tokens count) : count ≤ tokens.length := by
  rcases Nat.eq_zero_or_pos count with rfl | some
  · exact Nat.zero_le _
  · have last := (row.items (count - 1) (by omega)).lt_length
    have further := field.le_place (count - 1)
    omega

theorem exists_isGreatest (field : FieldDescriptor) (tokens : List Token) :
    ∃ most, IsGreatest {count | field.Row tokens count} most :=
  ⟨Nat.findGreatest (field.Row tokens) tokens.length,
    Nat.findGreatest_spec (Nat.zero_le _) (zero field tokens),
    fun _ row => Nat.le_findGreatest (le_length row) row⟩

end Row
end FieldDescriptor

namespace Parser

open FieldDescriptor Cursor

variable {constraint : Constraint} {start : Cursor} {offset : Nat}

/-- A constraint that consumes takes the token that satisfies it, and fails with any other. -/
theorem matchNext_findsAt (constrained : constraint.isEmpty = false)
    (consuming : constraint.Consuming) (finds : constraint.FindsAt start.rest offset) :
    Matches (matchNext constraint) (start.ahead offset) (start.rest.getD offset .endOfInput)
      (start.ahead (offset + 1)) := by
  have token := start.peek_ahead offset
  have moved := advance_ahead finds.lt_length
  rw [Constraint.FindsAt, ← token] at finds
  obtain ⟨pattern, found⟩ := Option.isSome_iff_exists.mp finds
  have forward := consuming pattern (List.mem_of_find?_eq_some found)
  rw [← token, ← moved]
  simp [Matches, matchNext, constrained, found, forward]

theorem matchNext_fails_at (constrained : constraint.isEmpty = false)
    (missing : ¬ constraint.FindsAt start.rest offset) :
    Fails (matchNext constraint) (start.ahead offset) := by
  rw [Constraint.FindsAt, ← start.peek_ahead offset, Option.not_isSome_iff_eq_none] at missing
  simp [Fails, matchNext, constrained, missing, reject]

/-! A row is what a field repeats. -/

section Repetitions

variable (rules : String → Constraint → Parser Tree) {between : Gap} {field : FieldDescriptor}
  (before : Nat) {count : Nat}

theorem content_run (consuming : field.Consuming) :
    Grammar.contentParser rules field.symbol field.tokens =
      (matchNext field.tokens >>= fun token => pure (.token token)) := by
  rw [← Grammar.contentParser_content, consuming.leaf]
  rfl

theorem item_findsAt (consuming : field.Consuming)
    (finds : field.tokens.FindsAt start.rest offset) :
    Matches (Grammar.contentParser rules field.symbol field.tokens) (start.ahead offset)
      (.token (start.rest.getD offset .endOfInput)) (start.ahead (offset + 1)) := by
  rw [content_run rules consuming]
  exact (matchNext_findsAt consuming.constrained consuming.tokens finds).bind rfl

theorem item_fails_at (consuming : field.Consuming)
    (missing : ¬ field.tokens.FindsAt start.rest offset) :
    Fails (Grammar.contentParser rules field.symbol field.tokens) (start.ahead offset) := by
  rw [content_run rules consuming]
  exact (matchNext_fails_at consuming.constrained missing).bind _

variable (bare : Bare between) (consuming : field.Consuming)

include bare consuming

/-- Behind a row, a repetition is what makes the row longer. -/
theorem repetition_of_row (row : field.Row start.rest (count + 1)) :
    Matches (repetition (Grammar.contentParser rules) between field before count)
      (start.ahead (field.extent count))
      (.token (start.rest.getD (field.place count) .endOfInput))
      (start.ahead (field.extent (count + 1))) := by
  obtain ⟨_, item, separator⟩ := FieldDescriptor.Row.succ_iff.mp row
  have own := item_findsAt rules consuming item
  rw [extent_succ]
  by_cases adjacent : count = 0 ∨ field.separator.isEmpty = true
  · rw [place_adjacent adjacent] at own ⊢
    rwa [Matches, repetition_run_adjacent bare adjacent]
  · obtain ⟨later, separated⟩ := not_or.mp adjacent
    rw [Bool.not_eq_true] at separated
    have gap := matchNext_findsAt separated consuming.separator (separator separated later)
    rw [place_separated later separated] at own ⊢
    rw [Matches, repetition_run_separated bare separated later]
    exact gap.bind own

/-- Where a row cannot be made longer, a repetition fails: there is no separator, or no item
behind it. -/
theorem repetition_fails_of_row (row : field.Row start.rest count)
    (longest : ¬ field.Row start.rest (count + 1)) :
    Fails (repetition (Grammar.contentParser rules) between field before count)
      (start.ahead (field.extent count)) := by
  rw [FieldDescriptor.Row.succ_iff] at longest
  by_cases adjacent : count = 0 ∨ field.separator.isEmpty = true
  · have missing : ¬ field.tokens.FindsAt start.rest (field.place count) := fun finds =>
      longest ⟨row, finds, fun separated later => by simp [later, separated] at adjacent⟩
    rw [place_adjacent adjacent] at missing
    rw [Fails, repetition_run_adjacent bare adjacent]
    exact item_fails_at rules consuming missing
  · obtain ⟨later, separated⟩ := not_or.mp adjacent
    rw [Bool.not_eq_true] at separated
    rw [Fails, repetition_run_separated bare separated later]
    by_cases gap : field.separator.FindsAt start.rest (field.extent count)
    · have missing : ¬ field.tokens.FindsAt start.rest (field.place count) := fun finds =>
        longest ⟨row, finds, fun _ _ => gap⟩
      rw [place_separated later separated] at missing
      exact (matchNext_findsAt separated consuming.separator gap).bind_fails
        (item_fails_at rules consuming missing)
    · exact (matchNext_fails_at separated gap).bind _

/-- From within a row a field repeats up to its end, if the row is as long as the field allows or
as the tokens do. -/
theorem repeats_of_row (left : Nat) (row : field.Row start.rest (count + left))
    (allowed : ∀ index < count + left, field.size.allowsMore index = true)
    (ends : field.size.allowsMore (count + left) = false ∨
      ¬ field.Row start.rest (count + left + 1)) :
    ∃ journal error, Repeats (Grammar.contentParser rules) between field before count
      (start.ahead (field.extent count)) journal
      ((List.range' count left).map fun index =>
        .token (start.rest.getD (field.place index) .endOfInput))
      error (start.ahead (field.extent (count + left))) := by
  -- The induction is on the items that are left: each of them is one repetition, which moves on,
  -- and behind the last one there is no other.
  induction left generalizing count with
  | zero =>
      cases full : field.size.allowsMore count with
      | false => exact ⟨[], none, .full full⟩
      | true =>
          have longest := ends.resolve_left (by simp [full])
          obtain ⟨error, stop, failed⟩ :=
            repetition_fails_of_row rules before bare consuming row longest
          exact ⟨_, some error, .stopped full (Run.eq_of_outcome failed)⟩
  | succ left ih =>
      rw [← Nat.add_assoc, Nat.add_right_comm] at row allowed ends ⊢
      have matched := repetition_of_row rules before bare consuming
        (row.anti (Nat.le_add_right _ left))
      have further : (start.ahead (field.extent (count + 1))).pos ≠
          (start.ahead (field.extent count)).pos := by
        have longer := field.extent_lt_succ count
        simp only [pos_ahead]
        omega
      obtain ⟨journal, error, rest⟩ := ih row allowed ends
      exact ⟨_, error, .more (allowed count (by omega)) (Run.eq_of_outcome matched) further rest⟩

/-- A field repeats as long a row as there is, if it may. -/
theorem repeats_greedy {most : Nat}
    (greatest : IsGreatest {count | field.Row start.rest count} most) :
    ∃ journal error, Repeats (Grammar.contentParser rules) between field before 0 start journal
      ((field.items start.rest (field.size.atMost most)).map Tree.token) error
      (start.ahead (field.extent (field.size.atMost most))) := by
  have row := greatest.1.anti (field.size.atMost_le most)
  have ends : field.size.allowsMore (field.size.atMost most) = false ∨
      ¬ field.Row start.rest (field.size.atMost most + 1) := by
    rcases field.size.atMost_stops most with full | all
    · exact .inl full
    · refine .inr fun longer => ?_
      have bound := greatest.2 longer
      omega
  have allowed (index : Nat) (among : index < field.size.atMost most) :
      field.size.allowsMore index = true := Repetition.allowsMore_of_lt among
  generalize field.size.atMost most = count at row ends allowed ⊢
  rw [← Nat.zero_add count] at row ends allowed
  obtain ⟨journal, error, repeats⟩ :=
    repeats_of_row rules before bare consuming count row allowed ends
  refine ⟨journal, error, ?_⟩
  rw [extent_zero, ahead_zero, Nat.zero_add, ← List.range_eq_range'] at repeats
  rwa [FieldDescriptor.items, List.map_map]

end Repetitions

/-- A repeated field of tokens at the beginning of a sequence takes as many items as there are in
a row, up to its maximum, and matches if there are as many as it needs. It ends right behind the
last of them: what would separate it from another item is left for the fields after it. -/
theorem fieldValues_greedy (rule : Descriptor) (field : FieldDescriptor)
    (rest : List FieldDescriptor) (combinator : rule.combinator = .seq)
    (drop : rule.drop.isEmpty = true) (plain : rule.separator = none)
    (first : rule.fields = field :: rest) (many : field.cardinality = .repeated)
    (consuming : field.Consuming) (rules : String → Constraint → Parser Tree) (start : Cursor) :
    let content := Grammar.contentParser rules
    ∃ most, IsGreatest {count | field.Row start.rest count} most ∧
      let count := field.size.atMost most
      let trees := (field.items start.rest count).map Tree.token
      let after := start.ahead (field.extent count)
      (count < field.size.min →
        Fails (fieldValues content rule field 0) start ∧ Fails (body content rule) start) ∧
      (field.size.min ≤ count →
        Matches (fieldValues content rule field 0) start trees after ∧
        (body content rule start).outcome = ((do
          let slots ← sequence content rule rest count
          return field.slot trees :: slots : Parser (List Slot)) after).outcome) := by
  intro content
  have bare : Bare (.ofRule rule) := ⟨Constraint.eq_anyToken drop, plain⟩
  obtain ⟨most, greatest⟩ := FieldDescriptor.Row.exists_isGreatest field start.rest
  refine ⟨most, greatest, ?_⟩
  intro count trees after
  obtain ⟨journal, error, repeats⟩ := repeats_greedy rules 0 bare consuming greatest
  have length : trees.length = count := by simp [trees, FieldDescriptor.items]
  have few : trees.length ≤ start.rest.length := by
    rw [length]
    exact (greatest.1.anti (field.size.atMost_le most)).le_length
  constructor
  · intro short
    have fails : Fails (fieldValues content rule field 0) start := by
      simp only [fieldValues, many]
      exact repeated_fails repeats few (length ▸ short)
    rw [body_fails_sequence combinator, first]
    exact ⟨fails, fails.bind _⟩
  · intro enough
    have matched : Matches (fieldValues content rule field 0) start trees after :=
      fieldValues_matches_repeated many repeats few (length ▸ enough)
    refine ⟨matched, ?_⟩
    simp only [body, combinator, first, sequence]
    rw [matched.bind_outcome, length, Nat.zero_add]

/-- Just two items: of three that are there the third is left with the separator before it, and one
with a separator behind it is not enough. -/
theorem fieldValues_greedy_pair :
    let declaration : Declaration := ⟨"Pair", some ⟨.seq, ""⟩, [
      { name := "items", symbol := .boxed .token, cardinality := .repeated,
        tok := "a", sep := "comma", size := "2" },
      { name := "rest", symbol := .token, cardinality := .single, tok := "comma" }], "Pair"⟩
    let field : FieldDescriptor := ⟨"items", 0, .boxed .token, .repeated, ⟨[.ofType "a"]⟩,
      ⟨2, some 2⟩, ⟨[.ofType "comma"]⟩⟩
    let last : FieldDescriptor := ⟨"rest", 1, .token, .single, ⟨[.ofType "comma"]⟩, .unbounded,
      .anyToken⟩
    let rule : Descriptor := ⟨"Pair", .seq, [field, last], none, .anyToken⟩
    let content := Grammar.contentParser ((Grammar.ofDeclarations [declaration]).ruleParser 0)
    let item (value : String) := Token.ordinary "a" value
    let comma := Token.ordinary "comma" ","
    let three := [item "x", comma, item "y", comma, item "z"]
    let one := [item "x", comma, comma]
    declaration.compile = .ok rule ∧ field.Consuming ∧
      Matches (fieldValues content rule field 0) (.start three) [.token (item "x"),
        .token (item "y")] ⟨3, [comma, item "z"]⟩ ∧
      (body content rule (.start three)).outcome = .matched [field.slot [.token (item "x"),
        .token (item "y")], last.slot [.token comma]] ⟨4, [item "z"]⟩ ∧
      Fails (fieldValues content rule field 0) (.start one) := by
  intro declaration field last rule content item comma three one
  have compiled : declaration.compile = .ok rule := by decide +kernel
  have consuming : field.Consuming := ⟨rfl, rfl, by decide, by decide⟩
  have greedy := fieldValues_greedy rule field [last] rfl rfl rfl rfl rfl consuming
    ((Grammar.ofDeclarations [declaration]).ruleParser 0)
  have longest : IsGreatest {count | field.Row three count} 3 :=
    ⟨by decide, fun count row => Nat.le_of_not_lt fun longer =>
      absurd (row.items 3 longer) (by decide)⟩
  have single : IsGreatest {count | field.Row one count} 1 :=
    ⟨by decide, fun count row => Nat.le_of_not_lt fun longer =>
      absurd (row.items 1 longer) (by decide)⟩
  obtain ⟨most, greatest, _, matching⟩ := greedy (.start three)
  obtain rfl := greatest.unique longest
  obtain ⟨matched, whole⟩ := matching (by decide)
  obtain ⟨few, least, failing, _⟩ := greedy (.start one)
  obtain rfl := least.unique single
  exact ⟨compiled, consuming, matched, whole, (failing (by decide)).1⟩

end Parser
end TokenGrammar
