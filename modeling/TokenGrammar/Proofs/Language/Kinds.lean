import TokenGrammar.Proofs.Json.Separation
import TokenGrammar.Proofs.Language.Sjson.Patterns
import TokenGrammar.Proofs.Lexer.OneMode

namespace TokenGrammar

/-! Kinds of tokens that begin with different characters, so that at most one of them is at the start of a
text. -/

/-- Ranges without a character in common. -/
def CodeRanges.Apart (left right : CodeRanges) : Prop :=
  ∀ one ∈ left, ∀ other ∈ right, one.2 < other.1 ∨ other.2 < one.1

instance (left right : CodeRanges) : Decidable (left.Apart right) := by
  unfold CodeRanges.Apart
  infer_instance

theorem CodeRanges.Apart.contains {left right : CodeRanges} (apart : left.Apart right)
    (member : left.contains c = true) : right.contains c = false := by
  rw [← Bool.not_eq_true]
  intro both
  obtain ⟨one, its, low, high⟩ := contains_iff.mp member
  obtain ⟨other, own, lower, higher⟩ := contains_iff.mp both
  have := apart one its other own
  omega

def CharSet.ofRanges (ranges : CodeRanges) : CharSet :=
  ranges.foldl (fun set (first, last) => .union set (.range first last)) .none

theorem CharSet.contains_ofRanges (ranges : CodeRanges) (c : Char) :
    (ofRanges ranges).contains c = ranges.contains c := by
  have union (set : CharSet) :
      (ranges.foldl (fun set (first, last) => .union set (.range first last)) set).contains c =
        (set.contains c || ranges.contains c) := by
    induction ranges generalizing set with
    | nil => simp [CodeRanges.contains]
    | cons range ranges ih =>
        rw [List.foldl_cons, ih]
        simp [CharSet.contains, CodeRanges.contains, Bool.or_assoc]
  rw [ofRanges, union]
  rfl

namespace Language

open Pattern Lexer TokenGrammar.Json

/-- A kind of token: its pattern and the texts that it takes. Each of these it takes where a line ends
behind it. -/
structure Kind where
  name : String
  pattern : String
  expression : Pattern
  standalone : Standalone pattern.toList expression
  begins : CodeRanges
  word : List Char → Prop
  head : ∀ {text}, word text → ∃ c more, text = c :: more ∧ begins.contains c = true
  takes : Sjson.Takes expression fun taken _ => word taken
  gives : ∀ {taken rest}, word taken → Broken rest →
    expression.matchAt (.start (taken ++ rest)) = some ((Spot.start (taken ++ rest)).past taken)

namespace Kind

def definition (kind : Kind) : TokenDefinition := { pattern := kind.pattern, name := some kind.name }

variable {kind : Kind} {taken rest : List Char}

theorem ofText_pattern (kind : Kind) :
    ofText kind.definition.pattern.toList = .ok kind.expression := kind.standalone.1

theorem matches?_eq (kind : Kind) (text : List Char) :
    kind.definition.matches? text = (kind.expression.matchAt (.start text)).map (·.bytes) := by
  rw [TokenDefinition.matches?, kind.ofText_pattern]

theorem matches_of_word (word : kind.word taken) (broken : Broken rest) :
    kind.definition.matches? (taken ++ rest) = some (Text.byteLength taken) := by
  rw [matches?_eq, kind.gives word broken, Option.map_some, Spot.past_bytes]
  simp [Spot.start]

theorem word_of_matches
    (matched : kind.definition.matches? (taken ++ rest) = some (Text.byteLength taken)) :
    kind.word taken :=
  kind.takes.matches? kind.ofText_pattern matched

theorem begins_of_matches {bytes : Nat} (matched : kind.definition.matches? text = some bytes) :
    ∃ c, text.head? = some c ∧ kind.begins.contains c = true := by
  rw [matches?_eq] at matched
  obtain ⟨last, found, _⟩ := Option.map_eq_some_iff.mp matched
  obtain ⟨taken, rest, rfl, _, word⟩ := kind.takes _ last found
  obtain ⟨c, more, rfl, begins⟩ := kind.head word
  exact ⟨c, rfl, begins⟩

/-- A table that skips white space and has a definition for each of some kinds of tokens. -/
def table (kinds : List Kind) : List TokenDefinition :=
  { pattern := r"\s+" } :: kinds.map definition

theorem plain_of_mem_table {kinds : List Kind} : ∀ definition ∈ table kinds, definition.Plain := by
  intro definition member
  rcases List.mem_cons.mp member with rfl | member
  · exact ⟨rfl, rfl, rfl, rfl⟩
  · obtain ⟨kind, _, rfl⟩ := List.mem_map.mp member
    exact ⟨rfl, rfl, rfl, rfl⟩

theorem standalone_of_mem_table {kinds : List Kind} : ∀ definition ∈ table kinds,
    ∃ pattern, Standalone definition.pattern.toList pattern := by
  intro definition member
  rcases List.mem_cons.mp member with rfl | member
  · exact ⟨_, rfl, _, rfl⟩
  · obtain ⟨kind, _, rfl⟩ := List.mem_map.mp member
    exact ⟨_, kind.standalone⟩

theorem spaces_matches? (text : List Char) :
    TokenDefinition.matches? { pattern := r"\s+" } text =
      if text.takeWhile Text.isSpace = [] then none
      else some (Text.byteLength (text.takeWhile Text.isSpace)) := by
  have whole : TokenDefinition.matches? { pattern := r"\s+" } text =
      (Sjson.spaces.matcher (.start text) some).map (·.bytes) := rfl
  have same : run .space (.start text) = text.takeWhile Text.isSpace := rfl
  rw [whole, Sjson.spaces, plus_matches (.inl rfl), same]
  split
  · rfl
  · simp [Spot.past_bytes, Spot.start]

/-- No two kinds begin with one character, and none of them with white space. -/
def Distinct (kinds : List Kind) : Prop :=
  (Text.spaceRanges :: kinds.map (·.begins)).Pairwise CodeRanges.Apart

variable {kinds : List Kind}

theorem Distinct.visible (distinct : Distinct kinds) (member : kind ∈ kinds)
    (begins : kind.begins.contains c = true) : Text.isSpace c = false := by
  rw [← Bool.not_eq_true]
  intro space
  have apart := (List.pairwise_cons.mp distinct).1 _ (List.mem_map_of_mem member)
  simp [apart.contains space] at begins

theorem firstMatch?_of_word (distinct : Distinct kinds) (member : kind ∈ kinds)
    (word : kind.word taken) (broken : Broken rest) :
    firstMatch? (table kinds) (taken ++ rest) = some (kind.definition, Text.byteLength taken) := by
  have matched := matches_of_word word broken
  obtain ⟨c, more, rfl, begins⟩ := kind.head word
  have visible := distinct.visible member begins
  obtain ⟨before, after, rfl⟩ := List.append_of_mem member
  rw [firstMatch?, List.findSome?_eq_some_iff]
  refine ⟨{ pattern := r"\s+" } :: before.map definition, kind.definition, after.map definition,
    by simp [table], by rw [matched]; rfl, fun other others => ?_⟩
  -- A definition before this one takes only texts that begin otherwise.
  suffices unmatched : other.matches? (c :: more ++ rest) = none by rw [unmatched]; rfl
  rcases List.mem_cons.mp others with rfl | others
  · rw [spaces_matches?, if_pos (by simp [visible])]
  · obtain ⟨other, earlier, rfl⟩ := List.mem_map.mp others
    rw [Option.eq_none_iff_forall_ne_some]
    intro bytes its
    obtain ⟨_, ⟨⟩, own⟩ := begins_of_matches its
    have pairs := (List.pairwise_cons.mp distinct).2
    rw [List.map_append, List.pairwise_append] at pairs
    have apart := pairs.2.2 _ (List.mem_map_of_mem earlier) kind.begins (by simp)
    simp [apart.contains own] at begins

theorem firstMatch?_cases {definition : TokenDefinition} (first : firstMatch? (table kinds) (taken ++ rest) =
    some (definition, Text.byteLength taken)) :
    (definition.name = none ∧ ∀ c ∈ taken, Text.isSpace c = true) ∨
      ∃ kind ∈ kinds, definition = kind.definition ∧ kind.word taken := by
  obtain ⟨member, matched⟩ := mem_of_firstMatch? first
  rcases List.mem_cons.mp member with rfl | member
  · have cut := Sjson.spaces_takes.matches? rfl matched
    cases cut with
    | space spaces => exact .inl ⟨rfl, spaces⟩
  · obtain ⟨kind, known, rfl⟩ := List.mem_map.mp member
    exact .inr ⟨kind, known, rfl, word_of_matches matched⟩

theorem word_of_cut (next : cutter (table kinds) text = some (some type, taken)) :
    ∃ kind ∈ kinds, kind.name = type ∧ kind.word taken := by
  obtain ⟨definition, rest, first, called, rfl⟩ := match_of_cutter next
  rcases firstMatch?_cases first with ⟨nameless, _⟩ | ⟨kind, member, rfl, word⟩
  · cases nameless.symm.trans called
  · exact ⟨kind, member, Option.some.inj called, word⟩

theorem Distinct.separates (distinct : Distinct kinds) :
    (cutter (table kinds)).Separates Text.isSpace where
  skips next := by
    obtain ⟨definition, _, first, called, split⟩ := match_of_cutter next
    rw [split] at first
    rcases firstMatch?_cases first with ⟨_, spaces⟩ | ⟨kind, _, rfl, _⟩
    · exact spaces
    · cases called
  visible next c head := by
    obtain ⟨kind, member, _, word⟩ := word_of_cut next
    obtain ⟨first, more, rfl, begins⟩ := kind.head word
    cases head
    exact distinct.visible member begins
  again next _ other broken := by
    obtain ⟨kind, member, rfl, word⟩ := word_of_cut next
    exact cutter_of_match (firstMatch?_of_word distinct member word broken)
  lineFeed {text} visible := by
    have alone : ('\n' :: text).takeWhile Text.isSpace = ['\n'] := by
      cases text with
      | nil => rfl
      | cons c text =>
          have shown := visible c rfl
          simp [shown, (by decide : Text.isSpace '\n' = true)]
    have matched : TokenDefinition.matches? { pattern := r"\s+" } ('\n' :: text) = some 1 := by
      rw [spaces_matches?, alone]
      rfl
    have first : firstMatch? (table kinds) (['\n'] ++ text) = some ({ pattern := r"\s+" }, 1) := by
      simp [firstMatch?, table, matched]
    exact cutter_of_match first

end Kind

end Language
end TokenGrammar
