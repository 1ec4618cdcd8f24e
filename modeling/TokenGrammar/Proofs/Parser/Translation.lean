import TokenGrammar.Proofs.Parser.Bounds
import TokenGrammar.Proofs.Parser.Locality

namespace TokenGrammar

/-! # Parses that begin further on

How many tokens lie before the place where a parse begins makes no difference to it, except that all
positions are larger by that number. Parses that follow one another in a stream are therefore like
parses of streams of their own, each with the tokens that the ones before it have left. -/

/-- The same place with more tokens before it. -/
def Cursor.shift (offset : Nat) (cursor : Cursor) : Cursor := ⟨cursor.pos + offset, cursor.rest⟩

/-- The same error with more tokens before it. -/
def ParseError.shift (offset : Nat) (error : ParseError) : ParseError :=
  { error with pos := error.pos + offset }

/-- What a run yields when there are more tokens before it. -/
def Outcome.shift (offset : Nat) : Outcome α → Outcome α
  | matched value next => matched value (next.shift offset)
  | failed error stop => failed (error.shift offset) (stop.shift offset)
  | stuck fault stop => stuck fault (stop.shift offset)

theorem Outcome.pos_cursor_shift (outcome : Outcome α) (offset : Nat) :
    (outcome.shift offset).cursor.pos = outcome.cursor.pos + offset := by
  cases outcome <;> rfl

theorem TokenStream.cursor_eq_shift (stream : TokenStream) :
    stream.cursor = (Cursor.start (stream.tokens.drop stream.pos)).shift stream.pos := by
  simp [cursor, Cursor.start, Cursor.shift]

namespace Cursor

variable {offset : Nat}

@[simp] theorem peek_shift (cursor : Cursor) : (cursor.shift offset).peek = cursor.peek := rfl

@[simp] theorem advance_shift (cursor : Cursor) :
    (cursor.shift offset).advance = cursor.advance.shift offset := by
  obtain ⟨pos, _ | ⟨token, rest⟩⟩ := cursor
  · rfl
  · simp [shift, Nat.add_right_comm]

@[simp] theorem skip_shift (cursor : Cursor) (drop : Constraint) :
    (cursor.shift offset).skip drop = (cursor.skip drop).shift offset := by
  obtain ⟨pos, tokens⟩ := cursor
  simp only [skip, shift]
  induction tokens generalizing pos with
  | nil => rfl
  | cons token rest ih =>
      simp only [skipFrom]
      split
      · rw [Nat.add_right_comm]
        exact ih (pos + 1)
      · rfl

end Cursor

namespace ParseError

variable {offset : Nat}

@[simp] theorem atCursor_shift (cause : Cause) (cursor : Cursor) :
    atCursor cause (cursor.shift offset) = (atCursor cause cursor).shift offset := rfl

theorem merge_shift (earlier later : ParseError) :
    (earlier.shift offset).merge (later.shift offset) = (earlier.merge later).shift offset := by
  obtain ⟨token, pos, cause⟩ := earlier
  obtain ⟨laterToken, laterPos, laterCause⟩ := later
  simp only [merge, shift, Nat.add_lt_add_iff_right]
  split
  · rfl
  · split
    · rfl
    · cases cause <;> cases laterCause <;> rfl

end ParseError

namespace Correspondence

/-- The first parse has more tokens before it than the second one. -/
def shifted (offset : Nat) : Correspondence where
  Place start other := start = other.shift offset
  Facing start other := start = other.shift offset
  Error error other := error = other.shift offset
  Notes errors others := errors = others.map (·.shift offset)
  Beyond _ := False
  place_of_facing place := place
  peek place := by rw [place, Cursor.peek_shift]
  advance place _ := .inr (by rw [place, Cursor.advance_shift])
  merge first second := by rw [first, second, ParseError.merge_shift]
  notes_nil := List.map_nil.symm
  notes_append first second := by rw [first, second, List.map_append]
  error_check place := by rw [place, ParseError.atCursor_shift]
  notes_check place := by rw [place, ParseError.atCursor_shift, List.map_singleton]
  error_rule place _ := by rw [place, ParseError.atCursor_shift]
  notes_rule place _ := by rw [place, ParseError.atCursor_shift, List.map_singleton]

theorem notes_shifted {errors others : List ParseError}
    (notes : (shifted offset).Notes errors others) : errors = others.map (·.shift offset) := notes

theorem shifted_suits (offset : Nat) (grammar : Grammar) (rule : Descriptor) :
    (shifted offset).Suits grammar rule where
  drop start other place := .inr (by
    cases place
    exact other.skip_shift rule.drop)
  lists _ _ _ _ start other place := .inr (by
    cases place
    exact other.skip_shift .anyToken)
  moves _ _ _ := .inl fun start other next otherNext place after => by
    cases place
    cases after
    exact Nat.add_right_cancel_iff

end Correspondence

namespace Grammar

open TokenGrammar.Parser ParseError

variable {declarations : List Declaration} {grammar : Grammar}

theorem skipTrailing_shift (root : Symbol) (start : Cursor) (offset : Nat) :
    grammar.skipTrailing root (start.shift offset) =
      (grammar.skipTrailing root start).shift offset := by
  unfold skipTrailing
  split
  · exact start.skip_shift _
  · rfl

theorem parseFrom_shift (admissible : Admissible declarations)
    (declared : Declares declarations root) (complete : Bool) (start : Cursor) (offset : Nat) :
    ((ofDeclarations declarations).parseFrom root complete (start.shift offset)).outcome =
      ((ofDeclarations declarations).parseFrom root complete start).outcome.shift offset := by
  have total := admissible.total
  have defined : (ofDeclarations declarations).Defines root := admissible.defines declared
  have free := free_parse total admissible.wellFounded defined .anyToken (start.shift offset)
  have alike := corresponds_parse (κ := .shifted offset) total admissible.wellFounded
    (sized declarations) (fun _ rule _ => Correspondence.shifted_suits offset _ rule) defined
    .anyToken (.inl (show start.shift offset = start.shift offset from rfl))
  rw [parseFrom_run, parseFrom_run]
  unfold Free at free
  generalize (ofDeclarations declarations).parse root .anyToken (start.shift offset) = run
    at free alike ⊢
  generalize (ofDeclarations declarations).parse root .anyToken start = other at alike ⊢
  cases alike with
  | stuck => cases free
  | escaped escapes =>
      -- No place is out of the scope of this comparison.
      obtain ⟨_, beyond, _⟩ := escapes
      exact beyond.elim
  | failed notes same =>
      cases same
      simp only [Correspondence.notes_shifted notes, furthest_map merge_shift,
        gather_map merge_shift]
      rfl
  | matched notes same place =>
      cases same
      cases place
      simp only [skipTrailing_shift, Cursor.peek_shift]
      split
      · simp only [Correspondence.notes_shifted notes, atCursor_shift, furthest_map merge_shift,
          gather_map merge_shift]
        rfl
      · rfl

/-- Whole parses of roots, complete or not, one after another on one stream: what each of them
yields, and where it leaves the stream. -/
def parseEach (grammar : Grammar) :
    List (Symbol × Bool) → TokenStream → List (Option (Except ParseError Tree) × Nat)
  | [], _ => []
  | (root, complete) :: later, stream =>
    let outcome := (grammar.parseFrom root complete stream.cursor).outcome
    let left := stream.restore outcome.cursor.pos
    (outcome.result?, left.pos) :: grammar.parseEach later left

/-- The same parses, each of a list of its own with the tokens that the ones before it have left,
and with its positions counted from behind the tokens that have gone. -/
def parseApart (grammar : Grammar) :
    List (Symbol × Bool) → Nat → List Token → List (Option (Except ParseError Tree) × Nat)
  | [], _, _ => []
  | (root, complete) :: later, gone, tokens =>
    let outcome := (grammar.parseFrom root complete (.start tokens)).outcome
    let consumed := outcome.cursor.pos
    ((outcome.shift gone).result?, gone + consumed) ::
      grammar.parseApart later (gone + consumed) (tokens.drop consumed)

theorem parseEach_eq_parseApart (admissible : Admissible declarations)
    {calls : List (Symbol × Bool)} (declared : ∀ call ∈ calls, Declares declarations call.1)
    (tokens : List Token) (pos : Nat) :
    (ofDeclarations declarations).parseEach calls ⟨tokens, pos⟩ =
      (ofDeclarations declarations).parseApart calls pos (tokens.drop pos) := by
  induction calls generalizing pos with
  | nil => rfl
  | cons call later ih =>
      obtain ⟨root, complete⟩ := call
      have shifted := parseFrom_shift admissible (declared (root, complete) (by simp)) complete
        (.start (tokens.drop pos)) pos
      rw [← TokenStream.cursor_eq_shift ⟨tokens, pos⟩] at shifted
      simp only [parseEach, parseApart, shifted, Outcome.pos_cursor_shift, TokenStream.restore,
        List.drop_drop]
      rw [Nat.add_comm _ pos, ih fun other member => declared other (by simp [member])]

/-- A parse depends on the tokens before it in one way only: all positions count them in. Hence
parses on one stream are parses of their own, whatever those before them have matched or failed. -/
theorem parseFrom_translates (declarations : List Declaration)
    (admissible : Admissible declarations) (tokens : List Token) (pos : Nat) :
    let grammar := ofDeclarations declarations
    (∀ root complete, Declares declarations root →
      let inside := (grammar.parseFrom root complete (TokenStream.cursor ⟨tokens, pos⟩)).outcome
      let alone := (grammar.parseFrom root complete (.start (tokens.drop pos))).outcome
      (∃ tree next, alone = .matched tree next ∧
        inside = .matched tree ⟨next.pos + pos, next.rest⟩) ∨
      ∃ error, alone = .failed error (.start (tokens.drop pos)) ∧
        inside = .failed { error with pos := error.pos + pos }
          (TokenStream.cursor ⟨tokens, pos⟩)) ∧
    ∀ calls, (∀ call ∈ calls, Declares declarations call.1) →
      grammar.parseEach calls ⟨tokens, pos⟩ =
        grammar.parseApart calls pos (tokens.drop pos) := by
  intro grammar
  constructor
  · intro root complete declared inside alone
    have shifted : inside = alone.shift pos := by
      simp only [inside, TokenStream.cursor_eq_shift]
      exact parseFrom_shift admissible declared complete _ pos
    have free : alone.isStuck = false :=
      (parseFrom_of_parse _ _ _ _).2.1 (free_parse admissible.total
        admissible.wellFounded (admissible.defines declared) .anyToken _)
    cases ends : alone with
    | matched tree next =>
        rw [ends] at shifted
        exact .inl ⟨tree, next, rfl, shifted⟩
    | failed error stop =>
        have back : stop = .start (tokens.drop pos) := parseFrom_failed ends
        subst back
        rw [ends] at shifted
        refine .inr ⟨error, rfl, ?_⟩
        rw [shifted, TokenStream.cursor_eq_shift]
        rfl
    | stuck fault stop =>
        rw [ends] at free
        cases free
  · intro calls declared
    exact parseEach_eq_parseApart admissible declared tokens pos

/-- A list behind a word matches, and the bracket behind it fails twice: the second parse begins
where the first one has ended, and the third one where the second one began. -/
theorem parseFrom_translates_bracket :
    let declarations := Language.Sexpr.declarations
    let grammar := ofDeclarations declarations
    let root : Symbol := .rule "SExpr"
    let tokens : List Token := [.ordinary "atom" "x", .ordinary "bkt" "(", .ordinary "bkt" ")",
      .ordinary "bkt" "]"]
    let tree : Tree := .node "SExpr" [.mk "number" .optional [], .mk "string" .optional [],
      .mk "atom" .optional [], .mk "list" .optional [.node "List"
        [.mk "open" .single [.mark], .mk "items" .repeated [], .mk "close" .single [.mark]]]]
    let error : ParseError := ⟨.ordinary "bkt" "]", 3, .expected [.ofType "number",
      .ofType "string", .ofType "atom", .ofValue "bkt" "("]⟩
    Admissible declarations ∧ Declares declarations root ∧
      (grammar.parseFrom root false (TokenStream.cursor ⟨tokens, 1⟩)).outcome =
        .matched tree ⟨3, [.ordinary "bkt" "]"]⟩ ∧
      grammar.parseEach [(root, false), (root, true), (root, false)] ⟨tokens, 1⟩ =
        [(some (.ok tree), 3), (some (.error error), 3), (some (.error error), 3)] := by
  intro declarations grammar root tokens tree error
  have ranked : ranked declarations (fun name => if name = "SExpr" then 1 else 0) = true := by
    decide +kernel
  have admissible := admissible_of_ranked ranked
  have checked : declares declarations (fun _ => true) root = true := by decide
  have declared : Declares declarations root :=
    fun name content => (declares_of_check checked content).1
  obtain ⟨single, several⟩ := parseFrom_translates declarations admissible tokens 1
  have alone : (grammar.parseFrom root false (.start (tokens.drop 1))).outcome =
      .matched tree ⟨2, [.ordinary "bkt" "]"]⟩ := by decide +kernel
  refine ⟨admissible, declared, ?_, ?_⟩
  · obtain ⟨_, _, matched, inside⟩ | ⟨_, failed, _⟩ := single root false declared
    · rw [alone] at matched
      cases matched
      exact inside
    · rw [alone] at failed
      cases failed
  · rw [several _ (by simpa using declared)]
    decide +kernel

end Grammar
end TokenGrammar
