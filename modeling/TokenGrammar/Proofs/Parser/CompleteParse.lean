import TokenGrammar.Proofs.Parser.Diagnosis
import TokenGrammar.Proofs.Parser.Locality
import TokenGrammar.Proofs.Parser.Transparency
import TokenGrammar.Session

namespace TokenGrammar

/-! # What may follow a root

To ask for a complete match only adds a look at the tokens behind the root: those that the root
skips, and the one after them. The parse of the root goes as it does otherwise. -/

theorem Session.run_congr {session : Session} {parser other : Parser α}
    (same : parser session.stream.cursor = other session.stream.cursor) :
    session.run parser = session.run other := by
  simp only [run, same]

namespace Grammar

variable {grammar : Grammar} {root : Symbol} {start : Cursor} {tokens : List Token}

/-- The rule of a root, in whatever boxes, skips this token between its items. A leaf skips none. -/
def Skips (grammar : Grammar) (root : Symbol) (token : Token) : Prop :=
  ∃ name rule, root.content = .rule name ∧ grammar.find? name = some (.ok rule) ∧
    (rule.drop.find? token).isSome = true

/-- The input ends behind tokens that the root skips. -/
def Exhausts (grammar : Grammar) (root : Symbol) (tokens : List Token) : Prop :=
  ∃ skipped after, tokens = skipped ++ after ∧ (∀ token ∈ skipped, grammar.Skips root token) ∧
    (after.headD .endOfInput).isEnd = true

theorem Skips.present (skips : grammar.Skips root token) : token.isEnd = false := by
  obtain ⟨_, rule, _, _, dropped⟩ := skips
  cases token with
  | ordinary => rfl
  | endOfInput => simp at dropped

/-- Behind a root, the tokens that it skips are passed over, up to one that it does not skip. -/
theorem skipTrailing_passes (grammar : Grammar) (root : Symbol) (start : Cursor) :
    ∃ skipped, (∀ token ∈ skipped, grammar.Skips root token) ∧
      start.Consumes skipped (grammar.skipTrailing root start) ∧
      ¬ grammar.Skips root (grammar.skipTrailing root start).peek := by
  induction root with
  | token | mark => exact ⟨[], by simp, .refl start, by simp [Skips, Symbol.content]⟩
  | boxed inner ih => exact ih
  | rule name =>
      by_cases compiled : ∃ rule, grammar.find? name = some (.ok rule)
      · obtain ⟨rule, found⟩ := compiled
        have skips (token : Token) :
            grammar.Skips (.rule name) token ↔ (rule.drop.find? token).isSome = true := by
          simp [Skips, Symbol.content, found]
        obtain ⟨skipped, drops, consumes⟩ := start.consumes_skip rule.drop
        rw [skipTrailing_rule found]
        refine ⟨skipped, fun token member => (skips token).mpr (drops token member), consumes, ?_⟩
        rw [skips, start.find_peek_skip]
        simp
      · have stays : grammar.skipTrailing (.rule name) start = start := by
          cases found : grammar.find? name with
          | none => simp [skipTrailing, dropFilter?, found]
          | some result =>
              cases result with
              | error => simp [skipTrailing, dropFilter?, found, Except.map]
              | ok rule => exact absurd ⟨rule, found⟩ compiled
        rw [stays]
        refine ⟨[], by simp, .refl start, fun skips => compiled ?_⟩
        obtain ⟨_, rule, content, found, _⟩ := skips
        cases content
        exact ⟨rule, found⟩

theorem exhausts_iff (grammar : Grammar) (root : Symbol) (start : Cursor) :
    grammar.Exhausts root start.rest ↔ (grammar.skipTrailing root start).peek.isEnd = true := by
  obtain ⟨passed, all, consumes, stops⟩ := grammar.skipTrailing_passes root start
  constructor
  · intro ⟨skipped, after, split, allSkipped, ends⟩
    rw [consumes.rest, List.append_eq_append_iff] at split
    rcases split with ⟨more, rfl, behind⟩ | ⟨more, rfl, behind⟩
    · cases more with
      | nil => simpa [Cursor.peek, behind] using ends
      | cons token rest =>
          -- A token that is skipped is not one to stop at.
          have next : (grammar.skipTrailing root start).peek = token := by
            simp [Cursor.peek, behind]
          exact absurd (next ▸ allSkipped token (by simp)) stops
    · cases more with
      | nil => simpa [Cursor.peek, behind] using ends
      | cons token rest =>
          -- The end of the input is not skipped.
          have present := (all token (by simp)).present
          simp [behind, present] at ends
  · intro ends
    exact ⟨passed, _, consumes.rest, all, ends⟩

/-- Where more than what the root skips follows it, there is a first token that is more. -/
theorem remains_of_not_exhausts (remains : ¬ grammar.Exhausts root start.rest) :
    ∃ skipped token after, start.rest = skipped ++ token :: after ∧
      (∀ other ∈ skipped, grammar.Skips root other) ∧ ¬ grammar.Skips root token ∧
      token.isEnd = false ∧ ParseError.atCursor .trailingInput (grammar.skipTrailing root start) =
        ⟨token, start.pos + skipped.length, .trailingInput⟩ := by
  obtain ⟨skipped, all, consumes, stops⟩ := grammar.skipTrailing_passes root start
  rw [exhausts_iff] at remains
  generalize grammar.skipTrailing root start = place at consumes stops remains ⊢
  obtain ⟨pos, _ | ⟨token, after⟩⟩ := place
  · exact absurd rfl remains
  · exact ⟨skipped, token, after, consumes.rest, all, stops, by simpa using remains,
      by rw [ParseError.atCursor, consumes.pos, Cursor.peek_cons]⟩

section Modes

variable {journal : List Event} {tree : Tree} {next : Cursor}

theorem parseFrom_incomplete
    (ran : grammar.parse root .anyToken start = ⟨journal, .matched tree next⟩) :
    grammar.parseFrom root false start = ⟨journal, .matched tree next⟩ := by
  simp [parseFrom_run, ran]

theorem parseFrom_exhausted
    (ran : grammar.parse root .anyToken start = ⟨journal, .matched tree next⟩)
    (exhausts : grammar.Exhausts root next.rest) :
    grammar.parseFrom root true start = ⟨journal, .matched tree next⟩ := by
  have ends := (grammar.exhausts_iff root next).mp exhausts
  simp [parseFrom_run, ran, ends]

open ParseError in
theorem parseFrom_remaining
    (ran : grammar.parse root .anyToken start = ⟨journal, .matched tree next⟩)
    (remains : ¬ grammar.Exhausts root next.rest) :
    grammar.parseFrom root true start = ⟨journal, .failed (gather (furthest (Event.errors journal))
      (.atCursor .trailingInput (grammar.skipTrailing root next))) start⟩ := by
  rw [exhausts_iff] at remains
  simp [parseFrom_run, ran, remains]

/-- A root that fails does so in both modes. -/
theorem parseFrom_unmatched
    (unmatched : (grammar.parse root .anyToken start).outcome.isMatch = false) :
    grammar.parseFrom root true start = grammar.parseFrom root false start := by
  rw [parseFrom_run, parseFrom_run]
  generalize grammar.parse root .anyToken start = run at unmatched ⊢
  obtain ⟨journal, outcome⟩ := run
  cases outcome with
  | matched => cases unmatched
  | failed | stuck => rfl

end Modes

/-- A complete parse is a parse that looks at what follows. It goes as the other one where nothing
follows but tokens that the root skips, and where the root fails. Where the root matches and input
remains, it fails in view of all that failed in the root, and goes back. -/
theorem parseFrom_complete (declarations : List Declaration)
    (admissible : Admissible declarations) (root : Symbol) (declared : Declares declarations root)
    (stream : TokenStream) (traced : Bool) :
    let grammar := ofDeclarations declarations
    let session : Session := { stream, traced }
    let plain := session.run (grammar.parseFrom root false)
    let whole := session.run (grammar.parseFrom root true)
    let ahead := stream.tokens.drop plain.2.stream.pos
    (plain.1.isStuck = false ∧ whole.1.isStuck = false) ∧
    (∀ tree, whole.1.result? = some (.ok tree) ↔
      plain.1.result? = some (.ok tree) ∧ grammar.Exhausts root ahead) ∧
    (plain.1.isFailure = true ∨ whole.1.isMatch = true → whole = plain) ∧
    (plain.1.isMatch = true → whole.1.isFailure = true → ∃ skipped token after,
      ahead = skipped ++ token :: after ∧
      (∀ other ∈ skipped, grammar.Skips root other) ∧ ¬ grammar.Skips root token ∧
      token.isEnd = false ∧
      whole.1 = .failed (.gather plain.2.furthest
        ⟨token, plain.2.stream.pos + skipped.length, .trailingInput⟩) stream.cursor ∧
      whole.2 = { plain.2 with stream }) := by
  intro grammar session plain whole ahead
  have free := free_parse admissible.total admissible.wellFounded
    (admissible.defines declared) .anyToken stream.cursor
  have performed := grammar.parse_carriesOut root .anyToken stream.cursor
  cases ran : grammar.parse root .anyToken stream.cursor with
  | mk journal outcome =>
      rw [Parser.Free, ran] at free
      rw [ran] at performed
      cases outcome with
      | stuck => cases free
      | failed error stop =>
          have same : whole = plain := Session.run_congr (parseFrom_unmatched (by rw [ran]; rfl))
          have failed : plain.1 = .failed (.gather plain.2.furthest error) stream.cursor := by
            simp only [plain, session, Session.run, parseFrom_run, ran]
            rfl
          simp [same, failed, Outcome.isStuck, Outcome.isMatch, Outcome.result?]
      | matched tree next =>
          have matched : plain.1 = .matched tree next := by
            simp only [plain, session, Session.run, parseFrom_incomplete ran]
          have behind : ahead = next.rest := by
            obtain ⟨taken, consumes⟩ := (performed _ rfl).follows _ _ rfl
            have place := TokenStream.cursor_of_consumes consumes
            simp only [ahead, plain, session, Session.run, parseFrom_incomplete ran, place]
            rfl
          by_cases exhausts : grammar.Exhausts root next.rest
          · have same : whole = plain := by
              refine Session.run_congr ?_
              rw [parseFrom_exhausted ran exhausts, parseFrom_incomplete ran]
            simp [same, matched, behind, exhausts, Outcome.isStuck, Outcome.isFailure,
              Outcome.result?]
          · obtain ⟨skipped, token, after, split, all, stops, present, error⟩ :=
              remains_of_not_exhausts exhausts
            have failed : whole = (.failed (.gather plain.2.furthest
                ⟨token, plain.2.stream.pos + skipped.length, .trailingInput⟩) stream.cursor,
                { plain.2 with stream }) := by
              simp only [whole, plain, session, Session.run, parseFrom_incomplete ran,
                parseFrom_remaining ran exhausts, error]
              rfl
            refine ⟨⟨by rw [matched]; rfl, by rw [failed]; rfl⟩, fun tree => ?_, ?_, fun _ _ =>
              ⟨skipped, token, after, behind.trans split, all, stops, present,
                congrArg Prod.fst failed, congrArg Prod.snd failed⟩⟩
            · simp [failed, behind, exhausts, Outcome.result?]
            · simp [failed, matched, Outcome.isFailure, Outcome.isMatch]

open Declaration in
/-- A comment behind a pair may follow it. Another token behind the comment may not, and it has
failed before as the second half of the pair: both failures are at one place. -/
theorem parseFrom_complete_comment :
    let declarations := [seq "Pair" "comment"
      [tokenField "first" "a", optional (tokenField "second" "b")]]
    let grammar := ofDeclarations declarations
    let root : Symbol := .boxed (.rule "Pair")
    let comment := Token.ordinary "comment" "note"
    let tree : Tree := .node "Pair"
      [.mk "first" .single [.token (.ordinary "a" "")], .mk "second" .optional []]
    let commented : TokenStream := ⟨[comment, .ordinary "a" "", comment], 0⟩
    let continued : TokenStream := ⟨[comment, .ordinary "a" "", comment, .ordinary "c" ""], 0⟩
    let whole := Session.run { stream := commented } (grammar.parseFrom root true)
    let refused := Session.run { stream := continued } (grammar.parseFrom root true)
    Admissible declarations ∧ Declares declarations root ∧
      whole.1.result? = some (.ok tree) ∧ whole.2.stream.pos = 2 ∧
      refused.1 = .failed ⟨.ordinary "c" "", 3, .expected [.ofType "b"]⟩ continued.cursor ∧
      refused.2.stream = continued := by
  intro declarations grammar root comment tree commented continued whole refused
  have ranked : ranked declarations (fun _ => 0) = true := by decide +kernel
  have admissible := admissible_of_ranked ranked
  have checked : declares declarations (fun _ => true) root = true := by decide
  have declared : Declares declarations root :=
    fun name content => (declares_of_check checked content).1
  have skips : grammar.Skips root comment := by
    have drops : allRules declarations (fun rule => (rule.drop.find? comment).isSome) = true := by
      decide +kernel
    have defined : grammar.Defines root := admissible.defines declared
    obtain ⟨rule, found⟩ := defined "Pair" rfl
    exact ⟨"Pair", rule, rfl, found, of_allRules drops found⟩
  obtain ⟨_, succeeds, alike, _⟩ :=
    parseFrom_complete declarations admissible root declared commented false
  have matched : (Session.run { stream := commented } (grammar.parseFrom root false)).1.result? =
      some (.ok tree) := by decide +kernel
  have stops : (Session.run { stream := commented } (grammar.parseFrom root false)).2.stream.pos =
      2 := by decide +kernel
  have exhausts : grammar.Exhausts root [comment] := ⟨[comment], [], rfl, by simpa using skips, rfl⟩
  have same := alike (.inr (by decide +kernel))
  obtain ⟨_, _, _, remaining⟩ :=
    parseFrom_complete declarations admissible root declared continued false
  obtain ⟨_, _, _, _, _, _, _, _, back⟩ := remaining (by decide +kernel) (by decide +kernel)
  refine ⟨admissible, declared, (succeeds tree).mpr ⟨matched, ?_⟩, ?_, by decide +kernel,
    congrArg Session.stream back⟩
  · rw [stops]
    exact exhausts
  · rw [show whole = _ from same]
    exact stops

end Grammar
end TokenGrammar
