import TokenGrammar.Text.Split
import TokenGrammar.Token

namespace TokenGrammar

/-! Texts with tokens in them, and the text that has each of the tokens on a line of its own. What a lexer
cuts off under a name may be put before a line feed if that does not change how it is cut. -/

/-- The texts of some tokens, with a line feed between neighbours. -/
def Token.lines (tokens : List Token) : String :=
  Text.joinWith "\n" (tokens.map (·.value))

/-- A text in which some tokens stand in order, each of them with a text that is not empty, and with
nothing but skipped characters before, between and after them. -/
inductive Spread (skipped : Char → Bool) : List Char → List Token → Prop
  | done (blank : ∀ c ∈ text, skipped c = true) : Spread skipped text []
  | token (blank : ∀ c ∈ space, skipped c = true) (present : token.value.toList ≠ [])
      (later : Spread skipped text tokens) :
      Spread skipped (space ++ (token.value.toList ++ text)) (token :: tokens)

theorem Spread.skip {skipped : Char → Bool} {space : List Char}
    (blank : ∀ c ∈ space, skipped c = true)
    (spread : Spread skipped text tokens) : Spread skipped (space ++ text) tokens := by
  have both {more : List Char} (others : ∀ c ∈ more, skipped c = true) :
      ∀ c ∈ space ++ more, skipped c = true := fun c member =>
    (List.mem_append.mp member).elim (blank c) (others c)
  cases spread with
  | done others => exact .done (both others)
  | token others present later =>
      rw [← List.append_assoc]
      exact .token (both others) present later

/-- What is cut off at the start of a text, and the type that it has unless it is skipped. -/
abbrev Cutter := List Char → Option (Option String × List Char)

/-- What may stand behind a token: nothing, or another line. -/
def Broken (text : List Char) : Prop := ∀ c, text.head? = some c → c = '\n'

namespace Cutter

/-- A text that is cut up from its start to its end, and the tokens among the pieces. -/
inductive Cuts (cut : Cutter) : List Char → List Token → Prop
  | done : Cuts cut [] []
  | skip (next : cut (taken ++ rest) = some (none, taken)) (present : taken ≠ [])
      (later : Cuts cut rest tokens) : Cuts cut (taken ++ rest) tokens
  | token (next : cut (taken ++ rest) = some (some type, taken)) (present : taken ≠ [])
      (later : Cuts cut rest tokens) :
      Cuts cut (taken ++ rest) (.ordinary type (String.ofList taken) :: tokens)

/-- What is cut off as a token is cut off alike where a line ends behind it. -/
structure Separates (cut : Cutter) (skipped : Char → Bool) : Prop where
  skips : ∀ {taken rest}, cut (taken ++ rest) = some (none, taken) → ∀ c ∈ taken, skipped c = true
  visible : ∀ {type taken rest}, cut (taken ++ rest) = some (some type, taken) →
    ∀ c, taken.head? = some c → skipped c = false
  again : ∀ {type taken rest}, cut (taken ++ rest) = some (some type, taken) → taken ≠ [] →
    ∀ other, Broken other → cut (taken ++ other) = some (some type, taken)
  lineFeed : ∀ {text}, (∀ c, text.head? = some c → skipped c = false) →
    cut ('\n' :: text) = some (none, ['\n'])

variable {cut : Cutter} {skipped : Char → Bool} {text : List Char} {tokens : List Token}

theorem Cuts.forall_token (cuts : Cuts cut text tokens) (holds : Token → Prop)
    (each : ∀ {type taken rest}, cut (taken ++ rest) = some (some type, taken) →
      holds (.ordinary type (String.ofList taken))) : ∀ token ∈ tokens, holds token := by
  induction cuts with
  | done => simp
  | skip _ _ _ ih => exact ih
  | token next _ _ ih => exact List.forall_mem_cons.mpr ⟨each next, ih⟩

theorem Cuts.spread (cuts : Cuts cut text tokens) (separates : Separates cut skipped) :
    Spread skipped text tokens := by
  induction cuts with
  | done => exact .done (by simp)
  | skip next _ _ ih => exact .skip (separates.skips next) ih
  | @token taken rest type tokens next present _ ih =>
      have text : (Token.ordinary type (String.ofList taken)).value.toList = taken := by
        simp [Token.value]
      have nothing : ∀ c ∈ ([] : List Char), skipped c = true := by simp
      have spread := Spread.token nothing (text.symm ▸ present) ih
      rwa [text] at spread

theorem toList_lines_cons (token : Token) (tokens : List Token) :
    (Token.lines (token :: tokens)).toList =
      token.value.toList ++ if tokens = [] then [] else '\n' :: (Token.lines tokens).toList := by
  cases tokens with
  | nil => simp [Token.lines, Text.joinWith]
  | cons next tokens =>
      simp [Token.lines, Text.joinWith, String.toList_intercalate]

/-- The tokens of a text are those of the text that has each of them on a line of its own. -/
theorem Cuts.lines (cuts : Cuts cut text tokens) (separates : Separates cut skipped) :
    Cuts cut (Token.lines tokens).toList tokens ∧
      ∀ c, (Token.lines tokens).toList.head? = some c → skipped c = false := by
  induction cuts with
  | done => exact ⟨.done, by simp [Token.lines, Text.joinWith]⟩
  | skip _ _ _ ih => exact ih
  | @token taken rest type tokens next present _ ih =>
      obtain ⟨later, visible⟩ := ih
      have text : (Token.ordinary type (String.ofList taken)).value.toList = taken := by
        simp [Token.value]
      obtain ⟨c, more, rfl⟩ := List.exists_cons_of_ne_nil present
      rw [toList_lines_cons, text]
      refine ⟨?_, fun d head => separates.visible next d head⟩
      by_cases last : tokens = []
      · subst last
        have alone := separates.again next present [] (by simp [Broken])
        exact .token alone present .done
      · rw [if_neg last]
        have cutAgain := separates.again next present ('\n' :: (Token.lines tokens).toList)
          (by simp [Broken])
        exact .token cutAgain present
          (@Cuts.skip cut ['\n'] _ _ (separates.lineFeed visible) (by simp) later)

end Cutter
end TokenGrammar
