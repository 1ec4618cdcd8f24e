import TokenGrammar.Grammar.Draft
import TokenGrammar.Proofs.Grammar.Ranking
import TokenGrammar.Proofs.Parser.Inheritance
import TokenGrammar.Proofs.Parser.SideBySide

namespace TokenGrammar

/-! # How deep and how long a parse gets

The rules that are open at one time, and the repetitions that one field collects, are bounded by
the tokens that are left, whatever a grammar without left recursion asks for. -/

namespace Trace

variable {most : Nat} {first second journal : List Event}

/-- At no time are more than `most` rules open on top of those that are open before. -/
def Within (most : Nat) (journal : List Event) : Prop :=
  ∀ before, before <+: journal → ∀ depth, depthAfter depth before ≤ depth + most

def Balanced (journal : List Event) : Prop := ∀ depth, depthAfter depth journal = depth

theorem Within.append (within : Within most first) (balanced : Balanced first)
    (more : Within most second) : Within most (first ++ second) := by
  intro before earlier depth
  rcases List.prefix_or_prefix_of_prefix earlier (List.prefix_append first second) with
    inside | ⟨after, rfl⟩
  · exact within before inside depth
  · rw [depthAfter_append, balanced]
    exact more after ((List.prefix_append_right_inj first).mp earlier) depth

/-- A rule is open on top of those around it. -/
theorem Within.enter (within : Within most journal) (rule : String) (pos : Nat) :
    Within (most + 1) (.enter rule pos :: journal) := by
  intro before earlier depth
  rcases List.prefix_cons_iff.mp earlier with rfl | ⟨after, rfl, inside⟩
  · exact Nat.le_add_right _ _
  · have deeper := within after inside (depth + 1)
    calc depthAfter depth (.enter rule pos :: after) = depthAfter (depth + 1) after := rfl
      _ ≤ depth + 1 + most := deeper
      _ = depth + (most + 1) := by omega

theorem Within.leave (within : Within most journal) (rule : String) (matched : Bool) (pos : Nat) :
    Within most (journal ++ [.leave rule matched pos]) := by
  intro before earlier depth
  rcases List.prefix_concat_iff.mp earlier with rfl | inside
  · rw [depthAfter_append]
    have := within journal (List.prefix_refl journal) depth
    calc depthAfter (depthAfter depth journal) [.leave rule matched pos]
        = depthAfter depth journal - 1 := rfl
      _ ≤ depth + most := by omega
  · exact within before inside depth

theorem Within.mono (within : Within most journal) (larger : most ≤ more) : Within more journal := by
  intro before earlier depth
  have := within before earlier depth
  omega

theorem balanced_enclosed (balanced : Balanced journal) (rule : String) (start : Nat)
    (matched : Bool) (pos : Nat) :
    Balanced (.enter rule start :: journal ++ [.leave rule matched pos]) := by
  intro depth
  rw [depthAfter_append]
  calc depthAfter (depthAfter depth (.enter rule start :: journal)) [.leave rule matched pos]
      = depthAfter (depth + 1) journal - 1 := rfl
    _ = depth := by rw [balanced]; rfl

end Trace

open Trace (Within Balanced)

/-- A parser that opens at most `most` rules at one time, and closes them unless it gets stuck. -/
structure Run.Nests (most : Nat) (run : Run α) : Prop where
  within : Within most run.journal
  balanced : run.outcome.isStuck = false → Balanced run.journal

namespace Parser

def Nests (most : Nat) (parser : Parser α) : Prop := ∀ start, (parser start).Nests most

variable {most : Nat}

theorem Nests.bind {first : Parser α} {next : α → Parser β} (nests : first.Nests most)
    (more : ∀ value, (next value).Nests most) : (first >>= next).Nests most := by
  intro start
  have head := nests start
  rw [bind_run]
  cases ran : first start with
  | mk journal outcome =>
      rw [ran] at head
      cases outcome with
      | matched value middle =>
          have tail := more value middle
          have closed := head.balanced rfl
          refine ⟨head.within.append closed tail.within, fun free depth => ?_⟩
          rw [Trace.depthAfter_append, closed, tail.balanced free]
      | failed => exact ⟨head.within, fun _ => head.balanced rfl⟩
      | stuck => exact ⟨head.within, fun free => by cases free⟩

theorem Nests.attempt {parser : Parser α} (nests : parser.Nests most) :
    (attempt parser).Nests most := by
  intro start
  have inner := nests start
  rw [attempt_run]
  cases ran : parser start with
  | mk journal outcome =>
      rw [ran] at inner
      cases outcome with
      | matched | failed => exact ⟨inner.within, fun _ => inner.balanced rfl⟩
      | stuck => exact ⟨inner.within, fun free => by cases free⟩

theorem Nests.lookAhead {parser : Parser α} (nests : parser.Nests most) :
    (lookAhead parser).Nests most := by
  intro start
  have inner := nests start
  unfold Parser.lookAhead
  cases ran : parser start with
  | mk journal outcome =>
      rw [ran] at inner
      cases outcome with
      | matched | failed => exact ⟨inner.within, fun _ => inner.balanced rfl⟩
      | stuck => exact ⟨inner.within, fun free => by cases free⟩

theorem Nests.within {parser : Parser α} (nests : parser.Nests most) (rule : String) :
    (within rule parser).Nests (most + 1) := by
  intro start
  have inner := nests start
  unfold Parser.within
  cases ran : parser start with
  | mk journal outcome =>
      rw [ran] at inner
      have opened := inner.within.enter rule start.pos
      cases outcome with
      | matched | failed =>
          exact ⟨opened.leave _ _ _, fun _ => Trace.balanced_enclosed (inner.balanced rfl) _ _ _ _⟩
      | stuck => exact ⟨opened, fun free => by cases free⟩

theorem Nests.mono {parser : Parser α} (nests : parser.Nests most) (larger : most ≤ more) :
    parser.Nests more :=
  fun start => ⟨(nests start).within.mono larger, (nests start).balanced⟩

end Parser

namespace Grammar

end Grammar

namespace Parser.Repeats

variable {grammar : Grammar} {content : Symbol → Constraint → Parser Tree}

/-- Each repetition but the last one has consumed a token. -/
theorem length_le
    (contents : ∀ symbol constraint,
      CarriesOut grammar (.content symbol constraint) (fun _ => 1) (content symbol constraint))
    (repeats : Repeats content between field before count start journal trees error next) :
    trees.length ≤ start.rest.length + 1 := by
  induction repeats with
  | full | stopped => exact Nat.zero_le _
  | stalled => exact Nat.le_add_left 1 _
  | @more count start first tree middle _ _ _ _ _ matched moved _ ih =>
      have performed := repetition_carriesOut contents between field before count start
        (.matched 1 middle) (by rw [matched]; rfl)
      obtain ⟨taken, consumes⟩ := performed.follows _ _ rfl
      have fewer := consumes.length_lt moved
      rw [List.length_cons]
      omega

end Parser.Repeats

namespace Grammar

open TokenGrammar.Parser

variable {grammar : Grammar}

/-- A whole parse has the journal of its root, and gets stuck only with it. -/
theorem parseFrom_of_parse (grammar : Grammar) (root : Symbol) (complete : Bool) (start : Cursor) :
    (grammar.parseFrom root complete start).journal =
        (grammar.parse root .anyToken start).journal ∧
      ((grammar.parse root .anyToken start).outcome.isStuck = false →
        (grammar.parseFrom root complete start).outcome.isStuck = false) ∧
      ∀ fault stop, (grammar.parse root .anyToken start).outcome = .stuck fault stop →
        (grammar.parseFrom root complete start).outcome = .stuck fault stop := by
  rw [parseFrom_run]
  cases grammar.parse root .anyToken start with
  | mk journal outcome =>
      cases outcome with
      | matched tree next =>
          dsimp only
          split <;> exact ⟨rfl, fun _ => rfl, fun _ _ stuck => by cases stuck⟩
      | failed => exact ⟨rfl, fun _ => rfl, fun _ _ stuck => by cases stuck⟩
      | stuck => exact ⟨rfl, id, fun _ _ => id⟩

end Grammar
end TokenGrammar
