import TokenGrammar.Language.Compile
import TokenGrammar.Proofs.Json.Members
import TokenGrammar.Proofs.Rule.Compile

namespace TokenGrammar

/-! The values that trees compile to: their numbers are finite, and the keys of their objects go
up. -/

inductive JsonValue.Canonical : JsonValue → Prop
  | null : Canonical .null
  | bool (value : Bool) : Canonical (.bool value)
  | number (negative : Bool) (mantissa : Nat) (exponent : Int) :
      Canonical (.number (.finite negative mantissa exponent))
  | string (value : String) : Canonical (.string value)
  | array (each : ∀ item ∈ items, Canonical item) : Canonical (.array items)
  | object (ordered : Ordered members) (each : ∀ entry ∈ members, Canonical entry.2) :
      Canonical (.object members)

namespace JsonValue

theorem canonical_ofNumber (number : Binary64) : Canonical (ofNumber number) := by
  cases number with
  | finite negative mantissa exponent => exact .number negative mantissa exponent
  | infinite | notANumber => exact .null

theorem canonical_insertAll {members held : List (String × JsonValue)}
    (each : ∀ entry ∈ members, Canonical entry.2) (before : ∀ entry ∈ held, Canonical entry.2) :
    ∀ entry ∈ insertAll members held, Canonical entry.2 := by
  induction members generalizing held with
  | nil => exact before
  | cons head rest ih =>
      obtain ⟨key, value⟩ := head
      refine ih (fun entry member => each entry (by simp [member])) fun entry member => ?_
      rcases mem_insertMember member with rfl | old
      · exact each (key, value) (by simp)
      · exact before entry old

theorem canonical_ofMembers {members : List (String × JsonValue)}
    (each : ∀ entry ∈ members, Canonical entry.2) : Canonical (ofMembers members) :=
  .object (ordered_insertAll List.Pairwise.nil) (canonical_insertAll each (by simp))

end JsonValue

open JsonValue

theorem Token.canonical_scalarValue {kind : ValueKind} {token : Token} {value : JsonValue}
    (compiled : token.scalarValue kind = .ok value) : Canonical value := by
  cases kind with
  | number =>
      simp only [scalarValue, numberValue] at compiled
      split at compiled
      · cases compiled
        exact canonical_ofNumber _
      · cases compiled
  | string =>
      simp only [scalarValue] at compiled
      obtain ⟨text, _, done⟩ := Except.ok_of_bind_ok compiled
      cases done
      exact .string text
  | bool =>
      simp only [scalarValue, boolValue] at compiled
      split at compiled
      · cases compiled
        exact .bool true
      · split at compiled <;> cases compiled
        exact .bool false
  | null | array | object =>
      cases compiled
      exact .null

namespace Tree

mutual

theorem canonical_compile : ∀ {tree : Tree} {value : JsonValue}, tree.compile = .ok value →
    Canonical value
  | .node _ _, _, compiled => by
    simp only [compile] at compiled
    exact canonical_alternatives compiled
  | .token _, _, compiled => by simp [compile] at compiled
  | .mark, _, compiled => by simp [compile] at compiled

theorem canonical_alternatives : ∀ {rule : String} {slots : List Slot} {value : JsonValue},
    compileAlternatives rule slots = .ok value → Canonical value
  | _, [], _, compiled => by simp [compileAlternatives] at compiled
  | _, .mk _ _ [] :: _, _, compiled => by
    simp only [compileAlternatives] at compiled
    exact canonical_alternatives compiled
  | _, .mk _ _ (_ :: _) :: _, _, compiled => by
    simp only [compileAlternatives] at compiled
    exact canonical_kind compiled

theorem canonical_kind : ∀ {kind : ValueKind} {tree : Tree} {value : JsonValue},
    compileKind kind tree = .ok value → Canonical value
  | .array, .node rule slots, _, compiled => by
    simp only [compileKind] at compiled
    obtain ⟨items, held, done⟩ := Except.ok_of_bind_ok compiled
    cases done
    exact .array (canonical_items held)
  | .object, .node rule slots, _, compiled => by
    simp only [compileKind] at compiled
    obtain ⟨members, held, done⟩ := Except.ok_of_bind_ok compiled
    cases done
    exact canonical_ofMembers (canonical_members held)
  | .number, .node _ _, _, compiled | .string, .node _ _, _, compiled
  | .null, .node _ _, _, compiled | .bool, .node _ _, _, compiled =>
    Token.canonical_scalarValue (by simpa only [compileKind] using compiled)
  | _, .token _, _, compiled | _, .mark, _, compiled =>
    Token.canonical_scalarValue (by simpa only [compileKind] using compiled)

theorem canonical_items : ∀ {slots : List Slot} {items : List JsonValue},
    compileItems slots = .ok items → ∀ item ∈ items, Canonical item
  | [], _, compiled => by
    cases compiled
    simp
  | .mk name _ values :: rest, _, compiled => by
    by_cases items : name = "items"
    · simp only [compileItems, if_pos items] at compiled
      exact canonical_all compiled
    · simp only [compileItems, if_neg items] at compiled
      exact canonical_items compiled

theorem canonical_all : ∀ {trees : List Tree} {items : List JsonValue},
    compileAll trees = .ok items → ∀ item ∈ items, Canonical item
  | [], _, compiled => by
    cases compiled
    simp
  | tree :: rest, _, compiled => by
    simp only [compileAll] at compiled
    obtain ⟨first, head, compiled⟩ := Except.ok_of_bind_ok compiled
    obtain ⟨others, tail, done⟩ := Except.ok_of_bind_ok compiled
    cases done
    exact List.forall_mem_cons.mpr ⟨canonical_compile head, canonical_all tail⟩

theorem canonical_members : ∀ {slots : List Slot} {members : List (String × JsonValue)},
    compileMembers slots = .ok members → ∀ entry ∈ members, Canonical entry.2
  | [], _, compiled => by
    cases compiled
    simp
  | .mk name _ values :: rest, _, compiled => by
    by_cases items : name = "items"
    · simp only [compileMembers, if_pos items] at compiled
      exact canonical_each compiled
    · simp only [compileMembers, if_neg items] at compiled
      exact canonical_members compiled

theorem canonical_each : ∀ {trees : List Tree} {members : List (String × JsonValue)},
    compileEach trees = .ok members → ∀ entry ∈ members, Canonical entry.2
  | [], _, compiled => by
    cases compiled
    simp
  | tree :: rest, _, compiled => by
    simp only [compileEach] at compiled
    obtain ⟨first, head, compiled⟩ := Except.ok_of_bind_ok compiled
    obtain ⟨others, tail, done⟩ := Except.ok_of_bind_ok compiled
    cases done
    exact List.forall_mem_cons.mpr ⟨canonical_member head, canonical_each tail⟩

theorem canonical_member : ∀ {tree : Tree} {entry : String × JsonValue},
    compileMember tree = .ok entry → Canonical entry.2
  | .node _ slots, _, compiled => by
    simp only [compileMember] at compiled
    obtain ⟨key, named, compiled⟩ := Except.ok_of_bind_ok compiled
    obtain ⟨value, held, done⟩ := Except.ok_of_bind_ok compiled
    cases done
    exact canonical_value held
  | .token _, _, compiled => by simp [compileMember] at compiled
  | .mark, _, compiled => by simp [compileMember] at compiled

theorem canonical_value : ∀ {slots : List Slot} {value : JsonValue},
    compileValue slots = .ok value → Canonical value
  | [], _, compiled => by simp [compileValue] at compiled
  | .mk name _ [] :: rest, _, compiled => by
    by_cases held : name = "value"
    · simp [compileValue, held] at compiled
    · simp only [compileValue, if_neg held] at compiled
      exact canonical_value compiled
  | .mk name _ (tree :: _) :: rest, _, compiled => by
    by_cases held : name = "value"
    · simp only [compileValue, if_pos held] at compiled
      exact canonical_compile compiled
    · simp only [compileValue, if_neg held] at compiled
      exact canonical_value compiled

end

end Tree
end TokenGrammar
