import TokenGrammar.Json.Printer
import TokenGrammar.Proofs.Json.Source
import TokenGrammar.Proofs.Language.Canonical
import TokenGrammar.Text.Space

namespace TokenGrammar

/-! What is printed for a value is a text of that value. -/

/-- The number is printed as one that is read as the same number. -/
def Binary64.ReadsBack (number : Binary64) : Prop :=
  ∃ numeral : Json.Numeral, (number.render JsonValue.numberLayout).toList = numeral.text ∧
    Binary64.ofText? numeral.text = some number

inductive JsonValue.Contains (number : Binary64) : JsonValue → Prop
  | itself : Contains number (.number number)
  | item (member : item ∈ items) (inside : Contains number item) : Contains number (.array items)
  | held (member : entry ∈ members) (inside : Contains number entry.2) :
      Contains number (.object members)

namespace Json

open JsonValue

theorem blank_nil : Blank [] := by
  simp [Blank]

theorem blank_newLine (depth : Nat) : Blank (newLine depth).toList := by
  have line : (newLine depth).toList = '\n' :: List.replicate (2 * depth) ' ' := by
    simp [newLine, Text.toList_pushn]
  rw [line]
  intro c member
  rcases List.mem_cons.mp member with rfl | space
  · simp
  · simp [(List.mem_replicate.mp space).2]

/-- What spells a value, and that it does so as it is printed at some depth. -/
def Prints (depth : Nat) (value : JsonValue) : Prop :=
  ∃ source : Source, source.value = value ∧ Spells source (renderAt depth value).toList

theorem prints_items {depth : Nat} {space : List Char} (blank : Blank space) {item : JsonValue}
    {items : List JsonValue} (each : ∀ other ∈ item :: items, Prints depth other) :
    ∃ sources, Source.values sources = item :: items ∧
      SpellsItems sources ((newLine depth).toList ++
        ((renderAt depth item).toList ++ ((renderItems depth items).toList ++ space))) := by
  induction items generalizing item with
  | nil =>
      obtain ⟨source, rfl, spells⟩ := each item (by simp)
      exact ⟨[source], rfl, .one (.mk (blank_newLine depth) spells blank)⟩
  | cons next items ih =>
      obtain ⟨source, rfl, spells⟩ := each item (by simp)
      obtain ⟨sources, values, later⟩ :=
        ih fun other member => each other (List.mem_cons_of_mem _ member)
      refine ⟨source :: sources, by rw [Source.values, values], ?_⟩
      have first := SpellsPadded.mk (blank_newLine depth) spells (blank_nil)
      have comma : ",".toList = [','] := rfl
      simpa [renderItems, comma] using SpellsItems.more first later

theorem prints_members {depth : Nat} {space : List Char} (blank : Blank space) {key : String}
    {value : JsonValue} {members : List (String × JsonValue)}
    (each : ∀ entry ∈ (key, value) :: members, Prints depth entry.2) :
    ∃ sources, Source.memberValues sources = (key, value) :: members ∧
      SpellsMembers sources ((newLine depth).toList ++ ((quoted key).toList ++
        (": ".toList ++ ((renderAt depth value).toList ++
          ((renderMembers depth members).toList ++ space))))) := by
  have colon : ": ".toList = [':', ' '] := rfl
  have gap : Blank [' '] := by simp [Blank]
  induction members generalizing key value with
  | nil =>
      obtain ⟨source, rfl, spells⟩ := each (key, value) (by simp)
      have member := SpellsMember.mk (blank_newLine depth) (quoted_spells key) blank_nil
        (.mk gap spells blank)
      exact ⟨[(key, source)], rfl, .one (by simpa [colon, renderMembers] using member)⟩
  | cons next members ih =>
      obtain ⟨other, held⟩ := next
      obtain ⟨source, rfl, spells⟩ := each (key, value) (by simp)
      obtain ⟨sources, values, later⟩ :=
        ih fun entry member => each entry (List.mem_cons_of_mem _ member)
      refine ⟨(key, source) :: sources, by rw [Source.memberValues, values], ?_⟩
      have member := SpellsMember.mk (blank_newLine depth) (quoted_spells key) blank_nil
        (.mk gap spells blank_nil)
      have comma : ",".toList = [','] := rfl
      simpa [renderMembers, comma, colon] using SpellsMembers.more member later

theorem prints_array {depth : Nat} {items : List JsonValue}
    (each : ∀ item ∈ items, Prints (depth + 1) item) : Prints depth (.array items) := by
  cases items with
  | nil =>
      refine ⟨.array [], rfl, ?_⟩
      rw [renderAt]
      exact .emptyArray blank_nil
  | cons item items =>
      obtain ⟨sources, values, spells⟩ := prints_items (blank_newLine depth) each
      refine ⟨.array sources, by rw [Source.value, values], ?_⟩
      have opening : "[".toList = ['['] := rfl
      have closing : "]".toList = [']'] := rfl
      simpa [renderAt, opening, closing] using Spells.array spells

/-- An object is printed in the order of its keys, which is that of its value. -/
theorem prints_object {depth : Nat} {members : List (String × JsonValue)}
    (ordered : Ordered members) (each : ∀ entry ∈ members, Prints (depth + 1) entry.2) :
    Prints depth (.object members) := by
  cases members with
  | nil =>
      refine ⟨.object [], ?_, ?_⟩
      · rw [Source.value, Source.memberValues, ← ofMembers_eq, ofMembers_of_ordered ordered]
      · rw [renderAt]
        exact .emptyObject blank_nil
  | cons entry members =>
      obtain ⟨sources, values, spells⟩ := prints_members (blank_newLine depth) each
      refine ⟨.object sources, ?_, ?_⟩
      · rw [Source.value, values, ← ofMembers_eq, ofMembers_of_ordered ordered]
      · have opening : "\x7b".toList = ['\x7b'] := rfl
        have closing : "\x7d".toList = ['\x7d'] := rfl
        simpa [renderAt, opening, closing] using Spells.object spells

theorem prints {value : JsonValue} (canonical : Canonical value)
    (numbers : ∀ number, Contains number value → number.ReadsBack) (depth : Nat) :
    Prints depth value := by
  induction canonical generalizing depth with
  | null =>
      refine ⟨.null, rfl, ?_⟩
      rw [renderAt]
      exact .null
  | bool value =>
      refine ⟨.bool value, rfl, ?_⟩
      rw [renderAt]
      cases value with
      | true => exact .yes
      | false => exact .no
  | number negative mantissa exponent =>
      obtain ⟨numeral, printed, read⟩ := numbers _ .itself
      refine ⟨.number numeral, by simp [Source.value, Numeral.value, read, ofNumber], ?_⟩
      rw [renderAt, printed]
      exact .number numeral
  | string value =>
      exact ⟨.string value, rfl, .string (by simpa [renderAt] using quoted_spells value)⟩
  | array each ih =>
      exact prints_array fun item member =>
        ih item member (fun number inside => numbers number (.item member inside)) (depth + 1)
  | object ordered each ih =>
      exact prints_object ordered fun entry member =>
        ih entry member (fun number inside => numbers number (.held member inside)) (depth + 1)

/-- The line that is printed for a value is a text of it. -/
theorem printed_spells {value : JsonValue} (canonical : Canonical value)
    (numbers : ∀ number, Contains number value → number.ReadsBack) :
    ∃ source : Source, source.value = value ∧ IsText source (value.render ++ "\n") := by
  obtain ⟨source, same, spells⟩ := prints canonical numbers 0
  have feed : Blank ['\n'] := by simp [Blank]
  have line : "\n".toList = ['\n'] := rfl
  exact ⟨source, same, by simpa [IsText, render, line] using SpellsPadded.mk blank_nil spells feed⟩

end Json
end TokenGrammar
