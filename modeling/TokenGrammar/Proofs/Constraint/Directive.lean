import Mathlib.Data.List.TakeWhile
import TokenGrammar.Proofs.Rule.Compile

namespace TokenGrammar

/-! # The texts of constraints

A constraint is written as its patterns with bars between them, and is read back from that text.
Reading yields constraints that can be written and no others; it refuses a text if and only if one
of the parts between the bars asks for nothing and is not empty. -/

namespace Text

variable {separator : Char} {text : List Char}

theorem splitAt_eq_splitOn (separator : Char) (text : List Char) :
    splitAt separator text = text.splitOn separator := by
  induction text with
  | nil => rfl
  | cons c rest ih =>
      rw [List.splitOn_cons_eq_if_modifyHead, ← ih, splitAt]
      by_cases same : c = separator
      · simp [same]
      · cases parts : splitAt separator rest with
        | nil => exact absurd parts (splitAt_ne_nil separator rest)
        | cons part more => simp [same]

theorem not_mem_of_mem_splitAt {part : List Char} (member : part ∈ splitAt separator text) :
    separator ∉ part := by
  induction text generalizing part with
  | nil =>
      obtain rfl : part = [] := by simpa [splitAt] using member
      exact List.not_mem_nil
  | cons c rest ih =>
      by_cases same : c = separator
      · simp only [splitAt, if_pos same, List.mem_cons] at member
        rcases member with rfl | later
        · exact List.not_mem_nil
        · exact ih later
      · cases parts : splitAt separator rest with
        | nil => exact absurd parts (splitAt_ne_nil separator rest)
        | cons first more =>
            simp only [splitAt, if_neg same, parts, List.mem_cons] at member ih
            rcases member with rfl | later
            · exact List.not_mem_cons_of_ne_of_not_mem (Ne.symm same) (ih (.inl rfl))
            · exact ih (.inr later)

theorem cutAt_of_not_mem (absent : separator ∉ text) : cutAt separator text = (text, none) := by
  have before : ∀ c ∈ text, (c != separator) = true := by
    intro c member
    simpa using fun same : c = separator => absent (same ▸ member)
  have none : text.dropWhile (· != separator) = [] := List.dropWhile_eq_nil_iff.mpr before
  rw [cutAt, List.takeWhile_eq_self_iff.mpr before, none]
  rfl

theorem cutAt_append {head : List Char} (absent : separator ∉ head) (tail : List Char) :
    cutAt separator (head ++ separator :: tail) = (head, some tail) := by
  have before : ∀ c ∈ head, (c != separator) = true := by
    intro c member
    simpa using fun same : c = separator => absent (same ▸ member)
  rw [cutAt, List.takeWhile_append_of_pos before, List.dropWhile_append_of_pos before]
  simp

end Text

namespace TokenPattern

/-- A pattern that a directive can ask for. It has a type or a value, and neither of them is empty
or holds a mark that would be read as the end of it. -/
structure Expressible (pattern : TokenPattern) : Prop where
  type : ∀ type, pattern.type = some type → type ≠ "" ∧ '|' ∉ type.toList ∧ ',' ∉ type.toList ∧
    (pattern.lookahead = false → type.toList.getLast? ≠ some '*')
  value : ∀ value, pattern.value = some value → value ≠ "" ∧ '|' ∉ value.toList
  constrains : pattern.type.isSome = true ∨ pattern.value.isSome = true

/-- The type, a star if the pattern only looks ahead, and a comma with the value. -/
def directive (pattern : TokenPattern) : String :=
  pattern.type.getD "" ++ (if pattern.lookahead then "*" else "")
    ++ pattern.value.elim "" ("," ++ ·)

/-- The parts of a directive that ask for nothing, except for the empty one. -/
def hollow : List (List Char) := [['*'], [','], ['*', ',']]

/-- How a part is written: a name, which ends before a comma, a star if it looks ahead, and what
follows the comma if there is one. -/
def partText (name : List Char) (lookahead : Bool) (tail : Option (List Char)) : List Char :=
  name ++ (if lookahead then ['*'] else []) ++ tail.elim [] (',' :: ·)

theorem textOf_toList (text : String) (present : text ≠ "") :
    textOf text.toList = some text := by
  cases written : text.toList with
  | nil => exact absurd (String.toList_eq_nil_iff.mp written) present
  | cons c rest => exact congrArg some (by rw [← written, String.ofList_toList])

theorem textOf_eq_none {text : List Char} : textOf text = none ↔ text = [] := by
  cases text <;> simp [textOf]

theorem textOf_eq_some {text : List Char} {value : String} (held : textOf text = some value) :
    value ≠ "" ∧ value.toList = text := by
  cases text with
  | nil => cases held
  | cons c rest =>
      cases held
      exact ⟨by simp [← String.toList_inj], String.toList_ofList⟩

theorem exists_partText (part : List Char) : ∃ name lookahead tail, ',' ∉ name ∧
    (lookahead = false → name.getLast? ≠ some '*') ∧ part = partText name lookahead tail := by
  have starred (head : List Char) (absent : ',' ∉ head) : ∃ name lookahead, ',' ∉ name ∧
      (lookahead = false → name.getLast? ≠ some '*') ∧
      head = name ++ if lookahead then ['*'] else [] := by
    by_cases star : head.getLast? = some '*'
    · obtain ⟨name, rfl⟩ := List.getLast?_eq_some_iff.mp star
      exact ⟨name, true, fun member => absent (by simp [member]), nofun, rfl⟩
    · exact ⟨head, false, absent, fun _ => star, by simp⟩
  by_cases member : ',' ∈ part
  · obtain ⟨head, tail, rfl, absent⟩ := List.eq_append_cons_of_mem member
    obtain ⟨name, lookahead, plain, ends, rfl⟩ := starred head absent
    exact ⟨name, lookahead, some tail, plain, ends, rfl⟩
  · obtain ⟨name, lookahead, plain, ends, rfl⟩ := starred part member
    exact ⟨name, lookahead, none, plain, ends, by simp [partText]⟩

theorem ofPart_partText {name : List Char} {lookahead : Bool} (tail : Option (List Char))
    (plain : ',' ∉ name) (ends : lookahead = false → name.getLast? ≠ some '*') :
    ofPart (partText name lookahead tail) =
      if textOf name = none ∧ tail.bind textOf = none then
        .error (.unconstrained (String.ofList (partText name lookahead tail)))
      else .ok ⟨textOf name, tail.bind textOf, lookahead⟩ := by
  have absent : ',' ∉ name ++ if lookahead then ['*'] else [] := by
    cases lookahead <;> simpa using plain
  have cut : Text.cutAt ',' (partText name lookahead tail) =
      (name ++ if lookahead then ['*'] else [], tail) := by
    cases tail with
    | none => simpa [partText] using Text.cutAt_of_not_mem absent
    | some tail => exact Text.cutAt_append absent tail
  have star : ((name ++ if lookahead then ['*'] else []).getLast? == some '*') = lookahead := by
    cases lookahead with
    | true => simp
    | false => simpa using ends rfl
  simp only [ofPart, cut, star]
  cases lookahead <;> simp

/-- A hollow part has neither a type nor a value. -/
theorem mem_hollow {part : List Char} : part ∈ hollow ↔ part ≠ [] ∧
    ∃ lookahead tail, part = partText [] lookahead tail ∧ tail.bind textOf = none := by
  constructor
  · intro member
    simp only [hollow, List.mem_cons, List.not_mem_nil, or_false] at member
    rcases member with rfl | rfl | rfl
    · exact ⟨by decide, true, none, rfl, rfl⟩
    · exact ⟨by decide, false, some [], rfl, rfl⟩
    · exact ⟨by decide, true, some [], rfl, rfl⟩
  · intro ⟨present, lookahead, tail, written, unvalued⟩
    subst written
    have nothing : tail = none ∨ tail = some [] := by
      cases tail with
      | none => exact .inl rfl
      | some tail => exact .inr (congrArg some (textOf_eq_none.mp unvalued))
    rcases nothing with rfl | rfl <;> cases lookahead
    · exact absurd rfl present
    all_goals decide

/-- A part is read as a pattern that can be written, or it is refused because it is hollow. -/
theorem ofPart_verdict {part : List Char} (bare : '|' ∉ part) (present : part ≠ []) :
    Verdict Expressible (if part ∈ hollow then [.unconstrained (String.ofList part)] else [])
      (ofPart part) := by
  by_cases empty : part ∈ hollow
  · obtain ⟨_, lookahead, tail, rfl, unvalued⟩ := mem_hollow.mp empty
    rw [if_pos empty, ofPart_partText tail (by simp) (by simp), if_pos ⟨rfl, unvalued⟩]
    exact .refused
  · obtain ⟨name, lookahead, tail, plain, ends, rfl⟩ := exists_partText part
    have some : ¬ (textOf name = none ∧ tail.bind textOf = none) := by
      intro ⟨unnamed, unvalued⟩
      obtain rfl := textOf_eq_none.mp unnamed
      exact empty (mem_hollow.mpr ⟨present, lookahead, tail, rfl, unvalued⟩)
    rw [if_neg empty, ofPart_partText tail plain ends, if_neg some]
    simp only [partText, List.mem_append, not_or] at bare
    refine .accepted ⟨fun type held => ?_, fun value held => ?_, ?_⟩
    · obtain ⟨written, rfl⟩ := textOf_eq_some held
      exact ⟨written, bare.1.1, plain, ends⟩
    · obtain ⟨text, rfl, valued⟩ := Option.bind_eq_some_iff.mp held
      obtain ⟨written, rfl⟩ := textOf_eq_some valued
      exact ⟨written, fun member => bare.2 (List.mem_cons_of_mem _ member)⟩
    · by_contra neither
      simp only [not_or, Bool.not_eq_true, Option.isSome_eq_false_iff, Option.isNone_iff_eq_none]
        at neither
      exact some neither

namespace Expressible

variable {pattern : TokenPattern} (expressible : pattern.Expressible)

theorem toList_directive (pattern : TokenPattern) : pattern.directive.toList =
    partText (pattern.type.getD "").toList pattern.lookahead (pattern.value.map String.toList) := by
  obtain ⟨type, value, lookahead⟩ := pattern
  cases value <;> cases lookahead <;> simp [directive, partText]

include expressible

theorem ofPart_directive : ofPart pattern.directive.toList = .ok pattern := by
  obtain ⟨named, valued, some⟩ := expressible
  obtain ⟨type, value, lookahead⟩ := pattern
  have readType : textOf (type.getD "").toList = type := by
    cases type with
    | none => rfl
    | some type => exact textOf_toList type (named type rfl).1
  have readValue : (value.map String.toList).bind textOf = value := by
    cases value with
    | none => rfl
    | some value => exact textOf_toList value (valued value rfl).1
  rw [toList_directive, ofPart_partText, readType, readValue, if_neg]
  · intro ⟨untyped, unvalued⟩
    simp [untyped, unvalued] at some
  · cases type with
    | none => simp
    | some type => exact (named type rfl).2.2.1
  · cases type with
    | none => simp
    | some type => exact (named type rfl).2.2.2

theorem bare : '|' ∉ pattern.directive.toList := by
  obtain ⟨named, valued, _⟩ := expressible
  obtain ⟨type, value, lookahead⟩ := pattern
  rw [toList_directive, partText]
  cases type <;> cases value <;> cases lookahead <;> simp_all

theorem directive_ne_nil : pattern.directive.toList ≠ [] := by
  intro empty
  have read := expressible.ofPart_directive
  rw [empty] at read
  cases read

end Expressible
end TokenPattern

theorem Verdict.mapM {meets : β → Prop} {wrong : α → List ε} {check : α → Except ε β}
    {items : List α} (each : ∀ item ∈ items, Verdict meets (wrong item) (check item)) :
    Verdict (fun results => ∀ result ∈ results, meets result) (items.flatMap wrong)
      (items.mapM check) := by
  induction items with
  | nil => exact .accepted (by simp)
  | cons item rest ih =>
      rw [List.mapM_cons, List.flatMap_cons]
      refine (each item (by simp)).bind fun result holds => ?_
      rw [← List.append_nil (rest.flatMap wrong)]
      refine (ih fun other member => each other (by simp [member])).bind fun results others => ?_
      exact .accepted (by simpa using ⟨holds, others⟩)

namespace Constraint

open TokenPattern

/-- The patterns with bars between them. -/
def directive (constraint : Constraint) : String :=
  Text.joinWith "|" (constraint.patterns.map TokenPattern.directive)

theorem splitAt_directive {patterns : List TokenPattern} (some : patterns ≠ [])
    (expressible : ∀ pattern ∈ patterns, pattern.Expressible) :
    Text.splitAt '|' (directive ⟨patterns⟩).toList =
      patterns.map fun pattern => pattern.directive.toList := by
  have parts : (directive ⟨patterns⟩).toList =
      ['|'].intercalate (patterns.map fun pattern => pattern.directive.toList) := by
    simp only [directive, Text.joinWith, String.toList_intercalate, List.map_map]
    rfl
  rw [parts, Text.splitAt_eq_splitOn]
  refine List.splitOn_intercalate '|' (fun part member => ?_) (by simpa using some)
  obtain ⟨pattern, written, rfl⟩ := List.mem_map.mp member
  exact (expressible pattern written).bare

theorem mapM_ofPart {patterns : List TokenPattern}
    (expressible : ∀ pattern ∈ patterns, pattern.Expressible) :
    (patterns.map fun pattern => pattern.directive.toList).mapM ofPart = .ok patterns := by
  induction patterns with
  | nil => rfl
  | cons pattern rest ih =>
      rw [List.map_cons, List.mapM_cons, (expressible pattern (by simp)).ofPart_directive,
        ih fun other member => expressible other (by simp [member])]
      rfl

theorem ofDirective_directive {constraint : Constraint}
    (expressible : ∀ pattern ∈ constraint.patterns, pattern.Expressible) :
    ofDirective constraint.directive = .ok constraint := by
  obtain ⟨patterns⟩ := constraint
  by_cases some : patterns = []
  · subst some
    rfl
  · have parts : (Text.splitAt '|' (directive ⟨patterns⟩).toList).filter (! ·.isEmpty) =
        patterns.map fun pattern => pattern.directive.toList := by
      rw [splitAt_directive some expressible, List.filter_eq_self]
      intro part member
      obtain ⟨pattern, written, rfl⟩ := List.mem_map.mp member
      simpa using (expressible pattern written).directive_ne_nil
    simp only [ofDirective, parts, mapM_ofPart expressible]
    rfl

/-- What is wrong with a text is that it has hollow parts. -/
theorem ofDirective_verdict (text : String) :
    Verdict (fun constraint : Constraint => ∀ pattern ∈ constraint.patterns, pattern.Expressible)
      (((text.toList.splitOn '|').filter (· ∈ hollow)).map fun part =>
        .unconstrained (String.ofList part))
      (ofDirective text) := by
  let wrong (part : List Char) : List DirectiveError :=
    if part ∈ hollow then [.unconstrained (String.ofList part)] else []
  have refused (parts : List (List Char)) : (parts.filter (! ·.isEmpty)).flatMap wrong =
      (parts.filter (· ∈ hollow)).map fun part => .unconstrained (String.ofList part) := by
    induction parts with
    | nil => rfl
    | cons part rest ih =>
        by_cases empty : part = []
        · subst empty
          simpa [hollow] using ih
        · by_cases member : part ∈ hollow <;> simp [empty, member, wrong, ih]
  have each : ∀ part ∈ (Text.splitAt '|' text.toList).filter (! ·.isEmpty),
      Verdict Expressible (wrong part) (ofPart part) := by
    intro part member
    obtain ⟨among, present⟩ := List.mem_filter.mp member
    exact ofPart_verdict (Text.not_mem_of_mem_splitAt among) (by simpa using present)
  rw [← Text.splitAt_eq_splitOn, ← refused, ← List.append_nil (List.flatMap ..)]
  exact (Verdict.mapM each).bind fun patterns expressible => .accepted expressible

/-- Reading a directive undoes writing it. What is read from any text can be written, and a text is
refused if and only if it has a part that asks for nothing, for the first such part. -/
theorem ofDirective_exact (constraint : Constraint) (text : String) :
    ((∀ pattern ∈ constraint.patterns, pattern.Expressible) →
        ofDirective constraint.directive = .ok constraint) ∧
      anyToken.directive = "" ∧
      (ofDirective text = .ok constraint → ∀ pattern ∈ constraint.patterns, pattern.Expressible) ∧
      ((∃ error, ofDirective text = .error error) ↔
        ∃ part ∈ text.toList.splitOn '|', part ∈ hollow) ∧
      ∀ error, ofDirective text = .error error → ∃ part,
        (text.toList.splitOn '|').find? (· ∈ hollow) = some part ∧
          error = .unconstrained (String.ofList part) := by
  have verdict := ofDirective_verdict text
  refine ⟨ofDirective_directive, rfl, fun read => ?_, ?_, fun error failed => ?_⟩
  · rw [read] at verdict
    exact verdict.meets_of_ok
  · rw [← not_iff_not]
    have succeeds : (¬ ∃ error, ofDirective text = .error error) ↔
        ∃ constraint, ofDirective text = .ok constraint := by
      cases ofDirective text <;> simp
    rw [succeeds, verdict.ok_iff]
    simp
  · have first := (verdict.error_iff error).mp failed
    rw [List.head?_map, List.head?_filter] at first
    obtain ⟨part, found, rfl⟩ := Option.map_eq_some_iff.mp first
    exact ⟨part, found, rfl⟩

/-- Names that end in stars, values that hold commas and stars, and a value by itself that is only
looked at; and a text with a part that has a star and a comma and nothing else. -/
theorem ofDirective_exact_stars :
    let constraint : Constraint := ⟨[.ofType "int", ⟨some "a*", none, true⟩, .ofValue "op" ",*",
      ⟨none, some "null", true⟩]⟩
    (∀ pattern ∈ constraint.patterns, pattern.Expressible) ∧
      constraint.directive = "int|a**|op,,*|*,null" ∧
      ofDirective "int|a**|op,,*|*,null" = .ok constraint ∧
      ∃ error, ofDirective "int||op,|*,|," = .error error := by
  intro constraint
  have expressible : ∀ pattern ∈ constraint.patterns, pattern.Expressible := by
    simp only [constraint, List.forall_mem_cons]
    refine ⟨⟨?_, ?_, ?_⟩, ⟨?_, ?_, ?_⟩, ⟨?_, ?_, ?_⟩, ⟨?_, ?_, ?_⟩, by simp⟩ <;>
      simp [ofType, ofValue]
  have written : constraint.directive = "int|a**|op,,*|*,null" := by decide +kernel
  obtain ⟨read, _⟩ := ofDirective_exact constraint ""
  obtain ⟨_, _, _, refused, _⟩ := ofDirective_exact constraint "int||op,|*,|,"
  exact ⟨expressible, written, written ▸ read expressible,
    refused.mpr ⟨['*', ','], by decide +kernel, by decide⟩⟩

end Constraint
end TokenGrammar
