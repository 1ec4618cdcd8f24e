namespace TokenGrammar.Text

/-- The parts of a text between the occurrences of a separator: one more than there are
occurrences. -/
def splitAt (separator : Char) : List Char → List (List Char)
  | [] => [[]]
  | c :: rest =>
    if c = separator then [] :: splitAt separator rest
    else match splitAt separator rest with
      | [] => [[c]]
      | part :: parts => (c :: part) :: parts

theorem splitAt_ne_nil (separator : Char) (text : List Char) : splitAt separator text ≠ [] := by
  induction text with
  | nil => simp [splitAt]
  | cons c rest ih =>
    simp only [splitAt]
    split
    · simp
    · split <;> simp

theorem intercalate_splitAt (separator : Char) (text : List Char) :
    [separator].intercalate (splitAt separator text) = text := by
  induction text with
  | nil => rfl
  | cons c rest ih =>
    cases parts : splitAt separator rest with
    | nil => exact absurd parts (splitAt_ne_nil separator rest)
    | cons part more =>
      rw [parts] at ih
      by_cases h : c = separator
      · simp only [splitAt, h, if_true, parts]
        cases more <;> simp_all [List.intercalate]
      · simp only [splitAt, h, if_false, parts]
        cases more <;> simp_all [List.intercalate]

/-- The text before the first occurrence of a separator, and the text after it if the separator
occurs. -/
def cutAt (separator : Char) (text : List Char) : List Char × Option (List Char) :=
  (text.takeWhile (· != separator), (text.dropWhile (· != separator)).tail?)

/-- Texts put together with a separator between neighbours. -/
def joinWith (separator : String) (parts : List String) : String :=
  separator.intercalate parts

end TokenGrammar.Text
