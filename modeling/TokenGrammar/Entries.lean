namespace TokenGrammar.Entries

/-! Values under distinct keys, in the order in which the keys came. -/

/-- Puts a value under a key, in the place of the value that the key had. -/
def put (key : String) (value : α) : List (String × α) → List (String × α)
  | [] => [(key, value)]
  | (other, held) :: rest =>
    if other = key then (key, value) :: rest else (other, held) :: put key value rest

theorem lookup_cons_eq (key other : String) (value : α) (entries : List (String × α)) :
    ((key, value) :: entries).lookup other =
      if other = key then some value else entries.lookup other := by
  by_cases same : other = key
  · simp [same]
  · have apart : (other == key) = false := by simpa using same
    simp [List.lookup_cons, apart, same]

/-- Putting a value changes what is found under its key and nothing else. -/
theorem lookup_put (key other : String) (value : α) (entries : List (String × α)) :
    (put key value entries).lookup other =
      if other = key then some value else entries.lookup other := by
  induction entries with
  | nil => simp [put, lookup_cons_eq]
  | cons entry rest ih =>
    obtain ⟨held, kept⟩ := entry
    by_cases found : held = key
    · subst found
      by_cases same : other = held <;> simp [put, lookup_cons_eq, same]
    · simp only [put, found, if_false, lookup_cons_eq, ih]
      grind

end TokenGrammar.Entries
