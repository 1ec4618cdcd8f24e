namespace TokenGrammar.Text

/-- The number of bytes of a text in UTF-8. -/
def byteLength : List Char → Nat
  | [] => 0
  | c :: rest => c.utf8Size + byteLength rest

/-- Cuts a text after a number of bytes, unless that is past its end or inside a character. -/
def splitBytes : Nat → List Char → Option (List Char × List Char)
  | 0, text => some ([], text)
  | _ + 1, [] => none
  | bytes + 1, c :: rest =>
    if c.utf8Size ≤ bytes + 1 then
      (splitBytes (bytes + 1 - c.utf8Size) rest).map fun (taken, left) => (c :: taken, left)
    else none

theorem byteLength_append (left right : List Char) :
    byteLength (left ++ right) = byteLength left + byteLength right := by
  induction left with
  | nil => simp [byteLength]
  | cons c rest ih => simp [byteLength, ih, Nat.add_assoc]

theorem splitBytes_eq_some {bytes : Nat} {text taken left : List Char}
    (h : splitBytes bytes text = some (taken, left)) :
    text = taken ++ left ∧ byteLength taken = bytes := by
  fun_induction splitBytes bytes text generalizing taken left with
  | case1 text => simp_all [byteLength]
  | case2 => simp at h
  | case3 bytes c rest fits ih =>
    simp only [Option.map_eq_some_iff, Prod.exists, Prod.mk.injEq] at h
    obtain ⟨inner, _, found, rfl, rfl⟩ := h
    obtain ⟨rfl, size⟩ := ih found
    simp only [List.cons_append, byteLength, size, true_and]
    omega
  | case4 => simp at h

end TokenGrammar.Text
