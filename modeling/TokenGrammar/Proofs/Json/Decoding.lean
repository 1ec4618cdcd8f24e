import TokenGrammar.Proofs.Json.Spelling

namespace TokenGrammar.Json

/-! The decoder accepts no other literals than RFC 8259 has: what it reads is spelled. -/

theorem hexDigit_of_digit (read : Text.digit? 16 c = some value) : HexDigit c value := by
  have offset (base : Nat) (from_ : base ≤ c.toNat) : Char.ofNat (base + (c.toNat - base)) = c := by
    rw [Nat.add_sub_cancel' from_, Char.ofNat_toNat]
  obtain ⟨read, _⟩ := Option.filter_eq_some_iff.mp read
  split at read
  · rename_i digit
    cases read
    obtain ⟨least, most⟩ := Char.isDigit_iff_toNat.mp digit
    have nine : '9'.toNat = 57 := rfl
    have zero : '0'.toNat = 48 := rfl
    have hex := @HexDigit.decimal (c.toNat - '0'.toNat) (by omega)
    rwa [offset '0'.toNat least] at hex
  · split at read
    · rename_i letter
      cases read
      obtain ⟨least, most⟩ : 'a'.toNat ≤ c.toNat ∧ c.toNat ≤ 'f'.toNat := letter
      have last : 'f'.toNat = 102 := rfl
      have first : 'a'.toNat = 97 := rfl
      have hex := @HexDigit.lower (c.toNat - 'a'.toNat) (by omega)
      rwa [offset 'a'.toNat least, Nat.add_comm] at hex
    · split at read
      · rename_i letter
        cases read
        obtain ⟨least, most⟩ : 'A'.toNat ≤ c.toNat ∧ c.toNat ≤ 'F'.toNat := letter
        have last : 'F'.toNat = 70 := rfl
        have first : 'A'.toNat = 65 := rfl
        have hex := @HexDigit.upper (c.toNat - 'A'.toNat) (by omega)
        rwa [offset 'A'.toNat least, Nat.add_comm] at hex
      · cases read

theorem readUnit_spells (read : readUnit text = some (unit, rest)) :
    ∃ digits, text = digits ++ rest ∧ SpellsUnit unit digits := by
  unfold readUnit at read
  split at read
  · rename_i a b c d left
    obtain ⟨value, whole, same⟩ := Option.map_eq_some_iff.mp read
    cases same
    simp only [Text.readRadix, List.cons_ne_nil, if_false, List.foldlM_cons, List.foldlM_nil,
      Option.bind_eq_bind, Option.bind_eq_some_iff, Option.map_eq_some_iff, Option.pure_def,
      Option.some.injEq] at whole
    obtain ⟨_, ⟨w, first, rfl⟩, _, ⟨x, second, rfl⟩, _, ⟨y, third, rfl⟩, _, ⟨z, fourth, rfl⟩, rfl⟩ := whole
    have spells := SpellsUnit.mk (hexDigit_of_digit first) (hexDigit_of_digit second)
      (hexDigit_of_digit third) (hexDigit_of_digit fourth)
    rw [Nat.zero_mul, Nat.zero_add]
    exact ⟨_, rfl, spells⟩
  · cases read

theorem SpellsUnit.lt (spells : SpellsUnit unit digits) : unit < 0x10000 := by
  have small {c : Char} {value : Nat} (hex : HexDigit c value) : value < 16 := by
    cases hex <;> omega
  obtain ⟨first, second, third, fourth⟩ := spells
  have := small first
  have := small second
  have := small third
  have := small fourth
  omega

theorem toNat_ofNat {value : Nat} (below : value < 0x110000) (apart : value < 0xD800 ∨ 0xDFFF < value) :
    (Char.ofNat value).toNat = value := by
  have valid : value.isValidChar := by
    rcases apart with low | high
    · exact .inl low
    · exact .inr ⟨high, below⟩
  rw [Char.ofNat, dif_pos valid]
  rfl

theorem readUnicode_spells (read : readUnicode text = some (c, rest)) :
    ∃ digits, text = digits ++ rest ∧ SpellsCharacter c ('\\' :: 'u' :: digits) := by
  obtain ⟨⟨unit, left⟩, first, whole⟩ := Option.bind_eq_some_iff.mp read
  obtain ⟨digits, rfl, spells⟩ := readUnit_spells first
  have below := spells.lt
  dsimp only at whole
  split at whole
  · cases whole
  · rename_i notLow
    simp only [isLowSurrogate, decide_eq_true_eq, not_and, Nat.not_le] at notLow
    split at whole
    · rename_i isHigh
      simp only [isHighSurrogate, decide_eq_true_eq] at isHigh
      split at whole
      · obtain ⟨⟨low, left⟩, second, paired⟩ := Option.bind_eq_some_iff.mp whole
        obtain ⟨others, rfl, lower⟩ := readUnit_spells second
        dsimp only at paired
        split at paired
        · rename_i isLow
          obtain ⟨rfl, rfl⟩ := Prod.mk.inj (Option.some.inj paired)
          simp only [isLowSurrogate, decide_eq_true_eq] at isLow
          have same := toNat_ofNat
            (by omega : 0x10000 + (unit - 0xD800) * 0x400 + (low - 0xDC00) < 0x110000) (by omega)
          have high : 0xD800 + ((Char.ofNat (0x10000 + (unit - 0xD800) * 0x400 +
              (low - 0xDC00))).toNat - 0x10000) / 0x400 = unit := by
            omega
          have rest : 0xDC00 + ((Char.ofNat (0x10000 + (unit - 0xD800) * 0x400 +
              (low - 0xDC00))).toNat - 0x10000) % 0x400 = low := by
            omega
          exact ⟨digits ++ '\\' :: 'u' :: others, by simp,
            .pair (by omega) (high.symm ▸ spells) (rest.symm ▸ lower)⟩
        · cases paired
      · cases whole
    · rename_i notHigh
      cases whole
      simp only [isHighSurrogate, decide_eq_true_eq, not_and, Nat.not_le] at notHigh
      have same := toNat_ofNat (by omega : unit < 0x110000) (by omega)
      exact ⟨digits, rfl, .unit (same.symm ▸ spells)⟩

theorem readCharacter_spells (read : readCharacter text = some (c, rest))
    (unquoted : text.head? ≠ some '"') :
    ∃ spelled, text = spelled ++ rest ∧ SpellsCharacter c spelled := by
  unfold readCharacter at read
  split at read
  · cases read
  · unfold readEscape at read
    split at read
    case h_9 =>
      obtain ⟨digits, rfl, spells⟩ := readUnicode_spells read
      exact ⟨_, rfl, spells⟩
    case h_10 => cases read
    all_goals
      cases read
      exact ⟨['\\', _], rfl, .short (by decide)⟩
  · rename_i unescaped
    split at read
    · cases read
    · rename_i printable
      cases read
      exact ⟨[_], rfl, .plain (by omega) (by simpa using unquoted) unescaped⟩

theorem readCharacters_spells (read : readCharacters bound text = some (value, rest)) :
    ∃ body, text = body ++ '"' :: rest ∧ SpellsCharacters value body := by
  induction bound generalizing text value with
  | zero =>
      unfold readCharacters at read
      split at read
      · cases read
        exact ⟨[], rfl, .nil⟩
      · cases read
      · contradiction
  | succ bound ih =>
      by_cases closed : ∃ left, text = '"' :: left
      · obtain ⟨left, rfl⟩ := closed
        cases read
        exact ⟨[], rfl, .nil⟩
      · rw [readCharacters] at read
        · obtain ⟨⟨c, left⟩, first, more⟩ := Option.bind_eq_some_iff.mp read
          obtain ⟨⟨others, last⟩, further, same⟩ := Option.bind_eq_some_iff.mp more
          cases same
          have unquoted : text.head? ≠ some '"' := fun head =>
            closed (List.head?_eq_some_iff.mp head)
          obtain ⟨spelled, rfl, spells⟩ := readCharacter_spells first unquoted
          obtain ⟨body, rfl, tail⟩ := ih further
          exact ⟨spelled ++ body, by simp, .cons spells tail⟩
        · exact fun left same => closed ⟨left, same⟩

/-- What a literal that begins with its quote stands for is what it spells up to the space behind it. -/
theorem unquote_spells {text : List Char} (read : unquote? (String.ofList ('"' :: text)) = some value) :
    ∃ body space, text = body ++ '"' :: space ∧ SpellsCharacters value.toList body := by
  have begins : ('"' :: text).dropWhile isBlank = '"' :: text := by simp [isBlank]
  simp only [unquote?, String.toList_ofList, begins] at read
  split at read
  · rename_i characters space found
    split at read
    · cases read
      obtain ⟨body, same, spells⟩ := readCharacters_spells found
      exact ⟨body, space, same, by simpa using spells⟩
    · cases read
  · cases read

end TokenGrammar.Json
