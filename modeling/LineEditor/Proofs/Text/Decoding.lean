import LineEditor.Proofs.Text.Utf8

/-!
# What can be decoded

Bytes are decoded to their end only if they are UTF-8, and UTF-8 is what the encoder writes and
nothing else: no character has a second encoding, and no surrogate has one. So decoding stops at an
error exactly on bytes that no text is encoded as.
-/

namespace LineEditor.Text.Utf8

variable {ranges : List (UInt8 × UInt8)} {lead : UInt8} {tail held bytes : List UInt8}
  {text : List Char}

/-! ## Decoded bytes are UTF-8 -/

theorem IsUtf8.append {others : List UInt8} {more : List Char} (h : IsUtf8 bytes text)
    (hmore : IsUtf8 others more) : IsUtf8 (bytes ++ others) (text ++ more) := by
  induction h with
  | nil => exact hmore
  | cons hlead htail _ ih =>
    rw [List.cons_append, List.append_assoc, List.cons_append]
    exact .cons hlead htail ih

/-- A tail that is complete begins with as many bytes as the lead byte asks for. -/
theorem inRanges_of_checkTail {good : Nat} (h : checkTail good ranges bytes = .complete) :
    InRanges ranges (bytes.take ranges.length) := by
  induction ranges generalizing good bytes with
  | nil => exact .nil
  | cons range ranges ih =>
    obtain ⟨low, high⟩ := range
    cases bytes with
    | nil => cases h
    | cons b bytes =>
      rw [checkTail] at h
      split at h
      · rename_i hb
        obtain ⟨hlow, hhigh⟩ := Bool.and_eq_true_iff.1 hb
        exact .cons (of_decide_eq_true hlow) (of_decide_eq_true hhigh) (ih h)
      · cases h

/-- The characters that are decoded are encoded by what precedes the end: all bytes, or those before
a character that is not finished. -/
theorem isUtf8_of_decodeFrom {position : Nat} {ending : Ending}
    (h : decodeFrom position bytes = (text, ending)) :
    (ending = .complete → IsUtf8 bytes text) ∧
      ∀ rest, ending = .unfinished rest → ∃ front, bytes = front ++ rest ∧ IsUtf8 front text := by
  -- The cases that decode nothing are the end, a bad lead byte, and a tail that is cut or bad.
  fun_induction decodeFrom position bytes generalizing text ending with
  | case1 position =>
    cases h
    exact ⟨fun _ => .nil, nofun⟩
  | case2 | case4 =>
    cases h
    exact ⟨nofun, nofun⟩
  | case3 =>
    cases h
    refine ⟨nofun, ?_⟩
    rintro rest ⟨⟩
    exact ⟨[], rfl, .nil⟩
  | case5 position lead bytes ranges hlead hcheck _ _ _ hrest =>
    rename_i ih
    cases h
    obtain ⟨hcomplete, hunfinished⟩ := ih hrest
    have htail := inRanges_of_checkTail hcheck
    have hsplit : bytes.take ranges.length ++ bytes.drop ranges.length = bytes :=
      List.take_append_drop _ _
    refine ⟨?_, ?_⟩
    · intro hending
      have hcons := IsUtf8.cons hlead htail (hcomplete hending)
      rwa [hsplit] at hcons
    · intro rest hending
      obtain ⟨front, hfront, hutf8⟩ := hunfinished rest hending
      refine ⟨lead :: (bytes.take ranges.length ++ front), ?_, .cons hlead htail hutf8⟩
      rw [List.cons_append, List.append_assoc, ← hfront, hsplit]

/-- Chunks that are decoded without an error are UTF-8 when put together. -/
theorem isUtf8_of_decodeChunks {chunks : List (List UInt8)}
    (h : decodeChunks held chunks = (text, none)) : IsUtf8 (held ++ chunks.flatten) text := by
  induction chunks generalizing held text with
  | nil =>
    rw [decodeChunks] at h
    split at h
    · rename_i hheld
      cases h
      rw [List.isEmpty_iff.1 hheld]
      exact .nil
    · cases h
  | cons chunk chunks ih =>
    rw [List.flatten_cons, ← List.append_assoc]
    rw [decodeChunks] at h
    split at h
    · cases h
    · rename_i chars rest hdecode
      obtain ⟨hmore, herror⟩ := Prod.mk.inj h
      obtain ⟨front, hfront, hutf8⟩ := (isUtf8_of_decodeFrom hdecode).2 rest rfl
      rw [hfront, ← hmore, List.append_assoc]
      exact hutf8.append (ih (Prod.ext rfl herror))
    · rename_i chars hdecode
      obtain ⟨hmore, herror⟩ := Prod.mk.inj h
      rw [← hmore]
      exact ((isUtf8_of_decodeFrom hdecode).1 rfl).append (ih (Prod.ext rfl herror))

/-! ## UTF-8 is what the encoder writes -/

theorem toNat_assemble {n : Nat}
    (h : tail.foldl (fun n b => 64 * n + b.toNat % 64) (leadBits tail.length lead) = n)
    (hvalid : n < 0xD800 ∨ 0xDFFF < n ∧ n < 0x110000) : (assemble lead tail).toNat = n := by
  rw [assemble, h, Char.ofNat, dif_pos hvalid]
  rfl

theorem toUInt8_eq {n : Nat} {b : UInt8} (h : n = b.toNat) : n.toUInt8 = b := by
  rw [h, Nat.toUInt8_eq, UInt8.ofNat_toNat]

theorem tailByte_eq {n : Nat} {b : UInt8} (h : 128 + n % 64 = b.toNat) : tailByte n = b :=
  toUInt8_eq h

/-- A tail for some ranges has a byte in the first of them, and a tail for the others. -/
theorem InRanges.exists_of_cons {low high : UInt8} (h : InRanges ((low, high) :: ranges) tail) :
    ∃ b rest, tail = b :: rest ∧ low.toNat ≤ b.toNat ∧ b.toNat ≤ high.toNat ∧
      InRanges ranges rest := by
  cases h with
  | cons hlow hhigh hrest =>
    exact ⟨_, _, rfl, UInt8.le_iff_toNat_le.1 hlow, UInt8.le_iff_toNat_le.1 hhigh, hrest⟩

theorem InRanges.eq_nil (h : InRanges [] tail) : tail = [] := by
  cases h with
  | nil => rfl

section Lengths

variable {a b c d : UInt8}

theorem encodeChar_assemble_one (ha : a.toNat < 0x80) : encodeChar (assemble a []) = [a] := by
  have hvalue : (assemble a []).toNat = a.toNat := toNat_assemble rfl (Or.inl (by omega))
  unfold encodeChar
  dsimp only
  rw [hvalue, if_pos ha, toUInt8_eq rfl]

theorem encodeChar_assemble_two (hmin : 0xC2 ≤ a.toNat) (hmax : a.toNat < 0xE0)
    (hb : 0x80 ≤ b.toNat) (hb' : b.toNat ≤ 0xBF) : encodeChar (assemble a [b]) = [a, b] := by
  have hvalue : (assemble a [b]).toNat = 64 * (a.toNat % 32) + b.toNat % 64 :=
    toNat_assemble rfl (Or.inl (by omega))
  generalize hn : 64 * (a.toNat % 32) + b.toNat % 64 = n at hvalue
  have hlead : (0xC0 + n / 64).toUInt8 = a := toUInt8_eq (by omega)
  have hlast : tailByte n = b := tailByte_eq (by omega)
  unfold encodeChar
  dsimp only
  rw [hvalue, if_neg (by omega), if_pos (by omega), hlead, hlast]

/-- The first tail byte keeps the character from being one of fewer bytes, and a surrogate. -/
theorem encodeChar_assemble_three (hmin : 0xE0 ≤ a.toNat) (hmax : a.toNat < 0xF0)
    (hb : 0x80 ≤ b.toNat) (hb' : b.toNat ≤ 0xBF) (hc : 0x80 ≤ c.toNat) (hc' : c.toNat ≤ 0xBF)
    (hfirst : a.toNat = 0xE0 → 0xA0 ≤ b.toNat) (hnear : a.toNat = 0xED → b.toNat ≤ 0x9F) :
    encodeChar (assemble a [b, c]) = [a, b, c] := by
  have hvalue : (assemble a [b, c]).toNat =
      64 * (64 * (a.toNat % 16) + b.toNat % 64) + c.toNat % 64 :=
    toNat_assemble rfl (by omega)
  generalize hn : 64 * (64 * (a.toNat % 16) + b.toNat % 64) + c.toNat % 64 = n at hvalue
  have hlead : (0xE0 + n / 4096).toUInt8 = a := toUInt8_eq (by omega)
  have hmiddle : tailByte (n / 64) = b := tailByte_eq (by omega)
  have hlast : tailByte n = c := tailByte_eq (by omega)
  unfold encodeChar
  dsimp only
  rw [hvalue, if_neg (by omega), if_neg (by omega), if_pos (by omega), hlead, hmiddle, hlast]

/-- The first tail byte keeps the character from being one of fewer bytes, and within the code
points. -/
theorem encodeChar_assemble_four (hmin : 0xF0 ≤ a.toNat) (hmax : a.toNat ≤ 0xF4)
    (hb : 0x80 ≤ b.toNat) (hb' : b.toNat ≤ 0xBF) (hc : 0x80 ≤ c.toNat) (hc' : c.toNat ≤ 0xBF)
    (hd : 0x80 ≤ d.toNat) (hd' : d.toNat ≤ 0xBF)
    (hfirst : a.toNat = 0xF0 → 0x90 ≤ b.toNat) (hend : a.toNat = 0xF4 → b.toNat ≤ 0x8F) :
    encodeChar (assemble a [b, c, d]) = [a, b, c, d] := by
  have hvalue : (assemble a [b, c, d]).toNat =
      64 * (64 * (64 * (a.toNat % 8) + b.toNat % 64) + c.toNat % 64) + d.toNat % 64 :=
    toNat_assemble rfl (by omega)
  generalize hn :
    64 * (64 * (64 * (a.toNat % 8) + b.toNat % 64) + c.toNat % 64) + d.toNat % 64 = n at hvalue
  have hlead : (0xF0 + n / 262144).toUInt8 = a := toUInt8_eq (by omega)
  have hsecond : tailByte (n / 4096) = b := tailByte_eq (by omega)
  have hthird : tailByte (n / 64) = c := tailByte_eq (by omega)
  have hlast : tailByte n = d := tailByte_eq (by omega)
  unfold encodeChar
  dsimp only
  rw [hvalue, if_neg (by omega), if_neg (by omega), if_neg (by omega), hlead, hsecond, hthird,
    hlast]

end Lengths

/-- The tail of two bytes for a first range and the widest one. -/
theorem InRanges.exists_two {low high : UInt8} (h : InRanges [(low, high), (0x80, 0xBF)] tail) :
    ∃ b c, tail = [b, c] ∧ low.toNat ≤ b.toNat ∧ b.toNat ≤ high.toNat ∧ 0x80 ≤ c.toNat ∧
      c.toNat ≤ 0xBF := by
  obtain ⟨b, rest, rfl, hlow, hhigh, hrest⟩ := h.exists_of_cons
  obtain ⟨c, rest, rfl, hc, hc', hrest⟩ := hrest.exists_of_cons
  obtain rfl := hrest.eq_nil
  exact ⟨b, c, rfl, hlow, hhigh, hc, hc'⟩

theorem InRanges.exists_three {low high : UInt8}
    (h : InRanges [(low, high), (0x80, 0xBF), (0x80, 0xBF)] tail) :
    ∃ b c d, tail = [b, c, d] ∧ low.toNat ≤ b.toNat ∧ b.toNat ≤ high.toNat ∧ 0x80 ≤ c.toNat ∧
      c.toNat ≤ 0xBF ∧ 0x80 ≤ d.toNat ∧ d.toNat ≤ 0xBF := by
  obtain ⟨b, rest, rfl, hlow, hhigh, hrest⟩ := h.exists_of_cons
  obtain ⟨c, d, rfl, hc, hc', hd, hd'⟩ := hrest.exists_two
  exact ⟨b, c, d, rfl, hlow, hhigh, hc, hc', hd, hd'⟩

/-- A lead byte and its tail bytes are the bytes of the character that they encode. -/
theorem encodeChar_assemble (hlead : tailRanges? lead = some ranges)
    (htail : InRanges ranges tail) : encodeChar (assemble lead tail) = lead :: tail := by
  -- As a number the lead byte has cases that can be compared with the bounds of the encoder.
  have hnumber : lead.toNat.toUInt8 = lead := toUInt8_eq rfl
  rw [← hnumber, tailRanges?_toUInt8 lead.toNat_lt] at hlead
  split at hlead
  · cases hlead
    rw [htail.eq_nil]
    exact encodeChar_assemble_one ‹_›
  split at hlead
  · cases hlead
  split at hlead
  · cases hlead
    obtain ⟨b, rest, rfl, hb, hb', hrest⟩ := htail.exists_of_cons
    rw [hrest.eq_nil]
    exact encodeChar_assemble_two (by omega) (by omega) hb hb'
  -- three bytes, after the lowest lead byte, the one before the surrogates, and the others
  split at hlead
  · cases hlead
    obtain ⟨b, c, rfl, hb, hb', hc, hc'⟩ := htail.exists_two
    have hfirst : 160 ≤ b.toNat := hb
    exact encodeChar_assemble_three (by omega) (by omega) (by omega) hb' hc hc' (by omega)
      (by omega)
  split at hlead
  · cases hlead
    obtain ⟨b, c, rfl, hb, hb', hc, hc'⟩ := htail.exists_two
    have hnear : b.toNat ≤ 159 := hb'
    exact encodeChar_assemble_three (by omega) (by omega) hb (by omega) hc hc' (by omega) (by omega)
  split at hlead
  · cases hlead
    obtain ⟨b, c, rfl, hb, hb', hc, hc'⟩ := htail.exists_two
    exact encodeChar_assemble_three (by omega) (by omega) hb hb' hc hc' (by omega) (by omega)
  -- four bytes, after the lowest lead byte, the highest one, and those between
  split at hlead
  · cases hlead
    obtain ⟨b, c, d, rfl, hb, hb', hc, hc', hd, hd'⟩ := htail.exists_three
    have hfirst : 144 ≤ b.toNat := hb
    exact encodeChar_assemble_four (by omega) (by omega) (by omega) hb' hc hc' hd hd' (by omega)
      (by omega)
  split at hlead
  · cases hlead
    obtain ⟨b, c, d, rfl, hb, hb', hc, hc', hd, hd'⟩ := htail.exists_three
    exact encodeChar_assemble_four (by omega) (by omega) hb hb' hc hc' hd hd' (by omega) (by omega)
  split at hlead
  · cases hlead
    obtain ⟨b, c, d, rfl, hb, hb', hc, hc', hd, hd'⟩ := htail.exists_three
    have hend : b.toNat ≤ 143 := hb'
    exact encodeChar_assemble_four (by omega) (by omega) hb (by omega) hc hc' hd hd' (by omega)
      (by omega)
  · cases hlead

/-- Bytes that are UTF-8 are what the encoder writes for the text. -/
theorem IsUtf8.eq_encode (h : IsUtf8 bytes text) : bytes = encode text := by
  induction h with
  | nil => rfl
  | cons hlead htail _ ih =>
    rw [encode, List.flatMap_cons, encodeChar_assemble hlead htail, List.cons_append, ih]
    rfl

theorem isUtf8_iff : IsUtf8 bytes text ↔ bytes = encode text := by
  constructor
  · exact IsUtf8.eq_encode
  · rintro rfl
    exact isUtf8_encode text

end LineEditor.Text.Utf8
