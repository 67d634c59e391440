import LineEditor.Text.Utf8

/-!
# Bytes and the text they encode

Bytes are UTF-8 if they are a row of characters, each a lead byte and the tail bytes that it asks
for. The encoder writes such bytes, and decoding them gives the text back, whether they are there as
a whole or arrive in chunks: a chunk ends between two characters, or inside one, and then the bytes
of that one are held until the next chunk.
-/

namespace LineEditor.Text.Utf8

/-- Tail bytes are within the ranges that a lead byte asks for. -/
inductive InRanges : List (UInt8 × UInt8) → List UInt8 → Prop where
  /-- Nothing is asked for. -/
  | nil : InRanges [] []
  /-- A byte in the first range, and others in the other ranges. -/
  | cons {low high b : UInt8} {ranges : List (UInt8 × UInt8)} {tail : List UInt8}
      (hlow : low ≤ b) (hhigh : b ≤ high) (htail : InRanges ranges tail) :
      InRanges ((low, high) :: ranges) (b :: tail)

/-- Bytes are the UTF-8 of a text. -/
inductive IsUtf8 : List UInt8 → List Char → Prop where
  /-- No bytes encode the empty text. -/
  | nil : IsUtf8 [] []
  /-- A lead byte and its tail bytes encode one character. -/
  | cons {lead : UInt8} {ranges : List (UInt8 × UInt8)} {tail bytes : List UInt8}
      {text : List Char} (hlead : tailRanges? lead = some ranges) (htail : InRanges ranges tail)
      (hbytes : IsUtf8 bytes text) :
      IsUtf8 (lead :: (tail ++ bytes)) (assemble lead tail :: text)

variable {ranges : List (UInt8 × UInt8)} {lead : UInt8} {tail held bytes : List UInt8}
  {text : List Char}

/-! ## Decoding -/

theorem InRanges.length_eq (h : InRanges ranges tail) : tail.length = ranges.length := by
  induction h with
  | nil => rfl
  | cons _ _ _ ih => rw [List.length_cons, List.length_cons, ih]

theorem InRanges.checkTail_append (h : InRanges ranges tail) (good : Nat) (bytes : List UInt8) :
    checkTail good ranges (tail ++ bytes) = .complete := by
  induction h generalizing good with
  | nil => cases bytes <;> rfl
  | cons hlow hhigh _ ih => simp [checkTail, hlow, hhigh, ih]

/-- A tail that ends too early is short of bytes and nothing else is wrong with it. -/
theorem InRanges.checkTail_of_append {others : List UInt8} (h : InRanges ranges (tail ++ others))
    (hothers : others ≠ []) (good : Nat) : checkTail good ranges tail = .short := by
  induction tail generalizing ranges good with
  | nil => cases h with
    | nil => exact absurd rfl hothers
    | cons => rfl
  | cons b tail ih => cases h with
    | cons hlow hhigh htail => simp [checkTail, hlow, hhigh, ih htail]

@[simp] theorem decodeFrom_nil (position : Nat) : decodeFrom position [] = ([], .complete) := by
  rw [decodeFrom]

theorem decodeFrom_cons (hlead : tailRanges? lead = some ranges) (htail : InRanges ranges tail)
    (position : Nat) (bytes : List UInt8) :
    decodeFrom position (lead :: (tail ++ bytes)) =
      (assemble lead tail :: (decodeFrom (position + 1 + ranges.length) bytes).1,
        (decodeFrom (position + 1 + ranges.length) bytes).2) := by
  rw [decodeFrom, hlead]
  dsimp only
  rw [htail.checkTail_append]
  dsimp only
  rw [← htail.length_eq, List.take_left, List.drop_left]

theorem decodeFrom_short (hlead : tailRanges? lead = some ranges)
    (hshort : checkTail 1 ranges bytes = .short) (position : Nat) :
    decodeFrom position (lead :: bytes) = ([], .unfinished (lead :: bytes)) := by
  rw [decodeFrom, hlead]
  dsimp only
  rw [hshort]

/-- Bytes are decoded to the text that they encode. -/
theorem IsUtf8.decodeFrom_eq (h : IsUtf8 bytes text) (position : Nat) :
    decodeFrom position bytes = (text, .complete) := by
  induction h generalizing position with
  | nil => exact decodeFrom_nil position
  | cons hlead htail _ ih => rw [decodeFrom_cons hlead htail, ih]

theorem IsUtf8.decode_eq (h : IsUtf8 bytes text) : decode bytes = .ok text := by
  rw [decode, h.decodeFrom_eq]

/-- The bytes of a character of which some are still to come. -/
def Held (held : List UInt8) : Prop :=
  ∀ position, decodeFrom position held = ([], .unfinished held)

/-- What comes before a cut is decoded up to the last character that is finished there. -/
theorem IsUtf8.decodeFrom_of_append {before after : List UInt8}
    (h : IsUtf8 (before ++ after) text) (position : Nat) :
    ∃ first second, text = first ++ second ∧
      (decodeFrom position before = (first, .complete) ∧ IsUtf8 after second ∨
        ∃ held, decodeFrom position before = (first, .unfinished held) ∧ Held held ∧
          IsUtf8 (held ++ after) second) := by
  generalize hwhole : before ++ after = whole at h
  induction h generalizing before position with
  | nil =>
    obtain ⟨rfl, rfl⟩ := List.append_eq_nil_iff.1 hwhole
    exact ⟨[], [], rfl, .inl ⟨decodeFrom_nil position, .nil⟩⟩
  | @cons lead ranges tail bytes text hlead htail hbytes ih =>
    cases before with
    | nil =>
      rw [List.nil_append] at hwhole
      rw [hwhole]
      exact ⟨[], _, rfl, .inl ⟨decodeFrom_nil position, .cons hlead htail hbytes⟩⟩
    | cons b before =>
      obtain rfl : b = lead := (List.cons.inj hwhole).1
      have hrest : before ++ after = tail ++ bytes := (List.cons.inj hwhole).2
      rcases List.append_eq_append_iff.1 hrest with ⟨missing, htails, hafter⟩ | ⟨more, rfl, rfl⟩
      · by_cases hmissing : missing = []
        -- the cut is right after the character
        · obtain rfl : tail = before := by rw [htails, hmissing, List.append_nil]
          obtain rfl : after = bytes := by rw [hafter, hmissing, List.nil_append]
          refine ⟨[assemble b tail], text, rfl, .inl ⟨?_, hbytes⟩⟩
          have hdecode := decodeFrom_cons hlead htail position []
          rwa [List.append_nil, decodeFrom_nil] at hdecode
        -- the cut is inside the character
        · have hshort := InRanges.checkTail_of_append (htails ▸ htail) hmissing 1
          have hheld : Held (b :: before) := decodeFrom_short hlead hshort
          refine ⟨[], _, rfl, .inr ⟨b :: before, hheld position, hheld, ?_⟩⟩
          rw [List.cons_append, hrest]
          exact .cons hlead htail hbytes
      -- the cut is after more characters
      · obtain ⟨first, second, rfl, hcases⟩ := ih (position + 1 + ranges.length) rfl
        refine ⟨assemble b tail :: first, second, rfl, ?_⟩
        rw [decodeFrom_cons hlead htail]
        rcases hcases with ⟨hdecode, hsecond⟩ | ⟨held, hdecode, hheld, hsecond⟩
        · rw [hdecode]
          exact .inl ⟨rfl, hsecond⟩
        · rw [hdecode]
          exact .inr ⟨held, rfl, hheld, hsecond⟩

/-- Bytes that arrive in chunks are decoded as they are as a whole. -/
theorem IsUtf8.decodeChunks_eq {chunks : List (List UInt8)} (hheld : held = [] ∨ Held held)
    (h : IsUtf8 (held ++ chunks.flatten) text) : decodeChunks held chunks = (text, none) := by
  induction chunks generalizing held text with
  | nil =>
    rw [List.flatten_nil, List.append_nil] at h
    rcases hheld with rfl | hheld
    · cases h
      rfl
    · have hdecode := h.decodeFrom_eq 0
      rw [hheld 0] at hdecode
      cases hdecode
  | cons chunk chunks ih =>
    rw [List.flatten_cons, ← List.append_assoc] at h
    obtain ⟨first, second, rfl, ⟨hdecode, hsecond⟩ | ⟨rest, hdecode, hrest, hsecond⟩⟩ :=
      h.decodeFrom_of_append 0
    · rw [decodeChunks, hdecode]
      dsimp only
      rw [ih (.inl rfl) hsecond]
    · rw [decodeChunks, hdecode]
      dsimp only
      rw [ih (.inr hrest) hsecond]

/-! ## Encoding -/

theorem toNat_toUInt8 {n : Nat} (h : n < 256) : n.toUInt8.toNat = n := by
  rw [Nat.toUInt8_eq, UInt8.toNat_ofNat', Nat.mod_eq_of_lt h]

theorem toNat_tailByte (n : Nat) : (tailByte n).toNat = 128 + n % 64 :=
  toNat_toUInt8 (by omega)

/-- The ranges of tail bytes, by the number that a lead byte is. -/
theorem tailRanges?_toUInt8 {n : Nat} (h : n < 256) :
    tailRanges? n.toUInt8 =
      if n < 0x80 then some []
      else if n < 0xC2 then none
      else if n < 0xE0 then some [(0x80, 0xBF)]
      else if n = 0xE0 then some [(0xA0, 0xBF), (0x80, 0xBF)]
      else if n = 0xED then some [(0x80, 0x9F), (0x80, 0xBF)]
      else if n < 0xF0 then some [(0x80, 0xBF), (0x80, 0xBF)]
      else if n = 0xF0 then some [(0x90, 0xBF), (0x80, 0xBF), (0x80, 0xBF)]
      else if n < 0xF4 then some [(0x80, 0xBF), (0x80, 0xBF), (0x80, 0xBF)]
      else if n = 0xF4 then some [(0x80, 0x8F), (0x80, 0xBF), (0x80, 0xBF)]
      else none := by
  simp only [tailRanges?, UInt8.lt_iff_toNat_lt, ← UInt8.toNat_inj, toNat_toUInt8 h]
  rfl

theorem inRanges_tailByte_cons (low high : UInt8) {n : Nat} (hlow : low.toNat ≤ 128 + n % 64)
    (hhigh : 128 + n % 64 ≤ high.toNat) (h : InRanges ranges tail) :
    InRanges ((low, high) :: ranges) (tailByte n :: tail) :=
  .cons (by rwa [UInt8.le_iff_toNat_le, toNat_tailByte])
    (by rwa [UInt8.le_iff_toNat_le, toNat_tailByte]) h

/-- A tail byte is in the widest range. -/
theorem inRanges_tailByte (n : Nat) (h : InRanges ranges tail) :
    InRanges ((0x80, 0xBF) :: ranges) (tailByte n :: tail) := by
  refine inRanges_tailByte_cons _ _ (Nat.le_add_right _ _) ?_ h
  change 128 + n % 64 ≤ 191
  omega

/-- The lead byte of two asks for the tail byte that follows it. -/
theorem inRanges_of_two {n : Nat} (hmin : 0x80 ≤ n) (hmax : n < 0x800) :
    ∃ ranges, tailRanges? (0xC0 + n / 64).toUInt8 = some ranges ∧
      InRanges ranges [tailByte n] := by
  refine ⟨_, ?_, inRanges_tailByte n .nil⟩
  rw [tailRanges?_toUInt8 (by omega), if_neg (by omega), if_neg (by omega), if_pos (by omega)]

/-- The lead byte of three asks for the two that follow it: the first of them is in a narrower range
where fewer bytes would do, and where surrogates are left out. -/
theorem inRanges_of_three {n : Nat} (hmin : 0x800 ≤ n) (hmax : n < 0x10000)
    (hsurrogate : n < 0xD800 ∨ 0xDFFF < n) :
    ∃ ranges, tailRanges? (0xE0 + n / 4096).toUInt8 = some ranges ∧
      InRanges ranges [tailByte (n / 64), tailByte n] := by
  rw [tailRanges?_toUInt8 (by omega), if_neg (by omega), if_neg (by omega), if_neg (by omega)]
  have hlast := inRanges_tailByte n .nil
  by_cases hfirst : n / 4096 = 0
  · rw [if_pos (by omega)]
    refine ⟨_, rfl, inRanges_tailByte_cons _ _ ?_ ?_ hlast⟩
    · change 160 ≤ 128 + n / 64 % 64
      omega
    · change 128 + n / 64 % 64 ≤ 191
      omega
  · rw [if_neg (by omega)]
    by_cases hnear : n / 4096 = 13
    · rw [if_pos (by omega)]
      refine ⟨_, rfl, inRanges_tailByte_cons _ _ (Nat.le_add_right _ _) ?_ hlast⟩
      change 128 + n / 64 % 64 ≤ 159
      omega
    · rw [if_neg (by omega), if_pos (by omega)]
      exact ⟨_, rfl, inRanges_tailByte (n / 64) hlast⟩

/-- The lead byte of four asks for the three that follow it: the first of them is in a narrower
range where fewer bytes would do, and where the code points end. -/
theorem inRanges_of_four {n : Nat} (hmin : 0x10000 ≤ n) (hmax : n < 0x110000) :
    ∃ ranges, tailRanges? (0xF0 + n / 262144).toUInt8 = some ranges ∧
      InRanges ranges [tailByte (n / 4096), tailByte (n / 64), tailByte n] := by
  rw [tailRanges?_toUInt8 (by omega), if_neg (by omega), if_neg (by omega), if_neg (by omega),
    if_neg (by omega), if_neg (by omega), if_neg (by omega)]
  have hlast := inRanges_tailByte (n / 64) (inRanges_tailByte n .nil)
  by_cases hfirst : n / 262144 = 0
  · rw [if_pos (by omega)]
    refine ⟨_, rfl, inRanges_tailByte_cons _ _ ?_ ?_ hlast⟩
    · change 144 ≤ 128 + n / 4096 % 64
      omega
    · change 128 + n / 4096 % 64 ≤ 191
      omega
  · rw [if_neg (by omega)]
    by_cases hend : n / 262144 = 4
    · rw [if_neg (by omega), if_pos (by omega)]
      refine ⟨_, rfl, inRanges_tailByte_cons _ _ (Nat.le_add_right _ _) ?_ hlast⟩
      change 128 + n / 4096 % 64 ≤ 143
      omega
    · rw [if_pos (by omega)]
      exact ⟨_, rfl, inRanges_tailByte (n / 4096) hlast⟩

/-- The character that a lead byte and tail bytes encode, by the number that they spell. -/
theorem assemble_eq {c : Char}
    (h : tail.foldl (fun n b => 64 * n + b.toNat % 64) (leadBits tail.length lead) = c.toNat) :
    assemble lead tail = c := by
  rw [assemble, h, Char.ofNat_toNat]

theorem isUtf8_encodeChar (c : Char) (h : IsUtf8 bytes text) :
    IsUtf8 (encodeChar c ++ bytes) (c :: text) := by
  suffices ∃ lead ranges tail, encodeChar c = lead :: tail ∧ tailRanges? lead = some ranges ∧
      InRanges ranges tail ∧ assemble lead tail = c by
    obtain ⟨lead, ranges, tail, heq, hlead, htail, hchar⟩ := this
    have hcons := IsUtf8.cons hlead htail h
    rwa [hchar, ← List.cons_append, ← heq] at hcons
  have hvalid : c.toNat < 0xD800 ∨ 0xDFFF < c.toNat ∧ c.toNat < 0x110000 := c.valid
  unfold encodeChar
  dsimp only
  split
  · have hlead : c.toNat.toUInt8.toNat = c.toNat := toNat_toUInt8 (by omega)
    refine ⟨_, [], _, rfl, ?_, .nil, assemble_eq hlead⟩
    rw [tailRanges?_toUInt8 (by omega), if_pos (by omega)]
  split
  · obtain ⟨ranges, hlead, htail⟩ := inRanges_of_two (n := c.toNat) (by omega) (by omega)
    refine ⟨_, ranges, _, rfl, hlead, htail, assemble_eq ?_⟩
    change 64 * ((0xC0 + c.toNat / 64).toUInt8.toNat % 32) + (tailByte c.toNat).toNat % 64 = _
    rw [toNat_toUInt8 (by omega), toNat_tailByte]
    omega
  split
  · obtain ⟨ranges, hlead, htail⟩ :=
      inRanges_of_three (n := c.toNat) (by omega) (by omega) (by omega)
    refine ⟨_, ranges, _, rfl, hlead, htail, assemble_eq ?_⟩
    change 64 * (64 * ((0xE0 + c.toNat / 4096).toUInt8.toNat % 16) +
      (tailByte (c.toNat / 64)).toNat % 64) + (tailByte c.toNat).toNat % 64 = _
    rw [toNat_toUInt8 (by omega), toNat_tailByte, toNat_tailByte]
    omega
  · obtain ⟨ranges, hlead, htail⟩ := inRanges_of_four (n := c.toNat) (by omega) (by omega)
    refine ⟨_, ranges, _, rfl, hlead, htail, assemble_eq ?_⟩
    change 64 * (64 * (64 * ((0xF0 + c.toNat / 262144).toUInt8.toNat % 8) +
      (tailByte (c.toNat / 4096)).toNat % 64) + (tailByte (c.toNat / 64)).toNat % 64) +
        (tailByte c.toNat).toNat % 64 = _
    rw [toNat_toUInt8 (by omega), toNat_tailByte, toNat_tailByte, toNat_tailByte]
    omega

/-- The encoder writes the UTF-8 of a text. -/
theorem isUtf8_encode (text : List Char) : IsUtf8 (encode text) text := by
  induction text with
  | nil => exact .nil
  | cons c text ih =>
    rw [encode, List.flatMap_cons]
    exact isUtf8_encodeChar c ih

theorem length_encode_le {first second : List Char} (h : first.Sublist second) :
    (encode first).length ≤ (encode second).length := by
  induction h with
  | slnil => exact Nat.le_refl _
  | cons c _ ih =>
    rw [encode, encode, List.flatMap_cons, List.length_append]
    exact Nat.le_trans ih (Nat.le_add_left _ _)
  | cons_cons c _ ih =>
    rw [encode, encode, List.flatMap_cons, List.flatMap_cons, List.length_append,
      List.length_append]
    exact Nat.add_le_add_left ih _

@[simp] theorem decode_encode (text : List Char) : decode (encode text) = .ok text :=
  (isUtf8_encode text).decode_eq

end LineEditor.Text.Utf8
