import LineCensus.Proofs.ByteSearch

/-!
# Reading what is written in UTF-8

A character that is written is the one that is read, whatever bytes follow it (`takeChar_encodeChar`): its first
byte tells how many others belong to it, and these lie in the ranges that the first one allows. So a text is read
back from its bytes (`decode?_encode`).
-/

namespace LineCensus.Utf8

/-- Characters are not numbered as halves of surrogate pairs. -/
theorem toNat_lt_or_le (c : Char) : c.toNat < 0xd800 ∨ 0xe000 ≤ c.toNat := by
  rcases c.valid with h | ⟨h, -⟩
  · exact .inl h
  · exact .inr h

/-- What a first byte says, by its number. -/
theorem lead?_toUInt8 {n : Nat} (hn : n < 256) : lead? n.toUInt8 =
    if 0xc2 ≤ n ∧ n ≤ 0xdf then some ⟨2, 0x80, 0xbf⟩
    else if n = 0xe0 then some ⟨3, 0xa0, 0xbf⟩
    else if n = 0xed then some ⟨3, 0x80, 0x9f⟩
    else if 0xe1 ≤ n ∧ n ≤ 0xef then some ⟨3, 0x80, 0xbf⟩
    else if n = 0xf0 then some ⟨4, 0x90, 0xbf⟩
    else if 0xf1 ≤ n ∧ n ≤ 0xf3 then some ⟨4, 0x80, 0xbf⟩
    else if n = 0xf4 then some ⟨4, 0x80, 0x8f⟩
    else none := by
  simp only [lead?, UInt8.le_iff_toNat_le, ← UInt8.toNat_inj, toNat_toUInt8 hn, UInt8.reduceToNat]

theorem takeChar_one {n : Nat} (h : n < 0x80) (rest : List UInt8) :
    takeChar n.toUInt8 rest = (some (Char.ofNat n), rest) := by
  have hn : n < 256 := by omega
  simp only [takeChar, UInt8.lt_iff_toNat_lt, toNat_toUInt8 hn, UInt8.reduceToNat]
  rw [if_pos h]

theorem not_lt_toUInt8 {n : Nat} (h : 0x80 ≤ n) (hn : n < 256) : ¬ n.toUInt8 < 0x80 := by
  simp only [UInt8.lt_iff_toNat_lt, toNat_toUInt8 hn, UInt8.reduceToNat]
  omega

theorem extend_toUInt8 (m : Nat) {n : Nat} (hn : n < 256) : extend m n.toUInt8 = m * 0x40 + (n - 0x80) := by
  have h := toNat_toUInt8 hn
  unfold extend
  omega

theorem le_toUInt8_le {low high : UInt8} {n : Nat} (hn : n < 256) (h : low.toNat ≤ n ∧ n ≤ high.toNat) :
    low ≤ n.toUInt8 ∧ n.toUInt8 ≤ high := by
  simpa only [UInt8.le_iff_toNat_le, toNat_toUInt8 hn] using h

theorem isTail_of_le {n : Nat} (h : 0x80 ≤ n ∧ n ≤ 0xbf) : isTail n.toUInt8 = true :=
  (isTail_toUInt8 (by omega)).2 h

section Characters

variable {a b c d : Nat} {low high : UInt8}

theorem takeChar_two (ha : 0x80 ≤ a ∧ a < 256) (hlead : lead? a.toUInt8 = some ⟨2, low, high⟩)
    (hb : low.toNat ≤ b ∧ b ≤ high.toNat) (hb' : b < 256) (rest : List UInt8) :
    takeChar a.toUInt8 (b.toUInt8 :: rest) = (some (Char.ofNat ((a - 0xc0) * 0x40 + (b - 0x80))), rest) := by
  rw [takeChar, if_neg (not_lt_toUInt8 ha.1 ha.2), hlead]
  simp only [le_toUInt8_le hb' hb, and_self, not_true_eq_false, if_false, if_true, toNat_toUInt8 ha.2,
    extend_toUInt8 _ hb']

theorem takeChar_three (ha : 0x80 ≤ a ∧ a < 256) (hlead : lead? a.toUInt8 = some ⟨3, low, high⟩)
    (hb : low.toNat ≤ b ∧ b ≤ high.toNat) (hb' : b < 256) (hc : 0x80 ≤ c ∧ c ≤ 0xbf) (rest : List UInt8) :
    takeChar a.toUInt8 (b.toUInt8 :: c.toUInt8 :: rest) =
      (some (Char.ofNat (((a - 0xe0) * 0x40 + (b - 0x80)) * 0x40 + (c - 0x80))), rest) := by
  have hc' : c < 256 := by omega
  rw [takeChar, if_neg (not_lt_toUInt8 ha.1 ha.2), hlead]
  simp only [le_toUInt8_le hb' hb, isTail_of_le hc, and_self, not_true_eq_false, if_false, if_true,
    toNat_toUInt8 ha.2, extend_toUInt8 _ hb', extend_toUInt8 _ hc', Nat.reduceEqDiff]

theorem takeChar_four (ha : 0x80 ≤ a ∧ a < 256) (hlead : lead? a.toUInt8 = some ⟨4, low, high⟩)
    (hb : low.toNat ≤ b ∧ b ≤ high.toNat) (hb' : b < 256) (hc : 0x80 ≤ c ∧ c ≤ 0xbf) (hd : 0x80 ≤ d ∧ d ≤ 0xbf)
    (rest : List UInt8) :
    takeChar a.toUInt8 (b.toUInt8 :: c.toUInt8 :: d.toUInt8 :: rest) =
      (some (Char.ofNat ((((a - 0xf0) * 0x40 + (b - 0x80)) * 0x40 + (c - 0x80)) * 0x40 + (d - 0x80))), rest) := by
  have hc' : c < 256 := by omega
  have hd' : d < 256 := by omega
  rw [takeChar, if_neg (not_lt_toUInt8 ha.1 ha.2), hlead]
  simp only [le_toUInt8_le hb' hb, isTail_of_le hc, isTail_of_le hd, and_self, not_true_eq_false, if_false,
    toNat_toUInt8 ha.2, extend_toUInt8 _ hb', extend_toUInt8 _ hc', extend_toUInt8 _ hd', Nat.reduceEqDiff]

/-- The second byte of three is such that the character has no shorter form and is no half of a pair. -/
theorem exists_lead_three (ha : 0xe0 ≤ a ∧ a ≤ 0xef) (hb : 0x80 ≤ b ∧ b ≤ 0xbf) (hshort : a = 0xe0 → 0xa0 ≤ b)
    (hpair : a = 0xed → b ≤ 0x9f) :
    ∃ low high, lead? a.toUInt8 = some ⟨3, low, high⟩ ∧ low.toNat ≤ b ∧ b ≤ high.toNat := by
  rw [lead?_toUInt8 (by omega), if_neg (by omega)]
  by_cases h₁ : a = 0xe0
  · exact ⟨_, _, if_pos h₁, hshort h₁, hb.2⟩
  · rw [if_neg h₁]
    by_cases h₂ : a = 0xed
    · exact ⟨_, _, if_pos h₂, hb.1, hpair h₂⟩
    · rw [if_neg h₂]
      exact ⟨_, _, if_pos (by omega), hb⟩

/-- The second byte of four is such that the character has no shorter form and is not beyond the last one. -/
theorem exists_lead_four (ha : 0xf0 ≤ a ∧ a ≤ 0xf4) (hb : 0x80 ≤ b ∧ b ≤ 0xbf) (hshort : a = 0xf0 → 0x90 ≤ b)
    (hlast : a = 0xf4 → b ≤ 0x8f) :
    ∃ low high, lead? a.toUInt8 = some ⟨4, low, high⟩ ∧ low.toNat ≤ b ∧ b ≤ high.toNat := by
  rw [lead?_toUInt8 (by omega), if_neg (by omega), if_neg (by omega), if_neg (by omega), if_neg (by omega)]
  by_cases h₁ : a = 0xf0
  · exact ⟨_, _, if_pos h₁, hshort h₁, hb.2⟩
  · rw [if_neg h₁]
    by_cases h₂ : a = 0xf4
    · rw [if_neg (by omega)]
      exact ⟨_, _, if_pos h₂, hb.1, hlast h₂⟩
    · exact ⟨_, _, if_pos (by omega), hb⟩

end Characters

/-- A character is read back from its bytes, whatever follows them. -/
theorem takeChar_encodeChar (c : Char) :
    ∃ b r, encodeChar c = b :: r ∧ ∀ rest, takeChar b (r ++ rest) = (some c, rest) := by
  have hlt := toNat_lt c
  have hpair := toNat_lt_or_le c
  have hback : ∀ {n : Nat} {rest : List UInt8}, n = c.toNat → (some (Char.ofNat n), rest) = (some c, rest) := by
    rintro n rest rfl
    rw [Char.ofNat_toNat]
  unfold encodeChar
  simp only
  split
  · refine ⟨_, _, rfl, fun rest => ?_⟩
    rw [List.nil_append, takeChar_one ‹_›, Char.ofNat_toNat]
  · split
    · refine ⟨_, _, rfl, fun rest => ?_⟩
      have hlead : lead? (0xc0 + c.toNat / 0x40).toUInt8 = some ⟨2, 0x80, 0xbf⟩ := by
        rw [lead?_toUInt8 (by omega), if_pos (by omega)]
      have hb : (0x80 : UInt8).toNat ≤ 0x80 + c.toNat % 0x40 ∧ 0x80 + c.toNat % 0x40 ≤ (0xbf : UInt8).toNat := by
        simp only [UInt8.reduceToNat]
        omega
      exact (takeChar_two (by omega) hlead hb (by omega) rest).trans (hback (by omega))
    · split
      · refine ⟨_, _, rfl, fun rest => ?_⟩
        obtain ⟨low, high, hlead, hb⟩ := exists_lead_three (a := 0xe0 + c.toNat / 0x1000)
          (b := 0x80 + c.toNat / 0x40 % 0x40) (by omega) (by omega) (by omega) (by omega)
        exact (takeChar_three (by omega) hlead hb (by omega) (by omega) rest).trans (hback (by omega))
      · refine ⟨_, _, rfl, fun rest => ?_⟩
        obtain ⟨low, high, hlead, hb⟩ := exists_lead_four (a := 0xf0 + c.toNat / 0x40000)
          (b := 0x80 + c.toNat / 0x1000 % 0x40) (by omega) (by omega) (by omega) (by omega)
        exact (takeChar_four (by omega) hlead hb (by omega) (by omega) (by omega) rest).trans (hback (by omega))

theorem decodeWith_encode (bad : Char) (done t : Text) : decodeWith bad done (encode t) = done.reverse ++ t := by
  induction t generalizing done with
  | nil =>
    rw [show encode [] = [] from rfl, decodeWith]
    simp
  | cons c t ih =>
    obtain ⟨b, r, hbr, htake⟩ := takeChar_encodeChar c
    rw [encode_cons, hbr, List.cons_append, decodeWith, htake, Option.getD_some, ih]
    simp

theorem isValid_encode (t : Text) : isValid (encode t) = true := by
  induction t with
  | nil =>
    rw [show encode [] = [] from rfl, isValid]
  | cons c t ih =>
    obtain ⟨b, r, hbr, htake⟩ := takeChar_encodeChar c
    rw [encode_cons, hbr, List.cons_append, isValid, htake]
    exact ih

/-- A text is read back from its bytes. -/
theorem decode?_encode (t : Text) : decode? (encode t) = some t := by
  rw [decode?, if_pos (isValid_encode t), decodeLossy, decodeWith_encode]
  rfl

end LineCensus.Utf8
