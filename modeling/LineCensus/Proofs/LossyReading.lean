import LineCensus.Proofs.Utf8Reading

/-!
# Reading bytes that need not be UTF-8

Bytes may be cut at a character of one byte before they are decoded or after it: `decodeLossy_append_cons`. For a
character that is not complete ends in front of such a byte as it ends at the end of all bytes
(`takeChar_append_ascii`). And what is read as a character was written so (`encodeChar_of_takeChar`), so a
character in the decoded text, other than the replacement for ill-formed pieces, stands where its bytes stand
(`exists_of_decodeLossy`).

`Lossy` says what bytes are decoded to without saying how they are read: their characters, and one replacement for
each ill-formed piece, which is as long as the front of a character can be. There is one such text (`lossy_iff`).
-/

namespace LineCensus.Utf8

/-! ### One character -/

theorem toUInt8_eq {n : Nat} {b : UInt8} (h : n = b.toNat) : n.toUInt8 = b := by
  rw [h, Nat.toUInt8_eq, UInt8.ofNat_toNat]

theorem toNat_ofNat {n : Nat} (h : n < 0xd800 ∨ 0xe000 ≤ n ∧ n < 0x110000) : (Char.ofNat n).toNat = n := by
  have hvalid : n.isValidChar := by
    unfold Nat.isValidChar
    omega
  rw [Char.ofNat, dif_pos hvalid]
  rfl

/-- What a first byte and a second one that it allows say of the length of a character, by their numbers. -/
theorem range_of_lead? {x : UInt8} {l : Lead} (h : lead? x = some l) {y : Nat}
    (hy : l.low.toNat ≤ y ∧ y ≤ l.high.toNat) :
    (0x80 ≤ y ∧ y ≤ 0xbf) ∧
      (l.length = 2 ∧ (0xc2 ≤ x.toNat ∧ x.toNat ≤ 0xdf) ∨
        l.length = 3 ∧ (0xe0 ≤ x.toNat ∧ x.toNat ≤ 0xef) ∧ (x.toNat = 0xe0 → 0xa0 ≤ y) ∧ (x.toNat = 0xed → y ≤ 0x9f) ∨
        l.length = 4 ∧ (0xf0 ≤ x.toNat ∧ x.toNat ≤ 0xf4) ∧ (x.toNat = 0xf0 → 0x90 ≤ y) ∧
          (x.toNat = 0xf4 → y ≤ 0x8f)) := by
  rw [← toUInt8_eq (b := x) rfl, lead?_toUInt8 x.toNat_lt] at h
  split_ifs at h <;> cases h <;> simp only [UInt8.reduceToNat] at hy <;> simp <;> omega

section Characters

variable {x y z w : UInt8}

theorem encodeChar_one (hx : x.toNat < 0x80) : encodeChar (Char.ofNat x.toNat) = [x] := by
  have hn := toNat_ofNat (n := x.toNat) (by omega)
  unfold encodeChar
  simp only [hn]
  rw [if_pos hx, toUInt8_eq rfl]

theorem encodeChar_two (hx : 0xc2 ≤ x.toNat ∧ x.toNat ≤ 0xdf) (hy : 0x80 ≤ y.toNat ∧ y.toNat ≤ 0xbf) :
    encodeChar (Char.ofNat (extend (x.toNat - 0xc0) y)) = [x, y] := by
  unfold extend
  have hn := toNat_ofNat (n := (x.toNat - 0xc0) * 0x40 + (y.toNat - 0x80)) (by omega)
  unfold encodeChar
  simp only [hn]
  rw [if_neg (by omega), if_pos (by omega), toUInt8_eq (b := x) (by omega), toUInt8_eq (b := y) (by omega)]

theorem encodeChar_three (hx : 0xe0 ≤ x.toNat ∧ x.toNat ≤ 0xef) (hy : 0x80 ≤ y.toNat ∧ y.toNat ≤ 0xbf)
    (hz : 0x80 ≤ z.toNat ∧ z.toNat ≤ 0xbf) (hshort : x.toNat = 0xe0 → 0xa0 ≤ y.toNat)
    (hpair : x.toNat = 0xed → y.toNat ≤ 0x9f) :
    encodeChar (Char.ofNat (extend (extend (x.toNat - 0xe0) y) z)) = [x, y, z] := by
  unfold extend
  have hn := toNat_ofNat (n := ((x.toNat - 0xe0) * 0x40 + (y.toNat - 0x80)) * 0x40 + (z.toNat - 0x80)) (by omega)
  unfold encodeChar
  simp only [hn]
  rw [if_neg (by omega), if_neg (by omega), if_pos (by omega), toUInt8_eq (b := x) (by omega),
    toUInt8_eq (b := y) (by omega), toUInt8_eq (b := z) (by omega)]

theorem encodeChar_four (hx : 0xf0 ≤ x.toNat ∧ x.toNat ≤ 0xf4) (hy : 0x80 ≤ y.toNat ∧ y.toNat ≤ 0xbf)
    (hz : 0x80 ≤ z.toNat ∧ z.toNat ≤ 0xbf) (hw : 0x80 ≤ w.toNat ∧ w.toNat ≤ 0xbf)
    (hshort : x.toNat = 0xf0 → 0x90 ≤ y.toNat) (hlast : x.toNat = 0xf4 → y.toNat ≤ 0x8f) :
    encodeChar (Char.ofNat (extend (extend (extend (x.toNat - 0xf0) y) z) w)) = [x, y, z, w] := by
  unfold extend
  have hn := toNat_ofNat (n := (((x.toNat - 0xf0) * 0x40 + (y.toNat - 0x80)) * 0x40 + (z.toNat - 0x80)) * 0x40 +
    (w.toNat - 0x80)) (by omega)
  unfold encodeChar
  simp only [hn]
  rw [if_neg (by omega), if_neg (by omega), if_neg (by omega), toUInt8_eq (b := x) (by omega),
    toUInt8_eq (b := y) (by omega), toUInt8_eq (b := z) (by omega), toUInt8_eq (b := w) (by omega)]

end Characters

theorem isTail_iff {b : UInt8} : isTail b = true ↔ 0x80 ≤ b.toNat ∧ b.toNat ≤ 0xbf := by
  rw [← isTail_toUInt8 b.toNat_lt, toUInt8_eq rfl]

/-- What is read as a character is the written form of that character. -/
theorem encodeChar_of_takeChar {x : UInt8} {rest rest' : List UInt8} {c : Char}
    (h : takeChar x rest = (some c, rest')) : x :: rest = encodeChar c ++ rest' := by
  unfold takeChar at h
  split at h
  · rename_i hx
    obtain ⟨rfl, rfl⟩ : Char.ofNat x.toNat = c ∧ rest = rest' := by simpa using h
    rw [encodeChar_one (by simpa [UInt8.lt_iff_toNat_lt] using hx)]
    rfl
  split at h
  · cases h
  rename_i l hl
  obtain _ | ⟨y, r₁⟩ := rest
  · cases h
  by_cases hy : l.low ≤ y ∧ y ≤ l.high
  swap
  · simp [hy] at h
  simp only [hy, and_self, not_true_eq_false, if_false] at h
  rw [UInt8.le_iff_toNat_le, UInt8.le_iff_toNat_le] at hy
  obtain ⟨hy, ⟨hlength, hx⟩ | ⟨hlength, hx, hshort, hpair⟩ | ⟨hlength, hx, hshort, hlast⟩⟩ := range_of_lead? hl hy
  · obtain ⟨rfl, rfl⟩ : Char.ofNat (extend (x.toNat - 0xc0) y) = c ∧ r₁ = rest' := by simpa [hlength] using h
    rw [encodeChar_two hx hy]
    rfl
  · obtain _ | ⟨z, r₂⟩ := r₁
    · simp [hlength] at h
    by_cases hz : isTail z = true
    swap
    · simp [hlength, hz] at h
    obtain ⟨rfl, rfl⟩ : Char.ofNat (extend (extend (x.toNat - 0xe0) y) z) = c ∧ r₂ = rest' := by
      simpa [hlength, hz] using h
    rw [encodeChar_three hx hy (isTail_iff.1 hz) hshort hpair]
    rfl
  · obtain _ | ⟨z, _ | ⟨w, r₃⟩⟩ := r₁
    · simp [hlength] at h
    · by_cases hz : isTail z = true <;> simp [hlength, hz] at h
    by_cases hz : isTail z = true
    swap
    · simp [hlength, hz] at h
    by_cases hw : isTail w = true
    swap
    · simp [hlength, hz, hw] at h
    obtain ⟨rfl, rfl⟩ : Char.ofNat (extend (extend (extend (x.toNat - 0xf0) y) z) w) = c ∧ r₃ = rest' := by
      simpa [hlength, hz, hw] using h
    rw [encodeChar_four hx hy (isTail_iff.1 hz) (isTail_iff.1 hw) hshort hlast]
    rfl

/-- What is left behind a character, or a piece of one, is an end of the bytes. -/
theorem takeChar_suffix (x : UInt8) (rest : List UInt8) : (takeChar x rest).2 <:+ rest := by
  unfold takeChar
  repeat' split
  all_goals simp [List.suffix_cons_iff]

/-- A character of one byte. -/
theorem lt_of_encodeChar {c : Char} {a : UInt8} (h : encodeChar c = [a]) : a.toNat < 0x80 := by
  have hnumbers := toNat_encodeChar c
  rw [h, List.map_cons, List.map_nil] at hnumbers
  split_ifs at hnumbers <;> simp only [List.cons.injEq, reduceCtorEq, and_false] at hnumbers
  omega

/-- A piece of a character ends in front of a byte of ASCII as it ends at the end of all bytes. -/
theorem takeChar_append_ascii {a : UInt8} (ha : a.toNat < 0x80) (x : UInt8) (r ys : List UInt8) :
    takeChar x (r ++ a :: ys) = ((takeChar x r).1, (takeChar x r).2 ++ a :: ys) := by
  have htail : isTail a = false := by
    rw [Bool.eq_false_iff, Ne, isTail_iff]
    omega
  unfold takeChar
  split
  · rfl
  split
  · rfl
  rename_i l hl
  have hlow : ¬ (l.low ≤ a ∧ a ≤ l.high) := by
    intro hy
    rw [UInt8.le_iff_toNat_le, UInt8.le_iff_toNat_le] at hy
    have hrange := (range_of_lead? hl hy).1
    omega
  obtain _ | ⟨y, _ | ⟨z, _ | ⟨w, r⟩⟩⟩ := r
  · simp [hlow]
  · simp only [List.cons_append, List.nil_append, htail, Bool.false_eq_true, not_false_eq_true, if_true]
    split_ifs <;> rfl
  · simp only [List.cons_append, List.nil_append, htail, Bool.false_eq_true, not_false_eq_true, if_true]
    split_ifs <;> rfl
  · simp only [List.cons_append]
    split_ifs <;> rfl

/-! ### All characters -/

/-- Bytes are read character by character, or piece by piece. -/
@[elab_as_elim]
theorem pieces_induction {P : List UInt8 → Prop} (nil : P [])
    (cons : ∀ x rest, P (takeChar x rest).2 → P (x :: rest)) (bytes : List UInt8) : P bytes := by
  induction hn : bytes.length using Nat.strongRecOn generalizing bytes with
  | ind n ih =>
    cases bytes with
    | nil => exact nil
    | cons x rest =>
      have hlt := takeChar_lt x rest
      rw [List.length_cons] at hn
      exact cons x rest (ih _ (by omega) _ rfl)

theorem decodeWith_eq (bad : Char) (done : Text) (bytes : List UInt8) :
    decodeWith bad done bytes = done.reverse ++ decodeWith bad [] bytes := by
  induction bytes using pieces_induction generalizing done with
  | nil => simp [decodeWith]
  | cons x rest ih =>
    rw [decodeWith, ih, decodeWith, ih [_]]
    simp

theorem decodeLossy_nil : decodeLossy [] = [] := by
  rw [decodeLossy, decodeWith]
  rfl

theorem decodeLossy_cons (x : UInt8) (rest : List UInt8) :
    decodeLossy (x :: rest) = (takeChar x rest).1.getD '\ufffd' :: decodeLossy (takeChar x rest).2 := by
  rw [decodeLossy, decodeWith, decodeWith_eq]
  rfl

theorem decodeLossy_eq_nil_iff {bytes : List UInt8} : decodeLossy bytes = [] ↔ bytes = [] := by
  cases bytes with
  | nil => simp [decodeLossy_nil]
  | cons x rest => simp [decodeLossy_cons]

theorem decodeLossy_encode_append (c : Char) (bytes : List UInt8) :
    decodeLossy (encodeChar c ++ bytes) = c :: decodeLossy bytes := by
  obtain ⟨b, r, hbr, htake⟩ := takeChar_encodeChar c
  rw [hbr, List.cons_append, decodeLossy_cons, htake]
  rfl

theorem decodeLossy_encode (t : Text) : decodeLossy (encode t) = t := by
  rw [decodeLossy, decodeWith_encode]
  rfl

/-- **Bytes may be cut at a character of one byte** before they are decoded. -/
theorem decodeLossy_append_cons {c : Char} {a : UInt8} (ha : encodeChar c = [a]) (xs ys : List UInt8) :
    decodeLossy (xs ++ a :: ys) = decodeLossy xs ++ c :: decodeLossy ys := by
  induction xs using pieces_induction with
  | nil =>
    rw [List.nil_append, ← List.singleton_append, ← ha, decodeLossy_encode_append, decodeLossy_nil]
    rfl
  | cons x rest ih =>
    rw [List.cons_append, decodeLossy_cons, takeChar_append_ascii (lt_of_encodeChar ha), ih, decodeLossy_cons]
    rfl

/-- A character in the decoded text, other than the replacement, stands where its bytes stand. -/
theorem exists_of_decodeLossy {bytes : List UInt8} {s u : Text} {c : Char} (h : decodeLossy bytes = s ++ c :: u)
    (hc : c ≠ '\ufffd') : ∃ x y, bytes = x ++ (encodeChar c ++ y) ∧ decodeLossy y = u ∧ (s = [] → x = []) := by
  induction bytes using pieces_induction generalizing s with
  | nil =>
    rw [decodeLossy_nil] at h
    cases s <;> cases h
  | cons b rest ih =>
    rw [decodeLossy_cons] at h
    cases s with
    | nil =>
      obtain ⟨hchar, hrest⟩ := List.cons.inj h
      cases htake : takeChar b rest with
      | mk read rest' =>
        rw [htake] at hchar hrest
        cases read with
        | none => exact absurd hchar.symm hc
        | some d =>
          obtain rfl : d = c := hchar
          exact ⟨[], rest', encodeChar_of_takeChar htake, hrest, fun _ => rfl⟩
    | cons d s =>
      obtain ⟨-, hrest⟩ := List.cons.inj h
      obtain ⟨x, y, hxy, hy, -⟩ := ih hrest
      obtain ⟨p, hp⟩ := takeChar_suffix b rest
      refine ⟨b :: (p ++ x), y, ?_, hy, nofun⟩
      rw [List.cons_append, List.append_assoc, ← hxy, hp]

/-! ### Ill-formed pieces -/

/-- The bytes are a front of some character. -/
def Begins (piece : List UInt8) : Prop := ∃ c, piece <+: encodeChar c

/-- In front of `rest` the piece is ill-formed: no character stands there, the piece is the front of one or a
single byte, and with the next byte it is the front of none. -/
structure IllFormed (piece rest : List UInt8) : Prop where
  ne_nil : piece ≠ []
  no_character : ∀ c, ¬ encodeChar c <+: piece ++ rest
  begins : Begins piece ∨ piece.length = 1
  maximal : ∀ b ∈ rest.head?, ¬ Begins (piece ++ [b])

/-- The text has the characters of the bytes, and one replacement for each ill-formed piece between them. -/
inductive Lossy : List UInt8 → Text → Prop where
  | nil : Lossy [] []
  | character (c : Char) {bytes : List UInt8} {t : Text} (rest : Lossy bytes t) :
      Lossy (encodeChar c ++ bytes) (c :: t)
  | replaced {piece bytes : List UInt8} {t : Text} (piece_illFormed : IllFormed piece bytes) (rest : Lossy bytes t) :
      Lossy (piece ++ bytes) ('\ufffd' :: t)

/-- A front of a character can be read as one. -/
theorem not_begins_of_takeChar {x : UInt8} {p : List UInt8} (h : ∀ r, (takeChar x (p ++ r)).1 = none) :
    ¬ Begins (x :: p) := by
  rintro ⟨c, r, hr⟩
  obtain ⟨b, r', hbr, htake⟩ := takeChar_encodeChar c
  rw [hbr, List.cons_append] at hr
  obtain ⟨rfl, rfl⟩ := List.cons.inj hr
  have hsome := htake []
  rw [List.append_nil] at hsome
  have hnone := h r
  rw [hsome] at hnone
  cases hnone

section Fronts

variable {x y z : UInt8} {l : Lead}

theorem begins_two (hl : lead? x = some l) (hlength : l.length ≠ 2) (hy : l.low ≤ y ∧ y ≤ l.high) : Begins [x, y] := by
  rw [UInt8.le_iff_toNat_le, UInt8.le_iff_toNat_le] at hy
  have htail : 0x80 ≤ (0x80 : UInt8).toNat ∧ (0x80 : UInt8).toNat ≤ 0xbf := by decide
  obtain ⟨hy, ⟨htwo, -⟩ | ⟨-, hx, hshort, hpair⟩ | ⟨-, hx, hshort, hlast⟩⟩ := range_of_lead? hl hy
  · exact absurd htwo hlength
  · exact ⟨_, [0x80], (encodeChar_three hx hy htail hshort hpair).symm⟩
  · exact ⟨_, [0x80, 0x80], (encodeChar_four hx hy htail htail hshort hlast).symm⟩

theorem begins_three (hl : lead? x = some l) (htwo : l.length ≠ 2) (hthree : l.length ≠ 3)
    (hy : l.low ≤ y ∧ y ≤ l.high) (hz : isTail z = true) : Begins [x, y, z] := by
  rw [UInt8.le_iff_toNat_le, UInt8.le_iff_toNat_le] at hy
  have htail : 0x80 ≤ (0x80 : UInt8).toNat ∧ (0x80 : UInt8).toNat ≤ 0xbf := by decide
  obtain ⟨hy, ⟨h, -⟩ | ⟨h, -⟩ | ⟨-, hx, hshort, hlast⟩⟩ := range_of_lead? hl hy
  · exact absurd h htwo
  · exact absurd h hthree
  · exact ⟨_, [0x80], (encodeChar_four hx hy (isTail_iff.1 hz) htail hshort hlast).symm⟩

end Fronts

/-- A front of a character, or a single byte, is ill-formed if no character can be read there, whatever stands behind
the next byte. -/
theorem IllFormed.of_takeChar {x : UInt8} {p rest : List UInt8} (hnone : (takeChar x (p ++ rest)).1 = none)
    (hfront : Begins (x :: p) ∨ (x :: p).length = 1)
    (hnext : ∀ b ∈ rest.head?, ∀ r, (takeChar x (p ++ b :: r)).1 = none) : IllFormed (x :: p) rest where
  ne_nil := List.cons_ne_nil _ _
  begins := hfront
  maximal b hb := not_begins_of_takeChar fun r => by simpa using hnext b hb r
  no_character := by
    rintro c ⟨r, hr⟩
    obtain ⟨b, r', hbr, htake⟩ := takeChar_encodeChar c
    rw [hbr, List.cons_append, List.cons_append] at hr
    obtain ⟨rfl, hrest⟩ := List.cons.inj hr
    rw [← hrest, htake] at hnone
    cases hnone

/-- What is read as no character is an ill-formed piece. -/
theorem illFormed_of_takeChar {x : UInt8} {rest rest' : List UInt8} (h : takeChar x rest = (none, rest')) :
    ∃ piece, x :: rest = piece ++ rest' ∧ IllFormed piece rest' := by
  have hnone : (takeChar x rest).1 = none := by rw [h]
  by_cases hx : x < 0x80
  · simp [takeChar, hx] at h
  cases hl : lead? x with
  | none =>
    obtain rfl : rest = rest' := by simpa [takeChar, hx, hl] using h
    exact ⟨[x], rfl, .of_takeChar hnone (.inr rfl) fun b _ r => by simp [takeChar, hx, hl]⟩
  | some l =>
    obtain _ | ⟨y, r₁⟩ := rest
    · obtain rfl : [] = rest' := by simpa [takeChar, hx, hl] using h
      exact ⟨[x], rfl, .of_takeChar hnone (.inr rfl) (by simp)⟩
    by_cases hy : l.low ≤ y ∧ y ≤ l.high
    swap
    · obtain rfl : y :: r₁ = rest' := by simpa [takeChar, hx, hl, hy] using h
      refine ⟨[x], rfl, .of_takeChar hnone (.inr rfl) ?_⟩
      rintro _ ⟨⟩ r
      simp [takeChar, hx, hl, hy]
    by_cases htwo : l.length = 2
    · simp [takeChar, hx, hl, hy, htwo] at h
    have hbegins := begins_two hl htwo hy
    obtain _ | ⟨z, r₂⟩ := r₁
    · obtain rfl : [] = rest' := by simpa [takeChar, hx, hl, hy, htwo] using h
      exact ⟨[x, y], rfl, .of_takeChar hnone (.inl hbegins) (by simp)⟩
    by_cases hz : isTail z = true
    swap
    · obtain rfl : z :: r₂ = rest' := by simpa [takeChar, hx, hl, hy, htwo, hz] using h
      refine ⟨[x, y], rfl, .of_takeChar hnone (.inl hbegins) ?_⟩
      rintro _ ⟨⟩ r
      simp [takeChar, hx, hl, hy, htwo, hz]
    by_cases hthree : l.length = 3
    · simp [takeChar, hx, hl, hy, hthree, hz] at h
    have hbegins := begins_three hl htwo hthree hy hz
    obtain _ | ⟨w, r₃⟩ := r₂
    · obtain rfl : [] = rest' := by simpa [takeChar, hx, hl, hy, htwo, hz, hthree] using h
      exact ⟨[x, y, z], rfl, .of_takeChar hnone (.inl hbegins) (by simp)⟩
    by_cases hw : isTail w = true
    · simp [takeChar, hx, hl, hy, htwo, hz, hthree, hw] at h
    obtain rfl : w :: r₃ = rest' := by simpa [takeChar, hx, hl, hy, htwo, hz, hthree, hw] using h
    refine ⟨[x, y, z], rfl, .of_takeChar hnone (.inl hbegins) ?_⟩
    rintro _ ⟨⟩ r
    simp [takeChar, hx, hl, hy, htwo, hz, hthree, hw]

theorem IllFormed.not_longer {piece more rest rest' : List UInt8} {b : UInt8} (h : IllFormed piece (b :: rest))
    (h' : IllFormed (piece ++ b :: more) rest') : False := by
  have hpos := List.length_pos_iff.2 h.ne_nil
  have hbegins : Begins (piece ++ b :: more) := by
    refine h'.begins.resolve_right ?_
    rw [List.length_append, List.length_cons]
    omega
  obtain ⟨c, hc⟩ := hbegins
  have hfront : piece ++ [b] <+: piece ++ b :: more := ⟨more, List.append_assoc ..⟩
  exact h.maximal b rfl ⟨c, hfront.trans hc⟩

/-- Bytes begin with one ill-formed piece at most. -/
theorem IllFormed.unique {piece piece' rest rest' : List UInt8} (h : IllFormed piece rest)
    (h' : IllFormed piece' rest') (heq : piece ++ rest = piece' ++ rest') : piece = piece' ∧ rest = rest' := by
  obtain ⟨w, rfl, rfl⟩ | ⟨w, rfl, rfl⟩ := List.append_eq_append_iff.1 heq
  · cases w with
    | nil => simp
    | cons b w => exact (h.not_longer h').elim
  · cases w with
    | nil => simp
    | cons b w => exact (h'.not_longer h).elim

theorem takeChar_of_illFormed {x : UInt8} {p rest : List UInt8} (h : IllFormed (x :: p) rest) :
    takeChar x (p ++ rest) = (none, rest) := by
  cases htake : takeChar x (p ++ rest) with
  | mk read rest' =>
    cases read with
    | some c => exact absurd ⟨rest', (encodeChar_of_takeChar htake).symm⟩ (h.no_character c)
    | none =>
      obtain ⟨piece, hpiece, hill⟩ := illFormed_of_takeChar htake
      rw [(h.unique hill hpiece).2]

/-- **One replacement for each ill-formed piece**: this, and the characters between the pieces, is what bytes are
decoded to. -/
theorem lossy_iff {bytes : List UInt8} {t : Text} : Lossy bytes t ↔ t = decodeLossy bytes := by
  constructor
  · intro h
    induction h with
    | nil => rw [decodeLossy_nil]
    | character c _ ih => rw [decodeLossy_encode_append, ih]
    | @replaced piece bytes t hill _ ih =>
      obtain ⟨x, p, rfl⟩ := List.exists_cons_of_ne_nil hill.ne_nil
      rw [List.cons_append, decodeLossy_cons, takeChar_of_illFormed hill, ih]
      rfl
  · rintro rfl
    induction bytes using pieces_induction with
    | nil =>
      rw [decodeLossy_nil]
      exact .nil
    | cons x rest ih =>
      rw [decodeLossy_cons]
      cases htake : takeChar x rest with
      | mk read rest' =>
        rw [htake] at ih
        cases read with
        | some c =>
          rw [encodeChar_of_takeChar htake]
          exact .character c ih
        | none =>
          obtain ⟨piece, hpiece, hill⟩ := illFormed_of_takeChar htake
          rw [hpiece]
          exact .replaced hill ih

end LineCensus.Utf8
