import Mathlib.Data.List.Basic
import LineCensus.Text.Utf8
import LineCensus.Proofs.Occurrence

/-!
# Searching the bytes of a text

A text is searched character by character; a machine looks for the bytes of one text among the bytes of
another (`Utf8.find?`). Both find the same place (`find?_encode`): the first byte of a character never
continues one, so nothing that begins like a text is found inside a character, and the bytes of one
character are no front of those of another (`encodeChar_append_inj`). A byte offset is a boundary of a text
exactly when a front of the text has that size (`isBoundary_encode_iff`).
-/

namespace LineCensus.Utf8

/-! ### The bytes of one character -/

theorem toNat_toUInt8 {n : Nat} (h : n < 256) : n.toUInt8.toNat = n := by
  rw [Nat.toUInt8_eq, UInt8.toNat_ofNat']
  omega

theorem isTail_toUInt8 {n : Nat} (h : n < 256) : isTail n.toUInt8 = true ↔ 0x80 ≤ n ∧ n ≤ 0xbf := by
  simp [isTail, UInt8.le_iff_toNat_le, toNat_toUInt8 h]

/-- Six bits behind the mark of a continuing byte. -/
theorem isTail_six (n : Nat) : isTail (0x80 + n % 0x40).toUInt8 = true := by
  rw [isTail_toUInt8 (by omega)]
  omega

theorem toNat_lt (c : Char) : c.toNat < 0x110000 := by
  rcases c.valid with h | ⟨-, h⟩
  · exact Nat.lt_trans h (by decide)
  · exact h

theorem utf8Size_eq (c : Char) : c.utf8Size =
    if c.toNat < 0x80 then 1 else if c.toNat < 0x800 then 2 else if c.toNat < 0x10000 then 3 else 4 := by
  unfold Char.utf8Size
  simp only [Char.toNat, UInt32.le_iff_toNat_le]
  simp
  grind

/-- A character begins with a byte that continues none, and all its other bytes do. -/
theorem encodeChar_eq_cons (c : Char) : ∃ b r, encodeChar c = b :: r ∧ isTail b = false ∧
    (∀ d ∈ r, isTail d = true) ∧ r.length + 1 = c.utf8Size := by
  have hc := toNat_lt c
  have hlead : ∀ n, n < 256 → ¬ (0x80 ≤ n ∧ n ≤ 0xbf) → isTail n.toUInt8 = false := by
    intro n h hn
    rwa [Bool.eq_false_iff, Ne, isTail_toUInt8 h]
  have htail : ∀ n, ∀ d ∈ [(0x80 + n % 0x40).toUInt8], isTail d = true := by
    intro n d hd
    rw [List.mem_singleton.1 hd]
    exact isTail_six n
  rw [utf8Size_eq]
  unfold encodeChar
  simp only
  split
  · exact ⟨_, _, rfl, hlead _ (by omega) (by omega), nofun, rfl⟩
  · split
    · exact ⟨_, _, rfl, hlead _ (by omega) (by omega), htail _, rfl⟩
    · split
      · refine ⟨_, _, rfl, hlead _ (by omega) (by omega), ?_, rfl⟩
        exact List.forall_mem_cons.2 ⟨isTail_six _, htail _⟩
      · refine ⟨_, _, rfl, hlead _ (by omega) (by omega), ?_, rfl⟩
        exact List.forall_mem_cons.2 ⟨isTail_six _, List.forall_mem_cons.2 ⟨isTail_six _, htail _⟩⟩

/-- The bytes of a character as numbers. -/
theorem toNat_encodeChar (c : Char) : (encodeChar c).map UInt8.toNat =
    if c.toNat < 0x80 then [c.toNat]
    else if c.toNat < 0x800 then [0xc0 + c.toNat / 0x40, 0x80 + c.toNat % 0x40]
    else if c.toNat < 0x10000 then
      [0xe0 + c.toNat / 0x1000, 0x80 + c.toNat / 0x40 % 0x40, 0x80 + c.toNat % 0x40]
    else
      [0xf0 + c.toNat / 0x40000, 0x80 + c.toNat / 0x1000 % 0x40, 0x80 + c.toNat / 0x40 % 0x40,
        0x80 + c.toNat % 0x40] := by
  have hc := toNat_lt c
  unfold encodeChar
  simp only
  split
  · simp (disch := omega) only [List.map_cons, List.map_nil, toNat_toUInt8]
  · split
    · simp (disch := omega) only [List.map_cons, List.map_nil, toNat_toUInt8]
    · split <;> simp (disch := omega) only [List.map_cons, List.map_nil, toNat_toUInt8]

/-- Bytes begin with those of at most one character. -/
theorem encodeChar_append_inj {c d : Char} {x y : List UInt8} (h : encodeChar c ++ x = encodeChar d ++ y) :
    c = d := by
  have hc := toNat_lt c
  have hd := toNat_lt d
  have hbytes := congrArg (List.map UInt8.toNat) h
  rw [List.map_append, List.map_append, toNat_encodeChar, toNat_encodeChar] at hbytes
  apply Char.ext
  apply UInt32.toNat_inj.1
  show c.toNat = d.toNat
  split_ifs at hbytes <;> simp only [List.cons_append, List.nil_append, List.cons.injEq] at hbytes <;> omega

/-! ### Boundaries -/

theorem encode_cons (c : Char) (t : Text) : encode (c :: t) = encodeChar c ++ encode t := rfl

theorem encode_append (s t : Text) : encode (s ++ t) = encode s ++ encode t := List.flatMap_append

theorem length_encodeChar (c : Char) : (encodeChar c).length = c.utf8Size := by
  obtain ⟨b, r, hbr, -, -, hlen⟩ := encodeChar_eq_cons c
  rw [hbr, List.length_cons, hlen]

theorem length_encode (t : Text) : (encode t).length = Text.byteSize t := by
  induction t with
  | nil => rfl
  | cons c t ih => rw [encode_cons, List.length_append, ih, length_encodeChar, Text.byteSize_cons]

/-- The bytes end at offset `k`, or a character begins there. -/
def IsBoundary (bytes : List UInt8) (k : Nat) : Prop := k ≤ bytes.length ∧ ∀ b ∈ bytes[k]?, isTail b = false

instance (bytes : List UInt8) (k : Nat) : Decidable (IsBoundary bytes k) :=
  inferInstanceAs (Decidable (k ≤ bytes.length ∧ ∀ b ∈ bytes[k]?, isTail b = false))

theorem head_encode {t : Text} {b : UInt8} (h : b ∈ (encode t)[0]?) : isTail b = false := by
  cases t with
  | nil => cases h
  | cons c t =>
    obtain ⟨d, r, hdr, hd, -⟩ := encodeChar_eq_cons c
    rw [encode_cons, hdr] at h
    cases h
    exact hd

/-- The boundaries of a text are the sizes of its fronts. -/
theorem isBoundary_encode_iff {t : Text} {k : Nat} :
    IsBoundary (encode t) k ↔ ∃ s u, t = s ++ u ∧ Text.byteSize s = k := by
  constructor
  · rintro ⟨hle, hb⟩
    induction t generalizing k with
    | nil => exact ⟨[], [], rfl, (Nat.le_zero.1 hle).symm⟩
    | cons c t ih =>
      obtain ⟨d, r, hdr, -, htail, hlen⟩ := encodeChar_eq_cons c
      rw [encode_cons, hdr] at hle hb
      by_cases hk : k = 0
      · exact ⟨[], c :: t, rfl, hk.symm⟩
      · by_cases hin : k < c.utf8Size
        · -- inside of the first character
          have hlt : k - 1 < r.length := by omega
          have hmem : ((d :: r) ++ encode t)[k]? = some r[k - 1] := by
            rw [List.getElem?_append_left (by rw [List.length_cons]; omega)]
            rw [List.getElem?_cons, if_neg hk, List.getElem?_eq_getElem]
          have hfalse := hb _ hmem
          rw [htail _ (List.getElem_mem _)] at hfalse
          cases hfalse
        · have hlen' : (d :: r).length = c.utf8Size := hlen
          rw [List.length_append, hlen'] at hle
          obtain ⟨s, u, rfl, hs⟩ := ih (k := k - c.utf8Size) (by omega) (by
            intro b hmem
            refine hb b ?_
            rw [List.getElem?_append_right (by omega), hlen']
            exact hmem)
          exact ⟨c :: s, u, rfl, by rw [Text.byteSize_cons, hs]; omega⟩
  · rintro ⟨s, u, rfl, rfl⟩
    rw [IsBoundary, encode_append, ← length_encode]
    refine ⟨by rw [List.length_append]; omega, fun b hb => ?_⟩
    rw [List.getElem?_append_right (Nat.le_refl _), Nat.sub_self] at hb
    exact head_encode hb

/-! ### Searching -/

/-- The bytes of a text begin with those of the texts it begins with, and of no others. -/
theorem encode_isPrefix_iff {m t : Text} : encode m <+: encode t ↔ m <+: t := by
  constructor
  · intro h
    induction m generalizing t with
    | nil => exact List.nil_prefix
    | cons c m ih =>
      obtain ⟨x, hx⟩ := h
      cases t with
      | nil =>
        obtain ⟨b, r, hbr, -⟩ := encodeChar_eq_cons c
        rw [encode_cons, hbr] at hx
        cases hx
      | cons d t =>
        rw [encode_cons, encode_cons, List.append_assoc] at hx
        obtain rfl := encodeChar_append_inj hx
        exact List.cons_prefix_cons.2 ⟨rfl, ih ⟨x, List.append_cancel_left hx⟩⟩
  · rintro ⟨u, rfl⟩
    rw [encode_append]
    exact List.prefix_append ..

/-- The first offset at which a pattern occurs in some bytes. -/
def find? (pattern : List UInt8) : List UInt8 → Option Nat
  | [] => if pattern.isPrefixOf [] then some 0 else none
  | b :: rest => if pattern.isPrefixOf (b :: rest) then some 0 else (find? pattern rest).map (· + 1)

/-- What begins a character is not found at bytes that continue one. -/
theorem find?_tails_append {b : UInt8} {pattern r : List UInt8} (hb : isTail b = false)
    (hr : ∀ d ∈ r, isTail d = true) (bytes : List UInt8) :
    find? (b :: pattern) (r ++ bytes) = (find? (b :: pattern) bytes).map (· + r.length) := by
  induction r with
  | nil => simp
  | cons d r ih =>
    have hne : (b == d) = false := by
      rw [beq_eq_false_iff_ne]
      rintro rfl
      rw [hr b List.mem_cons_self] at hb
      cases hb
    rw [List.cons_append, find?, List.isPrefixOf, hne, Bool.false_and, if_neg Bool.false_ne_true,
      ih fun e he => hr e (List.mem_cons_of_mem _ he), Option.map_map]
    rfl

/-- The bytes of a marker are found where the marker is found. -/
theorem find?_encode (m t : Text) : find? (encode m) (encode t) = (Text.occurrence? m 0 t).map Prod.fst := by
  have hpre : ∀ t, (encode m).isPrefixOf (encode t) = m.isPrefixOf t := fun t => by
    rw [Bool.eq_iff_iff, List.isPrefixOf_iff_prefix, List.isPrefixOf_iff_prefix, encode_isPrefix_iff]
  induction t with
  | nil =>
    have hnil := hpre []
    rw [show encode [] = [] from rfl] at hnil ⊢
    rw [find?, hnil, Text.occurrence?]
    split <;> rfl
  | cons c t ih =>
    obtain ⟨b, r, hbr, -, htail, hlen⟩ := encodeChar_eq_cons c
    have hcons := hpre (c :: t)
    rw [encode_cons, hbr, List.cons_append] at hcons ⊢
    rw [find?, hcons, Text.occurrence?]
    split
    · rfl
    · rename_i hfront
      cases m with
      | nil => exact absurd rfl hfront
      | cons d m =>
        obtain ⟨e, r', her, he, -⟩ := encodeChar_eq_cons d
        rw [Nat.zero_add, Text.occurrence?_eq_zero_map, Option.map_map]
        rw [encode_cons, her, List.cons_append] at ih ⊢
        rw [find?_tails_append he htail, ih, Option.map_map, Option.map_map]
        congr 1
        funext found
        simp only [Function.comp_apply]
        omega

end LineCensus.Utf8
