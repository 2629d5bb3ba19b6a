import LineCensus.Text.Basic

/-!
# UTF-8

Files hold bytes; lines hold characters. `encode` writes a text, `decodeLossy` reads any bytes:
each maximal piece that starts like a character but does not go on like one becomes U+FFFD.
`decode?` refuses such bytes instead. Both are built on `takeChar`, which reads one character or
one ill-formed piece from the front and always consumes at least one byte (`takeChar_lt`).
-/

namespace LineCensus.Utf8

/-- The UTF-8 form of one character. -/
def encodeChar (c : Char) : List UInt8 :=
  let n := c.toNat
  if n < 0x80 then [n.toUInt8]
  else if n < 0x800 then [(0xc0 + n / 0x40).toUInt8, (0x80 + n % 0x40).toUInt8]
  else if n < 0x10000 then
    [(0xe0 + n / 0x1000).toUInt8, (0x80 + n / 0x40 % 0x40).toUInt8, (0x80 + n % 0x40).toUInt8]
  else
    [(0xf0 + n / 0x40000).toUInt8, (0x80 + n / 0x1000 % 0x40).toUInt8, (0x80 + n / 0x40 % 0x40).toUInt8,
      (0x80 + n % 0x40).toUInt8]

/-- The UTF-8 form of a text. -/
def encode (t : Text) : List UInt8 := t.flatMap encodeChar

/-- How a character that is not ASCII begins: its length and the range of its second byte. -/
structure Lead where
  length : Nat
  low : UInt8
  high : UInt8

/-- The characters that may begin with byte `b`, if any. -/
def lead? (b : UInt8) : Option Lead :=
  if 0xc2 ≤ b ∧ b ≤ 0xdf then some ⟨2, 0x80, 0xbf⟩
  else if b = 0xe0 then some ⟨3, 0xa0, 0xbf⟩
  else if b = 0xed then some ⟨3, 0x80, 0x9f⟩
  else if 0xe1 ≤ b ∧ b ≤ 0xef then some ⟨3, 0x80, 0xbf⟩
  else if b = 0xf0 then some ⟨4, 0x90, 0xbf⟩
  else if 0xf1 ≤ b ∧ b ≤ 0xf3 then some ⟨4, 0x80, 0xbf⟩
  else if b = 0xf4 then some ⟨4, 0x80, 0x8f⟩
  else none

/-- A byte that continues a character. -/
def isTail (b : UInt8) : Bool := 0x80 ≤ b && b ≤ 0xbf

/-- The six bits that a continuing byte adds to the code point `n`. -/
def extend (n : Nat) (b : UInt8) : Nat := n * 0x40 + (b.toNat - 0x80)

/-- Reads the character that begins with `b`, or the longest piece of it that is there (`none`);
the rest comes second. -/
def takeChar (b : UInt8) (rest : List UInt8) : Option Char × List UInt8 :=
  if b < 0x80 then (some (Char.ofNat b.toNat), rest)
  else
    match lead? b with
    | none => (none, rest)
    | some l =>
      match rest with
      | [] => (none, [])
      | b₁ :: r₁ =>
        if ¬ (l.low ≤ b₁ ∧ b₁ ≤ l.high) then (none, b₁ :: r₁)
        else if l.length = 2 then (some (Char.ofNat (extend (b.toNat - 0xc0) b₁)), r₁)
        else
          match r₁ with
          | [] => (none, [])
          | b₂ :: r₂ =>
            if ¬ isTail b₂ then (none, b₂ :: r₂)
            else if l.length = 3 then (some (Char.ofNat (extend (extend (b.toNat - 0xe0) b₁) b₂)), r₂)
            else
              match r₂ with
              | [] => (none, [])
              | b₃ :: r₃ =>
                if ¬ isTail b₃ then (none, b₃ :: r₃)
                else (some (Char.ofNat (extend (extend (extend (b.toNat - 0xf0) b₁) b₂) b₃)), r₃)

/-- What is left behind a character or a piece of one is not longer than what followed its first
byte. -/
theorem takeChar_lt (b : UInt8) (rest : List UInt8) : (takeChar b rest).2.length ≤ rest.length := by
  unfold takeChar
  repeat' split
  all_goals simp_all <;> omega

/-- Reads all characters; `done` holds those already read, last first. -/
def decodeWith (bad : Char) (done : Text) : List UInt8 → Text
  | [] => done.reverse
  | b :: rest =>
    have := takeChar_lt b rest
    decodeWith bad ((takeChar b rest).1.getD bad :: done) (takeChar b rest).2
  termination_by bytes => bytes.length
  decreasing_by simp only [List.length_cons]; omega

/-- The text in the bytes, with U+FFFD for every ill-formed piece. -/
def decodeLossy (bytes : List UInt8) : Text := decodeWith '\ufffd' [] bytes

/-- The bytes are the UTF-8 form of some text. -/
def isValid : List UInt8 → Bool
  | [] => true
  | b :: rest =>
    have := takeChar_lt b rest
    if (takeChar b rest).1.isSome then isValid (takeChar b rest).2 else false
  termination_by bytes => bytes.length
  decreasing_by simp only [List.length_cons]; omega

/-- The text in the bytes, if all of them are well-formed. -/
def decode? (bytes : List UInt8) : Option Text :=
  if isValid bytes then some (decodeLossy bytes) else none

end LineCensus.Utf8
