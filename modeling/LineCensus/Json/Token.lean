import LineCensus.Json.Number

/-!
# JSON tokens

`tokens` cuts a text into tokens, each with the byte offsets at which it starts and stops. The list
ends with `eof`. A piece that begins no token, or begins like a number or a word but does not go on
like one, becomes `bad` and is the last thing read.

A string whose escapes name half of a surrogate pair is a token without content: as a value it is
a fault, but a value that nobody asks for may hold one. A string that is not closed has no content
either, and nothing is read behind it.

The reader of strings takes one character at a time (`StringState`), so that it recurs on the text;
what it leaves is never longer than what it was given (`readString_le`).
-/

namespace LineCensus.Json

/-- What a token is. -/
inductive Token.Body where
  /-- One of `[`, `]`, `\x7b`, `\x7d`, `,` and `:`. -/
  | punct (c : Char)
  | null
  | bool (b : Bool)
  | number (n : Numeral)
  | string (content : Except Fault Text)
  | bad (fault : Fault)
  | eof

/-- A token with the byte offsets at which it starts and stops. -/
structure Token where
  start : Nat
  stop : Nat
  body : Token.Body

/-- Where a complaint about the character that a token begins with is placed. -/
def Token.seen (t : Token) : Nat :=
  match t.body with
  | .eof => t.start
  | _ => t.start + 1

/-! ### Strings -/

/-- What has been read of an escape in a string. -/
inductive StringState where
  | plain
  /-- Behind a backslash. -/
  | escape
  /-- Inside four hexadecimal digits; `high` is the first half of a pair, if there was one. -/
  | hex (high : Option Nat) (value missing : Nat)
  /-- Behind the first half of a pair; a backslash is due. -/
  | pairBackslash (high : Nat)
  /-- Behind the backslash of the second half of a pair; the letter `u` is due. -/
  | pairLetter (high : Nat)

/-- The character that a letter behind a backslash stands for. -/
def escaped? (c : Char) : Option Char :=
  match c with
  | '"' => some '"'
  | '\\' => some '\\'
  | '/' => some '/'
  | 'b' => some '\x08'
  | 'f' => some '\x0c'
  | 'n' => some '\n'
  | 'r' => some '\r'
  | 't' => some '\t'
  | _ => none

/-- The value of a hexadecimal digit. -/
def hexDigit? (c : Char) : Option Nat :=
  if '0' ≤ c ∧ c ≤ '9' then some (c.toNat - '0'.toNat)
  else if 'a' ≤ c ∧ c ≤ 'f' then some (c.toNat - 'a'.toNat + 10)
  else if 'A' ≤ c ∧ c ≤ 'F' then some (c.toNat - 'A'.toNat + 10)
  else none

/-- The first half of a surrogate pair. -/
def isHigh (n : Nat) : Bool := 0xd800 ≤ n && n ≤ 0xdbff

/-- The second half of a surrogate pair. -/
def isLow (n : Nat) : Bool := 0xdc00 ≤ n && n ≤ 0xdfff

/-- What four hexadecimal digits come to, behind the first half of a pair or alone: a character, or
the first half of a pair. Halves are not told apart from characters unless `strict`. -/
def completeHex (strict : Bool) (high : Option Nat) (n : Nat) : Except Cause (Char ⊕ Nat) :=
  if ¬ strict then .ok (.inl (Char.ofNat n))
  else
    match high with
    | none =>
      if isLow n then .error .loneSurrogate
      else if isHigh n then .ok (.inr n)
      else .ok (.inl (Char.ofNat n))
    | some h =>
      if isLow n then .ok (.inl (Char.ofNat (0x10000 + (h - 0xd800) * 0x400 + (n - 0xdc00))))
      else .error .loneSurrogate

/-- Reads the rest of a string from byte `o` on. `done` holds the characters read, last first. The
result holds the content, the offset behind the closing quote and the text there. -/
def readString (strict : Bool) (state : StringState) (done : Text) (o : Nat) :
    Text → Except Fault (Text × Nat × Text)
  | [] => .error ⟨.eofInString, o⟩
  | c :: t =>
    match state with
    | .plain =>
      if c = '"' then .ok (done.reverse, o + 1, t)
      else if c = '\\' then readString strict .escape done (o + 1) t
      else if c.toNat < 0x20 then .error ⟨.controlCharacter, o + 1⟩
      else readString strict .plain (c :: done) (o + c.utf8Size) t
    | .escape =>
      if c = 'u' then readString strict (.hex none 0 4) done (o + 1) t
      else
        match escaped? c with
        | some d => readString strict .plain (d :: done) (o + 1) t
        | none => .error ⟨.invalidEscape, o + 1⟩
    | .hex high value missing =>
      match hexDigit? c with
      | none =>
        if missing ≤ Text.byteSize (c :: t) then .error ⟨.invalidEscape, o + missing⟩
        else .error ⟨.eofInString, o + Text.byteSize (c :: t)⟩
      | some d =>
        let value := value * 16 + d
        if 1 < missing then readString strict (.hex high value (missing - 1)) done (o + 1) t
        else
          match completeHex strict high value with
          | .error cause => .error ⟨cause, o + 1⟩
          | .ok (.inl d) => readString strict .plain (d :: done) (o + 1) t
          | .ok (.inr h) => readString strict (.pairBackslash h) done (o + 1) t
    | .pairBackslash h =>
      if c = '\\' then readString strict (.pairLetter h) done (o + 1) t
      else .error ⟨.unfinishedPair, o + 1⟩
    | .pairLetter h =>
      if c = 'u' then readString strict (.hex (some h) 0 4) done (o + 1) t
      else .error ⟨.unfinishedPair, o + 1⟩

/-- What is left behind a string is not longer than what was given. -/
theorem readString_le {strict : Bool} {state : StringState} {done s : Text} {o o' : Nat} {t r : Text}
    (h : readString strict state done o t = .ok (s, o', r)) : r.length ≤ t.length := by
  induction t generalizing state done o with
  | nil => simp [readString] at h
  | cons c t ih =>
    have step : r = t ∨ r.length ≤ t.length := by
      unfold readString at h
      split at h
      · split at h
        · cases h; exact .inl rfl
        · repeat' split at h
          all_goals first | exact .inr (ih h) | cases h
      · repeat' split at h
        all_goals first | exact .inr (ih h) | cases h
      · split at h
        · split at h <;> cases h
        · dsimp only at h
          split at h
          · exact .inr (ih h)
          · split at h
            all_goals first | exact .inr (ih h) | cases h
      · split at h
        all_goals first | exact .inr (ih h) | cases h
      · split at h
        all_goals first | exact .inr (ih h) | cases h
    rcases step with rfl | h <;> simp only [List.length_cons] <;> omega

/-- The string behind an opening quote: its content, where it stops, and the text there. -/
def stringToken (o : Nat) (t : Text) : Except Fault Text × Nat × Text :=
  match readString true .plain [] o t with
  | .ok (s, o', r) => (.ok s, o', r)
  | .error fault =>
    match readString false .plain [] o t with
    | .ok (_, o', r) => (.error fault, o', r)
    | .error _ => (.error fault, o + Text.byteSize t, [])

theorem stringToken_le (o : Nat) (t : Text) : (stringToken o t).2.2.length ≤ t.length := by
  unfold stringToken
  split
  · exact readString_le ‹_›
  · split
    · exact readString_le ‹_›
    · exact Nat.zero_le _

/-! ### Numbers and words -/

/-- The fault of a number that breaks off before `t`, `n` characters behind its beginning. -/
def brokenNumeral (n : Nat) : Text → Cause × Nat
  | [] => (.eofInValue, n)
  | _ :: _ => (.invalidNumber, n + 1)

/-- Reads the digits behind a point or an exponent, `n` characters behind the beginning of a number;
there must be one at least. The second result counts the characters up to their end. -/
def someDigits (n : Nat) (t : Text) : Except (Cause × Nat) (Text × Nat) :=
  match t.takeWhile Char.isDigit with
  | [] => .error (brokenNumeral n t)
  | ds => .ok (ds, n + ds.length)

/-- Reads the digits in front of the point: a zero stands alone. -/
def readWhole (t : Text) : Except (Cause × Nat) (Text × Nat) := do
  let (ds, n) ← someDigits 0 t
  if ds.head? = some '0' ∧ 1 < n then throw (.invalidNumber, 2)
  return (ds, n)

/-- Reads the fraction of a number, if there is one. -/
def readFraction (n : Nat) : Text → Except (Cause × Nat) (Text × Nat)
  | '.' :: t => someDigits (n + 1) t
  | _ => .ok ([], n)

/-- Reads the exponent of a number, if there is one. -/
def readExponent (n : Nat) : Text → Except (Cause × Nat) (Option (Bool × Text) × Nat)
  | c :: t =>
    if c = 'e' ∨ c = 'E' then
      match t with
      | '+' :: t => (someDigits (n + 2) t).map fun (ds, n) => (some (false, ds), n)
      | '-' :: t => (someDigits (n + 2) t).map fun (ds, n) => (some (true, ds), n)
      | t => (someDigits (n + 1) t).map fun (ds, n) => (some (false, ds), n)
    else .ok (none, n)
  | [] => .ok (none, n)

/-- Reads a number behind its sign, and counts its characters; a fault comes with the number of
characters up to it. -/
def readNumeral (isNegative : Bool) (t : Text) : Except (Cause × Nat) (Numeral × Nat) := do
  let (whole, n) ← readWhole t
  let (fraction, n) ← readFraction n (t.drop n)
  let (exponent, n) ← readExponent n (t.drop n)
  return (⟨isNegative, whole, fraction, exponent⟩, n)

/-- The words of JSON and what they stand for. -/
def words : List (Text × Token.Body) :=
  [(['n', 'u', 'l', 'l'], .null), (['t', 'r', 'u', 'e'], .bool true),
    (['f', 'a', 'l', 's', 'e'], .bool false)]

/-- The fault of a text at byte `o` that begins like `word` but goes on otherwise. -/
def brokenWord (o : Nat) : Text → Text → Fault
  | w :: word, c :: t => if w = c then brokenWord (o + 1) word t else ⟨.expectedWord, o + 1⟩
  | _, _ => ⟨.eofInValue, o⟩

/-- Reads the token that begins with `c` at byte `o`; `t` follows. The result holds the rest of the
text; it is empty if nothing behind the token can be read. -/
def readToken (o : Nat) (c : Char) (t : Text) : Token × Text :=
  if c ∈ ['[', ']', '\x7b', '\x7d', ',', ':'] then (⟨o, o + 1, .punct c⟩, t)
  else if c = '"' then
    let (content, stop, rest) := stringToken (o + 1) t
    (⟨o, stop, .string content⟩, rest)
  else if c = '-' ∨ c.isDigit then
    let sign := if c = '-' then 1 else 0
    match readNumeral (c = '-') ((c :: t).drop sign) with
    | .ok (x, n) => (⟨o, o + sign + n, .number x⟩, t.drop (sign + n - 1))
    | .error (cause, n) => (⟨o, o + sign + n, .bad ⟨cause, o + sign + n⟩⟩, [])
  else
    match words.find? fun w => w.1.head? = some c with
    | none => (⟨o, o + 1, .bad ⟨.expectedValue, o + 1⟩⟩, [])
    | some (word, body) =>
      if word.isPrefixOf (c :: t) then (⟨o, o + word.length, body⟩, t.drop (word.length - 1))
      else (⟨o, o + 1, .bad (brokenWord o word (c :: t))⟩, [])

theorem readToken_le (o : Nat) (c : Char) (t : Text) : (readToken o c t).2.length ≤ t.length := by
  unfold readToken
  split
  · exact Nat.le_refl _
  · split
    · exact stringToken_le (o + 1) t
    · split
      · dsimp only
        split <;> simp
      · split
        · simp
        · split <;> simp

/-- White space between tokens. -/
def isWhite (c : Char) : Bool := c = ' ' || c = '\n' || c = '\t' || c = '\r'

/-- The tokens of a text that begins at byte `o`. -/
def tokensFrom (o : Nat) : Text → List Token
  | [] => [⟨o, o, .eof⟩]
  | c :: t =>
    if isWhite c then tokensFrom (o + 1) t
    else
      have := readToken_le o c t
      (readToken o c t).1 :: tokensFrom (readToken o c t).1.stop (readToken o c t).2
  termination_by t => t.length
  decreasing_by all_goals simp only [List.length_cons]; omega

/-- The tokens of a text. -/
def tokens (t : Text) : List Token := tokensFrom 0 t

end LineCensus.Json
