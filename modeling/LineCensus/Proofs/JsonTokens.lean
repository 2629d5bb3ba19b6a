import LineCensus.Json.Token
import LineCensus.Json.Value

/-!
# The tokens that a text holds

`SpelledText` says how the content of a string may be spelled, and `Written` how a list of tokens may be
written: with any white space in front of each of them and behind the last. Strings read as what they spell
(`SpelledText.readString_eq`), and a text holds the tokens that are written in it
(`Written.map_body_tokensFrom`).
-/

namespace LineCensus.Json

/-! ### Strings -/

/-- The number that four hexadecimal digits stand for. -/
def hexFour? (a b c d : Char) : Option Nat := do
  let w ← hexDigit? a
  let x ← hexDigit? b
  let y ← hexDigit? c
  let z ← hexDigit? d
  return ((w * 16 + x) * 16 + y) * 16 + z

/-- How a character may be spelled inside a string. -/
inductive SpelledChar : Char → Text → Prop where
  | plain {c : Char} (quote : c ≠ '"') (backslash : c ≠ '\\') (control : 0x20 ≤ c.toNat) : SpelledChar c [c]
  | letter {c d : Char} (h : escaped? d = some c) : SpelledChar c ['\\', d]
  | digits {a b c d : Char} {n : Nat} (h : hexFour? a b c d = some n) (high : isHigh n = false)
      (low : isLow n = false) : SpelledChar (Char.ofNat n) ['\\', 'u', a, b, c, d]
  /-- Two halves of a surrogate pair. -/
  | pair {a b c d a' b' c' d' : Char} {n k : Nat} (h : hexFour? a b c d = some n) (high : isHigh n = true)
      (h' : hexFour? a' b' c' d' = some k) (low : isLow k = true) :
      SpelledChar (Char.ofNat (0x10000 + (n - 0xd800) * 0x400 + (k - 0xdc00)))
        ['\\', 'u', a, b, c, d, '\\', 'u', a', b', c', d']

/-- How a text may be spelled inside a string. -/
inductive SpelledText : Text → Text → Prop where
  | nil : SpelledText [] []
  | cons {c : Char} {s v w : Text} (first : SpelledChar c v) (rest : SpelledText s w) :
      SpelledText (c :: s) (v ++ w)

/-- Four hexadecimal digits are read as the character that they come to, or wait for the second half of a
pair. -/
theorem readString_hexFour {a b c d : Char} {n : Nat} (h : hexFour? a b c d = some n) {high : Option Nat}
    {r : Char ⊕ Nat} (complete : completeHex true high n = .ok r) (done : Text) (o : Nat) (t : Text) :
    readString true (.hex high 0 4) done o (a :: b :: c :: d :: t) =
      match r with
      | .inl e => readString true .plain (e :: done) (o + 4) t
      | .inr k => readString true (.pairBackslash k) done (o + 4) t := by
  simp only [hexFour?, Option.bind_eq_bind, Option.bind_eq_some_iff, Option.pure_def, Option.some.injEq] at h
  obtain ⟨w, hw, x, hx, y, hy, z, hz, rfl⟩ := h
  simp only [readString, hw, hx, hy, hz, Nat.zero_mul, Nat.zero_add, Nat.add_assoc, Nat.reduceAdd, Nat.reduceLT,
    Nat.reduceSub, if_true] at complete ⊢
  simp only [complete]
  cases r <;> rfl

/-- A spelled character is read as that character. -/
theorem SpelledChar.readString_eq {c : Char} {w : Text} (h : SpelledChar c w) (done : Text) (o : Nat) (t : Text) :
    ∃ o', readString true .plain done o (w ++ t) = readString true .plain (c :: done) o' t := by
  cases h with
  | plain hquote hbackslash hcontrol =>
    refine ⟨o + c.utf8Size, ?_⟩
    have hcontrol' : ¬ c.toNat < 0x20 := Nat.not_lt.2 hcontrol
    rw [List.cons_append, List.nil_append, readString, if_neg hquote, if_neg hbackslash, if_neg hcontrol']
  | @letter c d h =>
    have hu : d ≠ 'u' := by
      rintro rfl
      cases h
    refine ⟨o + 1 + 1, ?_⟩
    simp [readString, hu, h]
  | @digits a b c d n h hhigh hlow =>
    have hcomplete : completeHex true none n = .ok (.inl (Char.ofNat n)) := by
      simp [completeHex, hhigh, hlow]
    -- the backslash and the letter `u` are read by computation
    exact ⟨_, readString_hexFour h hcomplete done (o + 2) t⟩
  | @pair a b c d a' b' c' d' n k h hhigh h' hlow =>
    have hnotLow : isLow n = false := by
      simp only [isHigh, isLow, Bool.and_eq_true, decide_eq_true_eq, Bool.and_eq_false_iff,
        decide_eq_false_iff_not] at hhigh ⊢
      omega
    have hhalf : completeHex true none n = .ok (.inr n) := by
      simp [completeHex, hhigh, hnotLow]
    have hwhole : completeHex true (some n) k =
        .ok (.inl (Char.ofNat (0x10000 + (n - 0xd800) * 0x400 + (k - 0xdc00)))) := by
      simp [completeHex, hlow]
    have hfirst := readString_hexFour h hhalf done (o + 2) ('\\' :: 'u' :: a' :: b' :: c' :: d' :: t)
    have hsecond := readString_hexFour h' hwhole done (o + 8) t
    exact ⟨_, hfirst.trans hsecond⟩

/-- A spelled text is read up to the quote behind it. -/
theorem SpelledText.readString_eq {s w : Text} (h : SpelledText s w) (done : Text) (o : Nat) (t : Text) :
    ∃ o', readString true .plain done o (w ++ '"' :: t) = .ok (done.reverse ++ s, o', t) := by
  induction h generalizing done o with
  | nil => exact ⟨o + 1, by simp [readString]⟩
  | @cons c s v w first _ ih =>
    obtain ⟨o₁, h₁⟩ := first.readString_eq done o (w ++ '"' :: t)
    obtain ⟨o₂, h₂⟩ := ih (c :: done) o₁
    refine ⟨o₂, ?_⟩
    rw [List.append_assoc, h₁, h₂, List.reverse_cons, List.append_assoc, List.singleton_append]

theorem SpelledText.stringToken_eq {s w : Text} (h : SpelledText s w) (o : Nat) (t : Text) :
    ∃ o', stringToken o (w ++ '"' :: t) = (.ok s, o', t) := by
  obtain ⟨o', hread⟩ := h.readString_eq [] o t
  refine ⟨o', ?_⟩
  rw [stringToken, hread]
  rfl

theorem hexFour?_control {n : Nat} (h : n < 0x10) : hexFour? '0' '0' '0' n.digitChar = some n := by
  revert n
  decide

/-- The control characters with two digits. -/
theorem hex_control {n : Nat} (hn : n < 0x20) (h : 0x10 ≤ n) :
    Text.hex n = ['1', (n - 0x10).digitChar] ∧ hexFour? '0' '0' '1' (n - 0x10).digitChar = some n := by
  revert n
  decide

/-- Characters are written as they may be spelled. -/
theorem spelledChar_escape (c : Char) : SpelledChar c (Value.escape c) := by
  unfold Value.escape
  -- the characters with a letter of their own
  iterate 7
    split
    · subst c
      exact .letter rfl
  have hcontrol : c.toNat < 0x20 → isHigh c.toNat = false ∧ isLow c.toNat = false := by
    intro hc
    simp only [isHigh, isLow, Bool.and_eq_false_iff, decide_eq_false_iff_not]
    omega
  split
  · rename_i hc
    obtain ⟨hhigh, hlow⟩ := hcontrol (by omega)
    have hspelled := SpelledChar.digits (hexFour?_control hc) hhigh hlow
    rw [Char.ofNat_toNat] at hspelled
    rw [Text.hex, Nat.toDigits_of_lt_base hc]
    exact hspelled
  split
  · rename_i hlow hc
    obtain ⟨hhex, hfour⟩ := hex_control hc (by omega)
    obtain ⟨hhigh, hlow⟩ := hcontrol hc
    have hspelled := SpelledChar.digits hfour hhigh hlow
    rw [Char.ofNat_toNat] at hspelled
    rw [hhex]
    exact hspelled
  · rename_i hquote hbackslash _ _ _ _ _ _ hc
    exact .plain hquote hbackslash (Nat.not_lt.1 hc)

theorem spelledText_flatMap_escape (s : Text) : SpelledText s (s.flatMap Value.escape) := by
  induction s with
  | nil => exact .nil
  | cons c s ih => exact .cons (spelledChar_escape c) ih

/-! ### Numbers -/

/-- One digit or more. -/
structure Digits (ds : Text) : Prop where
  ne_nil : ds ≠ []
  all : ∀ c ∈ ds, c.isDigit = true

/-- How an exponent may be spelled; without one nothing is. -/
inductive SpelledExponent : Option (Bool × Text) → Text → Prop where
  | none : SpelledExponent none []
  | plain {e : Char} {ds : Text} (letter : e = 'e' ∨ e = 'E') (digits : Digits ds) :
      SpelledExponent (some (false, ds)) (e :: ds)
  | signed {e : Char} {ds : Text} (isNegative : Bool) (letter : e = 'e' ∨ e = 'E') (digits : Digits ds) :
      SpelledExponent (some (isNegative, ds)) (e :: (if isNegative then '-' else '+') :: ds)

/-- How a fraction may be spelled; without one nothing is. -/
inductive SpelledFraction : Text → Text → Prop where
  | none : SpelledFraction [] []
  | point {ds : Text} (digits : Digits ds) : SpelledFraction ds ('.' :: ds)

/-- How a number may be spelled behind its sign. -/
inductive SpelledNumber : Numeral → Text → Prop where
  | mk {isNegative : Bool} {whole fraction v w : Text} {exponent : Option (Bool × Text)} (digits : Digits whole)
      (zero : whole.head? = some '0' → whole.length = 1) (hfraction : SpelledFraction fraction v)
      (hexponent : SpelledExponent exponent w) :
      SpelledNumber ⟨isNegative, whole, fraction, exponent⟩ (whole ++ (v ++ w))

/-- No number goes on with this text. -/
def EndsNumber (t : Text) : Prop :=
  ∀ c ∈ t.head?, c.isDigit = false ∧ c ≠ '.' ∧ c ≠ 'e' ∧ c ≠ 'E'

theorem takeWhile_isDigit {t : Text} (h : ∀ c ∈ t.head?, c.isDigit = false) : t.takeWhile Char.isDigit = [] := by
  cases t with
  | nil => rfl
  | cons c t => simp [h c rfl]

theorem Digits.someDigits_eq {ds t : Text} (h : Digits ds) (ht : ∀ c ∈ t.head?, c.isDigit = false) (n : Nat) :
    someDigits n (ds ++ t) = .ok (ds, n + ds.length) := by
  have htake : (ds ++ t).takeWhile Char.isDigit = ds := by
    rw [List.takeWhile_append_of_pos h.all, takeWhile_isDigit ht, List.append_nil]
  obtain ⟨c, r, rfl⟩ := List.exists_cons_of_ne_nil h.ne_nil
  rw [someDigits, htake]

theorem readWhole_append {whole t : Text} (digits : Digits whole) (zero : whole.head? = some '0' → whole.length = 1)
    (ht : ∀ c ∈ t.head?, c.isDigit = false) : readWhole (whole ++ t) = .ok (whole, whole.length) := by
  have hsingle : ¬ (whole.head? = some '0' ∧ 1 < 0 + whole.length) := by
    rintro ⟨hhead, hlength⟩
    have := zero hhead
    omega
  simp only [readWhole, digits.someDigits_eq ht, bind, Except.bind, hsingle, if_false]
  rw [Nat.zero_add]
  rfl

theorem SpelledFraction.readFraction_eq {fraction v t : Text} (h : SpelledFraction fraction v)
    (ht : ∀ c ∈ t.head?, c.isDigit = false ∧ c ≠ '.') (n : Nat) :
    readFraction n (v ++ t) = .ok (fraction, n + v.length) := by
  cases h with
  | none =>
    cases t with
    | nil => rfl
    | cons c t =>
      have hc := (ht c rfl).2
      unfold readFraction
      split
      · rename_i heq
        cases heq
        exact absurd rfl hc
      · rfl
  | point digits =>
    have hdigits := digits.someDigits_eq (fun c hc => (ht c hc).1) (n + 1)
    rw [List.cons_append, readFraction, hdigits, List.length_cons, Nat.add_assoc, Nat.add_comm 1]

theorem SpelledExponent.readExponent_eq {exponent : Option (Bool × Text)} {w t : Text}
    (h : SpelledExponent exponent w) (ht : EndsNumber t) (n : Nat) :
    readExponent n (w ++ t) = .ok (exponent, n + w.length) := by
  cases h with
  | none =>
    cases t with
    | nil => rfl
    | cons c t =>
      obtain ⟨-, -, he, hE⟩ := ht c rfl
      simp [readExponent, he, hE]
  | @plain e ds letter digits =>
    have hdigits := digits.someDigits_eq (fun c hc => (ht c hc).1) (n + 1)
    obtain ⟨d, r, rfl⟩ := List.exists_cons_of_ne_nil digits.ne_nil
    have hd := digits.all d List.mem_cons_self
    have hplus : d ≠ '+' := by
      rintro rfl
      cases hd
    have hminus : d ≠ '-' := by
      rintro rfl
      cases hd
    rw [List.cons_append] at hdigits
    simp only [List.cons_append, readExponent, if_pos letter]
    split
    · rename_i heq
      exact absurd (List.cons.inj heq).1 hplus
    · rename_i heq
      exact absurd (List.cons.inj heq).1 hminus
    · rw [hdigits, List.length_cons, Nat.add_assoc, Nat.add_comm 1]
      rfl
  | @signed e ds isNegative letter digits =>
    have hdigits := digits.someDigits_eq (fun c hc => (ht c hc).1) (n + 2)
    cases isNegative <;>
    · simp only [List.cons_append, readExponent, if_pos letter, Bool.false_eq_true, if_false, if_true, hdigits]
      rw [List.length_cons, List.length_cons, Nat.add_assoc, Nat.add_comm 2]
      rfl

/-- Neither an exponent nor what follows a number goes on with its digits. -/
theorem SpelledExponent.head?_append {exponent : Option (Bool × Text)} {w t : Text} (h : SpelledExponent exponent w)
    (ht : EndsNumber t) : ∀ c ∈ (w ++ t).head?, c.isDigit = false ∧ c ≠ '.' := by
  intro c hc
  cases h with
  | none =>
    obtain ⟨hdigit, hpoint, -, -⟩ := ht c hc
    exact ⟨hdigit, hpoint⟩
  | plain letter _ =>
    cases hc
    rcases letter with rfl | rfl <;> decide
  | signed _ letter _ =>
    cases hc
    rcases letter with rfl | rfl <;> decide

theorem SpelledFraction.head?_append {fraction v t : Text} (h : SpelledFraction fraction v)
    (ht : ∀ c ∈ t.head?, c.isDigit = false) : ∀ c ∈ (v ++ t).head?, c.isDigit = false := by
  intro c hc
  cases h with
  | none => exact ht c hc
  | point _ =>
    cases hc
    rfl

/-- A spelled number is read in front of a text with which no number goes on. -/
theorem SpelledNumber.readNumeral_eq {n : Numeral} {w t : Text} (h : SpelledNumber n w) (ht : EndsNumber t) :
    readNumeral n.isNegative (w ++ t) = .ok (n, w.length) := by
  cases h with
  | @mk isNegative whole fraction v w exponent digits zero hfraction hexponent =>
    have hbehind := hexponent.head?_append ht
    have hwhole : readWhole (whole ++ (v ++ (w ++ t))) = .ok (whole, whole.length) :=
      readWhole_append digits zero (hfraction.head?_append fun c hc => (hbehind c hc).1)
    have hdrop : (whole ++ (v ++ (w ++ t))).drop (whole.length + v.length) = w ++ t := by
      rw [← List.append_assoc, ← List.length_append, List.drop_left]
    simp only [readNumeral, List.append_assoc, hwhole, bind, Except.bind, List.drop_left,
      hfraction.readFraction_eq hbehind, hdrop, hexponent.readExponent_eq ht]
    simp only [List.length_append, Nat.add_assoc]
    rfl

/-! ### Tokens -/

/-- A text in which these tokens are written, with any white space in front of them and behind the last. -/
inductive Written : Text → List Token.Body → Prop where
  | nil : Written [] []
  | white {c : Char} {t : Text} {bs : List Token.Body} (h : isWhite c = true) (rest : Written t bs) :
      Written (c :: t) bs
  | punct {c : Char} {t : Text} {bs : List Token.Body} (h : c ∈ ['[', ']', '\x7b', '\x7d', ',', ':'])
      (rest : Written t bs) : Written (c :: t) (.punct c :: bs)
  | word {w t : Text} {b : Token.Body} {bs : List Token.Body} (h : (w, b) ∈ words) (rest : Written t bs) :
      Written (w ++ t) (b :: bs)
  | natural {n : Numeral} {w t : Text} {bs : List Token.Body} (h : SpelledNumber n w) (sign : n.isNegative = false)
      (ends : EndsNumber t) (rest : Written t bs) : Written (w ++ t) (.number n :: bs)
  | negative {n : Numeral} {w t : Text} {bs : List Token.Body} (h : SpelledNumber n w) (sign : n.isNegative = true)
      (ends : EndsNumber t) (rest : Written t bs) : Written ('-' :: (w ++ t)) (.number n :: bs)
  | string {s w t : Text} {bs : List Token.Body} (h : SpelledText s w) (rest : Written t bs) :
      Written ('"' :: (w ++ '"' :: t)) (.string (.ok s) :: bs)

theorem isWhite_of_punct {c : Char} (h : c ∈ ['[', ']', '\x7b', '\x7d', ',', ':']) : isWhite c = false := by
  simp only [List.mem_cons, List.not_mem_nil, or_false] at h
  rcases h with rfl | rfl | rfl | rfl | rfl | rfl <;> rfl

/-- A token that begins with a character is the first of the text, and others follow. -/
theorem map_body_of_readToken {c : Char} {t r : Text} {o stop : Nat} {b : Token.Body} {bs : List Token.Body}
    (hwhite : isWhite c = false) (hread : readToken o c t = (⟨o, stop, b⟩, r))
    (ih : (tokensFrom stop r).map Token.body = bs) : (tokensFrom o (c :: t)).map Token.body = b :: bs := by
  rw [tokensFrom, if_neg (by rw [hwhite]; exact Bool.false_ne_true)]
  simp only [hread, List.map_cons, ih]

theorem readToken_word {w t : Text} {b : Token.Body} (h : (w, b) ∈ words) (o : Nat) :
    ∃ c r, w = c :: r ∧ isWhite c = false ∧ readToken o c (r ++ t) = (⟨o, o + w.length, b⟩, t) := by
  simp only [words, List.mem_cons, Prod.mk.injEq, List.not_mem_nil, or_false] at h
  rcases h with ⟨rfl, rfl⟩ | ⟨rfl, rfl⟩ | ⟨rfl, rfl⟩ <;> exact ⟨_, _, rfl, rfl, rfl⟩

theorem readToken_natural {n : Numeral} {w t : Text} (h : SpelledNumber n w) (sign : n.isNegative = false)
    (ends : EndsNumber t) (o : Nat) :
    ∃ c r, w = c :: r ∧ isWhite c = false ∧ readToken o c (r ++ t) = (⟨o, o + w.length, .number n⟩, t) := by
  have hread := h.readNumeral_eq ends
  obtain ⟨c, r, rfl, hc⟩ : ∃ c r, w = c :: r ∧ c.isDigit = true := by
    cases h with
    | mk digits _ _ _ =>
      obtain ⟨c, r, rfl⟩ := List.exists_cons_of_ne_nil digits.ne_nil
      exact ⟨c, _, rfl, digits.all c List.mem_cons_self⟩
  have hother : ∀ d : Char, d.isDigit = false → c ≠ d := by
    rintro d hd rfl
    rw [hc] at hd
    cases hd
  have hpunct : c ∉ ['[', ']', '\x7b', '\x7d', ',', ':'] := by
    intro hmem
    simp only [List.mem_cons, List.not_mem_nil, or_false] at hmem
    rcases hmem with rfl | rfl | rfl | rfl | rfl | rfl <;> cases hc
  refine ⟨c, r, rfl, by simp [isWhite, hother], ?_⟩
  rw [sign, List.cons_append] at hread
  rw [readToken, if_neg hpunct, if_neg (hother '"' rfl), if_pos (.inr hc)]
  simp [hother '-' rfl, hread]

/-- A text holds the tokens that are written in it, and ends. -/
theorem Written.map_body_tokensFrom {t : Text} {bs : List Token.Body} (h : Written t bs) (o : Nat) :
    (tokensFrom o t).map Token.body = bs ++ [.eof] := by
  induction h generalizing o with
  | nil =>
    rw [tokensFrom]
    rfl
  | white h _ ih =>
    rw [tokensFrom, if_pos h]
    exact ih (o + 1)
  | @punct c t bs h _ ih =>
    have hread : readToken o c t = (⟨o, o + 1, .punct c⟩, t) := if_pos h
    exact map_body_of_readToken (isWhite_of_punct h) hread (ih (o + 1))
  | word h _ ih =>
    obtain ⟨c, r, rfl, hwhite, hread⟩ := readToken_word h o
    exact map_body_of_readToken hwhite hread (ih _)
  | natural h sign ends _ ih =>
    obtain ⟨c, r, rfl, hwhite, hread⟩ := readToken_natural h sign ends o
    exact map_body_of_readToken hwhite hread (ih _)
  | @negative n w t bs h sign ends _ ih =>
    have hread : readToken o '-' (w ++ t) = (⟨o, o + 1 + w.length, .number n⟩, t) := by
      have hnumeral := h.readNumeral_eq ends
      rw [sign] at hnumeral
      simp [readToken, hnumeral]
    exact map_body_of_readToken rfl hread (ih _)
  | @string s w t bs h _ ih =>
    obtain ⟨o', hstring⟩ := h.stringToken_eq (o + 1) t
    have hread : readToken o '"' (w ++ '"' :: t) = (⟨o, o', .string (.ok s)⟩, t) := by
      simp [readToken, hstring]
    exact map_body_of_readToken rfl hread (ih o')

end LineCensus.Json
