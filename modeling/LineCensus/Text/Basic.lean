/-!
# Text as a list of characters

Lines, markers, configuration values and paths are read character by character, so every rule of
the library is stated on `Text`, a list of characters. `String` is used for finished output only
(messages, reports). Offsets into a line count the bytes of its UTF-8 form: `byteSize` is the view
that relates the two, and `byteSize_append` is the one fact offset arithmetic needs.

The entry lemmas are `dropBytes?_append` (dropping the size of a known front leaves the rest) and
`occurrence?_spec` (a search returns the first place where the marker starts).
-/

namespace LineCensus

/-- A text, as its characters in order. -/
abbrev Text := List Char

namespace Text

/-- The finished string with these characters. -/
def toString (t : Text) : String := String.ofList t

/-- The number of bytes of the UTF-8 form. -/
def byteSize : Text → Nat
  | [] => 0
  | c :: t => c.utf8Size + byteSize t

@[simp] theorem byteSize_nil : byteSize [] = 0 := rfl

@[simp] theorem byteSize_cons (c : Char) (t : Text) : byteSize (c :: t) = c.utf8Size + byteSize t := rfl

@[simp] theorem byteSize_append (s t : Text) : byteSize (s ++ t) = byteSize s + byteSize t := by
  induction s with
  | nil => simp
  | cons c s ih => simp [ih, Nat.add_assoc]

/-- The text behind the first `n` bytes; `none` if these end inside a character or do not exist. -/
def dropBytes? (n : Nat) : Text → Option Text
  | [] => if n = 0 then some [] else none
  | c :: t =>
    if n = 0 then some (c :: t)
    else if c.utf8Size ≤ n then dropBytes? (n - c.utf8Size) t
    else none

@[simp] theorem dropBytes?_zero (t : Text) : dropBytes? 0 t = some t := by
  cases t <;> simp [dropBytes?]

/-- Dropping as many bytes as a front has leaves what follows the front. -/
theorem dropBytes?_append (s t : Text) : dropBytes? (byteSize s) (s ++ t) = some t := by
  induction s with
  | nil => simp
  | cons c s ih =>
    have hc := Char.utf8Size_pos c
    simp only [List.cons_append, byteSize_cons, dropBytes?]
    rw [if_neg (by omega), if_pos (by omega), Nat.add_sub_cancel_left, ih]

/-- What is left after dropping `n` bytes follows a front of `n` bytes. -/
theorem dropBytes?_eq_some {n : Nat} {t u : Text} (h : dropBytes? n t = some u) :
    ∃ s, t = s ++ u ∧ byteSize s = n := by
  induction t generalizing n with
  | nil =>
    simp only [dropBytes?] at h
    split at h
    · cases h
      exact ⟨[], by simp_all⟩
    · cases h
  | cons c t ih =>
    simp only [dropBytes?] at h
    split at h
    · cases h
      exact ⟨[], by simp_all⟩
    · split at h
      · obtain ⟨s, rfl, hs⟩ := ih h
        exact ⟨c :: s, rfl, by simp only [byteSize_cons]; omega⟩
      · cases h

/-- The offset of the first place where `m` starts, and the text from that place on; `n` is the
offset of the beginning of the text. -/
def occurrence? (m : Text) (n : Nat) : Text → Option (Nat × Text)
  | [] => if m.isPrefixOf [] then some (n, []) else none
  | c :: t => if m.isPrefixOf (c :: t) then some (n, c :: t) else occurrence? m (n + c.utf8Size) t

/-- A found place splits the text: what lies before it has the size of the offset, the marker
starts there, and it starts at no earlier place. -/
theorem occurrence?_spec {m t u : Text} {n k : Nat} (h : occurrence? m n t = some (k, u)) :
    ∃ s, t = s ++ u ∧ k = n + byteSize s ∧ m <+: u ∧
      ∀ s' u', t = s' ++ u' → m <+: u' → s.length ≤ s'.length := by
  induction t generalizing n with
  | nil =>
    simp only [occurrence?] at h
    split at h
    · cases h
      exact ⟨[], by simp_all⟩
    · cases h
  | cons c t ih =>
    simp only [occurrence?] at h
    split at h
    · cases h
      exact ⟨[], by simp_all⟩
    · rename_i hm
      obtain ⟨s, rfl, rfl, hu, hmin⟩ := ih h
      refine ⟨c :: s, rfl, by simp [Nat.add_assoc], hu, ?_⟩
      intro s' u' he hu'
      cases s' with
      | nil => simp_all
      | cons c' s' =>
        simp only [List.cons_append, List.cons.injEq] at he
        simpa using hmin s' u' he.2 hu'

/-- No place is found exactly when the marker starts at none. -/
theorem occurrence?_eq_none_iff {m t : Text} {n : Nat} :
    occurrence? m n t = none ↔ ∀ s u, t = s ++ u → ¬ m <+: u := by
  induction t generalizing n with
  | nil =>
    simp only [occurrence?]
    constructor
    · intro h s u he
      simp_all
    · intro h
      simpa using h [] [] rfl
  | cons c t ih =>
    simp only [occurrence?]
    constructor
    · intro h s u he
      split at h
      · cases h
      · rename_i hm
        cases s with
        | nil => simp_all
        | cons c' s =>
          simp only [List.cons_append, List.cons.injEq] at he
          exact ih.1 h s u he.2
    · intro h
      have h0 := h [] (c :: t) rfl
      rw [if_neg (by simpa using h0)]
      exact ih.2 fun s u he => h (c :: s) u (by simp [he])

/-- The text contains `m` somewhere. -/
def contains (m t : Text) : Bool := (occurrence? m 0 t).isSome

/-- The text before and behind the first `c`. -/
def splitFirst? (c : Char) (t : Text) : Option (Text × Text) :=
  match t.dropWhile (· != c) with
  | [] => none
  | _ :: rest => some (t.takeWhile (· != c), rest)

/-- The text behind the last `c`; the whole text when it has none. -/
def afterLast (c : Char) (t : Text) : Text := (t.reverse.takeWhile (· != c)).reverse

/-- Drops one trailing `c`, if there is one. -/
def dropLastIf (c : Char) (t : Text) : Text := if t.getLast? = some c then t.dropLast else t

/-- The lines of a text: a line ends with a line feed, which is dropped together with a carriage
return before it; no empty line follows a final line feed. -/
def lines (t : Text) : List Text :=
  match (t.splitOn '\n').reverse with
  | [] => []
  | last :: ended => (ended.map (dropLastIf '\r')).reverse ++ (if last = [] then [] else [last])

/-- The decimal digits of a number. -/
def ofNat (n : Nat) : Text := Nat.toDigits 10 n

/-- The number written by decimal digits, or `none` if another character occurs or there are no
characters at all. -/
def toNat? (t : Text) : Option Nat :=
  if t ≠ [] ∧ t.all Char.isDigit then some (t.foldl (fun n c => 10 * n + (c.toNat - '0'.toNat)) 0) else none

end Text

end LineCensus
