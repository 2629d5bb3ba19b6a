import LineCensus.Text.Basic

/-!
# Blank characters

Two notions of blank occur. Lines are indented by spaces and tabs only (`isIndent`); configuration
values are trimmed of every white space character of Unicode (`isSpace`). A line is blank exactly
when nothing is left of it without its indentation (`trimIndent_eq_nil_iff`); otherwise what is left
begins with a character that is neither space nor tab (`isIndent_of_trimIndent`).
-/

namespace LineCensus.Text

/-- A space or a tab. -/
def isIndent (c : Char) : Bool := c = ' ' || c = '\t'

/-- A character with the white space property of Unicode. -/
def isSpace (c : Char) : Bool :=
  let n := c.toNat
  (9 ≤ n && n ≤ 13) || n == 0x20 || n == 0x85 || n == 0xa0 || n == 0x1680 || (0x2000 ≤ n && n ≤ 0x200a) ||
    n == 0x2028 || n == 0x2029 || n == 0x202f || n == 0x205f || n == 0x3000

/-- The text without the spaces and tabs in front. -/
def trimIndent (t : Text) : Text := t.dropWhile isIndent

/-- The text without white space in front. -/
def trimStart (t : Text) : Text := t.dropWhile isSpace

/-- The text without white space at its end. -/
def trimEnd (t : Text) : Text := (t.reverse.dropWhile isSpace).reverse

/-- The text without white space at both ends. -/
def trim (t : Text) : Text := trimEnd (trimStart t)

/-- The text consists of spaces and tabs. -/
def isBlank (t : Text) : Bool := t.all isIndent

theorem trimIndent_eq_nil_iff {t : Text} : trimIndent t = [] ↔ isBlank t = true := by
  induction t with
  | nil => simp [trimIndent, isBlank]
  | cons c t ih => cases h : isIndent c <;> simp_all [trimIndent, isBlank]

theorem trimIndent_ne_nil {t : Text} (h : isBlank t = false) : trimIndent t ≠ [] := by
  intro hnil
  rw [trimIndent_eq_nil_iff.1 hnil] at h
  cases h

/-- What is left of a text that is not blank begins with neither a space nor a tab. -/
theorem isIndent_of_trimIndent {t r : Text} {c : Char} (h : trimIndent t = c :: r) :
    isIndent c = false := by
  have := List.head?_dropWhile_not isIndent t
  rw [trimIndent] at h
  simpa [h] using this

/-- Trimming the indentation twice is trimming it once. -/
theorem trimIndent_trimIndent (t : Text) : trimIndent (trimIndent t) = trimIndent t := by
  cases h : trimIndent t with
  | nil => rfl
  | cons c r => simp [trimIndent, isIndent_of_trimIndent h]

end LineCensus.Text
