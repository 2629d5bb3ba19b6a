import LineCensus.Yaml.Fault

/-!
# YAML scalars

A scalar may run over several lines. Line breaks inside it are folded: a single one becomes a space,
of several the first is dropped. `Folding` keeps the blanks and breaks that were passed and may
still turn out to lie inside. `readQuoted` reads a scalar in quotes, `readPlain` one without.
-/

namespace LineCensus.Yaml

/-- A place in a text: characters before it, lines before its line, characters before it on its
line. -/
structure Mark where
  index : Nat
  line : Nat
  column : Nat
  deriving DecidableEq, Repr

namespace Mark

/-- The place `n` characters further on the same line. -/
def skip (m : Mark) (n : Nat) : Mark := ⟨m.index + n, m.line, m.column + n⟩

/-- The beginning of the next line, behind a break of `n` characters. -/
def nextLine (m : Mark) (n : Nat) : Mark := ⟨m.index + n, m.line + 1, 0⟩

end Mark

/-- A line break. -/
def isBreak (c : Char) : Bool :=
  c = '\n' || c = '\r' || c = '\u0085' || c = '\u2028' || c = '\u2029'

/-- Nothing follows, or a blank or a break. -/
def endsWord : Text → Bool
  | [] => true
  | c :: _ => Text.isIndent c || isBreak c

/-- A document marker stands here. -/
def atMarker (t : Text) : Bool :=
  (['-', '-', '-'].isPrefixOf t || ['.', '.', '.'].isPrefixOf t) && endsWord (t.drop 3)

/-- Splits off a line break: what it stands for, its number of characters, and what follows. -/
def takeBreak? : Text → Option (Char × Nat × Text)
  | '\r' :: '\n' :: t => some ('\n', 2, t)
  | c :: t =>
    if c = '\u2028' ∨ c = '\u2029' then some (c, 1, t)
    else if isBreak c then some ('\n', 1, t)
    else none
  | [] => none

theorem takeBreak?_lt {t r : Text} {c : Char} {n : Nat} (h : takeBreak? t = some (c, n, r)) :
    r.length < t.length := by
  unfold takeBreak? at h
  repeat' split at h
  all_goals simp_all
  all_goals obtain ⟨_, _, rfl⟩ := h
  all_goals omega

/-- The characters of a scalar read so far, last first, and the blanks and breaks passed since. -/
structure Folding where
  done : Text
  /-- Blanks before any break. -/
  blanks : Text
  /-- The first break, empty if it was escaped. -/
  first : Option Text
  /-- Further breaks, last first. -/
  others : Text

namespace Folding

/-- Nothing read yet. -/
def empty : Folding := ⟨[], [], none, []⟩

/-- Blanks or breaks were passed. -/
def isPending (f : Folding) : Bool := f.blanks ≠ [] || f.first.isSome

/-- Passes a blank; behind a break it is indentation. -/
def blank (f : Folding) (c : Char) : Folding :=
  if f.first.isSome then f else { f with blanks := c :: f.blanks }

/-- Passes a break; blanks before it are dropped. -/
def lineBreak (f : Folding) (c : Char) : Folding :=
  if f.first.isSome then { f with others := c :: f.others } else { f with blanks := [], first := some [c] }

/-- Takes what was passed into the scalar. -/
def settle (f : Folding) : Folding :=
  let passed :=
    match f.first with
    | none => f.blanks
    | some ['\n'] => if f.others = [] then [' '] else f.others
    | some first => f.others ++ first
  ⟨passed ++ f.done, [], none, []⟩

/-- Takes a character into the scalar. -/
def char (f : Folding) (c : Char) : Folding :=
  let f := f.settle
  { f with done := c :: f.done }

/-- The scalar without what was passed behind it. -/
def text (f : Folding) : Text := f.done.reverse

end Folding

/-- What a letter behind a backslash stands for. -/
def escapes : List (Char × Char) :=
  [('0', '\x00'), ('a', '\x07'), ('b', '\x08'), ('t', '\t'), ('\t', '\t'), ('n', '\n'), ('v', '\x0b'),
    ('f', '\x0c'), ('r', '\r'), ('e', '\x1b'), (' ', ' '), ('"', '"'), ('/', '/'), ('\\', '\\'),
    ('N', '\u0085'), ('_', '\u00a0'), ('L', '\u2028'), ('P', '\u2029')]

/-- How many hexadecimal digits follow a letter behind a backslash. -/
def codeLength? : Char → Option Nat
  | 'x' => some 2
  | 'u' => some 4
  | 'U' => some 8
  | _ => none

/-- The value of a hexadecimal digit. -/
def hexDigit? (c : Char) : Option Nat :=
  if '0' ≤ c ∧ c ≤ '9' then some (c.toNat - '0'.toNat)
  else if 'a' ≤ c ∧ c ≤ 'f' then some (c.toNat - 'a'.toNat + 10)
  else if 'A' ≤ c ∧ c ≤ 'F' then some (c.toNat - 'A'.toNat + 10)
  else none

/-- The character of a code of `n` hexadecimal digits. -/
def ofCode? (n : Nat) (t : Text) : Option Char := do
  let ds ← (t.take n).mapM hexDigit?
  if ds.length < n then none
  let code := ds.foldl (fun code d => 16 * code + d) 0
  if code.isValidChar then some (Char.ofNat code) else none

/-- Reads the rest of a scalar in quotes; the result holds its text, and the place and the text
behind the closing quote. -/
def readQuoted (quote : Char) (f : Folding) (m : Mark) (t : Text) : Except Fault (Text × Mark × Text) :=
  match h : takeBreak? t with
  | some (c, n, rest) =>
    have := takeBreak?_lt h
    readQuoted quote (f.lineBreak c) (m.nextLine n) rest
  | none =>
    if m.column = 0 ∧ atMarker t then .error .markerInQuotes
    else
      match t with
      | [] => .error .unclosedQuotes
      | c :: rest =>
        if Text.isIndent c then readQuoted quote (f.blank c) (m.skip 1) rest
        else if c = '\'' ∧ quote = '\'' ∧ rest.head? = some '\'' then
          readQuoted quote (f.char '\'') (m.skip 2) (rest.drop 1)
        else if c = quote then .ok (f.settle.text, m.skip 1, rest)
        else if c = '\\' ∧ quote = '"' then
          match hb : takeBreak? rest with
          | some (_, n, rest') =>
            have := takeBreak?_lt hb
            readQuoted quote { f.settle with first := some [] } (m.nextLine (n + 1)) rest'
          | none =>
            match rest with
            | [] => .error .unknownEscape
            | e :: rest =>
              match escapes.lookup e with
              | some d => readQuoted quote (f.char d) (m.skip 2) rest
              | none =>
                match codeLength? e with
                | none => .error .unknownEscape
                | some n =>
                  match ofCode? n rest with
                  | none => .error .badCharacterCode
                  | some d => readQuoted quote (f.char d) (m.skip (2 + n)) (rest.drop n)
        else readQuoted quote (f.char c) (m.skip 1) rest
  termination_by t.length
  decreasing_by all_goals simp_all only [List.length_cons, List.length_drop] <;> omega

/-- A plain scalar inside a flow collection ends before one of these. -/
def endsFlowScalar (c : Char) : Bool := c ∈ [',', '[', ']', '\x7b', '\x7d']

/-- Reads the rest of a plain scalar that must be indented by `indent`. The result holds its text,
the place and the text behind the blanks that follow it, and whether these include a break. -/
def readPlain (inFlow : Bool) (indent : Int) (f : Folding) (m : Mark) (t : Text) :
    Except Fault (Text × Mark × Text × Bool) :=
  let ended : Except Fault (Text × Mark × Text × Bool) := .ok (f.text, m, t, f.first.isSome)
  match h : takeBreak? t with
  | some (c, n, rest) =>
    have := takeBreak?_lt h
    readPlain inFlow indent (f.lineBreak c) (m.nextLine n) rest
  | none =>
    match t with
    | [] => ended
    | c :: rest =>
      if Text.isIndent c then
        if c = '\t' ∧ f.first.isSome ∧ m.column < indent then .error .tabInIndentation
        else readPlain inFlow indent (f.blank c) (m.skip 1) rest
      else if f.isPending ∧ ¬ inFlow ∧ m.column < indent then ended
      else if m.column = 0 ∧ atMarker (c :: rest) then ended
      else if f.isPending ∧ c = '#' then ended
      else if inFlow ∧ c = ':' ∧ (rest.head?.any fun d => endsFlowScalar d || d = '?') then
        .error .unexpectedColon
      else if c = ':' ∧ endsWord rest then ended
      else if inFlow ∧ endsFlowScalar c then ended
      else readPlain inFlow indent (f.char c) (m.skip 1) rest
  termination_by t.length
  decreasing_by all_goals simp_all only [List.length_cons] <;> omega

end LineCensus.Yaml
