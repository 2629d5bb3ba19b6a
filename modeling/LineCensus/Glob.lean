import LineCensus.Text.Utf8

/-!
# Glob patterns

A pattern is read into `Glob.Token`s and matched against the bytes of a path. `*` and `?` stop at
slashes, `**` between slashes or at an end spans directories, `[...]` is one byte out of ranges,
`{a,b}` is one of several patterns, and a backslash takes the next character as it is. A bracket
that is never closed stands for itself.

`Token.remainders` gives what may be left of a text behind a token, so a pattern matches a text
when nothing can be left of it (`matchesAll`).
-/

namespace LineCensus.Glob

/-- A text as bytes. -/
abbrev Bytes := List UInt8

/-- A part of a pattern. -/
inductive Token where
  | literal (c : Char)
  /-- One byte that is no slash. -/
  | single
  /-- Any bytes that are no slashes. -/
  | star
  /-- Any leading directories, or none. -/
  | leading
  /-- Everything below a directory. -/
  | inside
  /-- Any directories between two slashes, or none. -/
  | between
  /-- One byte in one of the ranges, or in none of them. -/
  | oneOf (isNegated : Bool) (ranges : List (UInt8 × UInt8))
  | alternatives (patterns : List (List Token))

/-! ### Matching -/

/-- The byte of a slash. -/
def slash : UInt8 := 0x2f

/-- What may be left of a text when some of its bytes before the first slash are passed. -/
def pastName : Bytes → List Bytes
  | [] => [[]]
  | b :: r => (b :: r) :: (if b = slash then [] else pastName r)

/-- What may be left of a text behind one of its slashes. -/
def pastSlashes : Bytes → List Bytes
  | [] => []
  | b :: r => (if b = slash then [r] else []) ++ pastSlashes r

/-- What may be left of a text when any of its bytes are passed. -/
def pastAny : Bytes → List Bytes
  | [] => [[]]
  | b :: r => (b :: r) :: pastAny r

/-- The byte is in one of the ranges. -/
def inRanges (b : UInt8) (ranges : List (UInt8 × UInt8)) : Bool := ranges.any fun r => r.1 ≤ b && b ≤ r.2

mutual

/-- The token stands for nothing at all. -/
def Token.isVoid : Token → Bool
  | .alternatives patterns => allVoid patterns
  | _ => false

/-- The pattern stands for nothing at all. -/
def isVoid : List Token → Bool
  | [] => true
  | t :: ts => t.isVoid && isVoid ts

/-- All patterns stand for nothing at all. -/
def allVoid : List (List Token) → Bool
  | [] => true
  | p :: ps => isVoid p && allVoid ps

end

mutual

/-- What may be left of a text behind a token. -/
def Token.remainders (s : Bytes) : Token → List Bytes
  | .literal c =>
    let bytes := Utf8.encodeChar c
    if bytes.isPrefixOf s then [s.drop bytes.length] else []
  | .single =>
    match s with
    | b :: r => if b = slash then [] else [r]
    | [] => []
  | .star => pastName s
  | .leading => s :: pastSlashes s
  | .inside =>
    match s with
    | b :: r => if b = slash then pastAny r else []
    | [] => []
  | .between =>
    match s with
    | b :: r => if b = slash then r :: pastSlashes r else []
    | [] => []
  | .oneOf isNegated ranges =>
    match s with
    | b :: r => if inRanges b ranges != isNegated then [r] else []
    | [] => []
  | .alternatives patterns => if allVoid patterns then [s] else anyRemainders s patterns

/-- What may be left of one of several texts behind a pattern. -/
def remainders (ss : List Bytes) : List Token → List Bytes
  | [] => ss
  | t :: ts => remainders (ss.flatMap fun s => t.remainders s).eraseDups ts

/-- What may be left of a text behind one of several patterns; those that stand for nothing do not
count. -/
def anyRemainders (s : Bytes) : List (List Token) → List Bytes
  | [] => []
  | p :: ps => (if isVoid p then [] else remainders [s] p) ++ anyRemainders s ps

end

/-- The pattern matches the whole text. A pattern of nothing but leading directories matches
everything. -/
def matchesAll (pattern : List Token) (s : Bytes) : Bool :=
  match pattern with
  | [.leading] => true
  | _ => (remainders [s] pattern).contains []

/-! ### Reading -/

/-- The state of reading a pattern. -/
structure Reader where
  /-- The pattern being read, last token first, and those around it that are not complete. -/
  branch : List Token
  /-- For each open brace, innermost first: the complete alternatives, last first, and the tokens
  before the brace. -/
  pending : List (List (List Token) × List Token)
  /-- The last character read. -/
  previous : Option Char
  /-- An opening bracket was found that is never closed. -/
  bracketsAreLiteral : Bool

namespace Reader

/-- Before the first character. -/
def start : Reader := ⟨[], [], none, false⟩

/-- Adds a token. -/
def push (r : Reader) (t : Token) : Reader := { r with branch := t :: r.branch }

/-- Two or more stars, behind which `rest` stands. Also says whether a slash there is taken. -/
def pushStars (r : Reader) (rest : Text) : Reader × Bool :=
  let atEnd := rest = [] ∨ rest.head? = some '/'
  let plain := (r.push .star).push .star
  if r.branch = [] then
    if atEnd then (r.push .leading, rest ≠ []) else (plain, false)
  else if r.previous ≠ some '/' ∧ (r.pending = [] ∨ (r.previous ≠ some ',' ∧ r.previous ≠ some '\x7b')) then
    (plain, false)
  else
    let isLast := rest = [] ∨ (r.pending ≠ [] ∧ (rest.head? = some ',' ∨ rest.head? = some '\x7d'))
    if ¬ isLast ∧ rest.head? ≠ some '/' then (plain, false)
    else
      match r.branch with
      | .leading :: outer => ({ r with branch := .leading :: outer }, ¬ isLast)
      | .inside :: outer => ({ r with branch := .inside :: outer }, ¬ isLast)
      | _ :: outer => ({ r with branch := (if isLast then .inside else .between) :: outer }, ¬ isLast)
      | [] => (plain, false)

end Reader

/-- The byte ranges of one range of characters. A character that is not ASCII counts as its
bytes, of which only the last or first takes part in the range. -/
def byteRanges (low high : Char) : Option (List (UInt8 × UInt8)) :=
  let single (b : UInt8) : UInt8 × UInt8 := (b, b)
  if low = high then some ((Utf8.encodeChar low).map single)
  else
    match (Utf8.encodeChar low).reverse, Utf8.encodeChar high with
    | last :: before, first :: behind =>
      if last ≤ first then some (before.reverse.map single ++ (last, first) :: behind.map single) else none
    | _, _ => none

/-- What a bracket comes to. -/
inductive Class where
  /-- It is never closed. -/
  | unclosed
  /-- A range in it is empty. -/
  | invalid
  | closed (ranges : List (Char × Char)) (rest : Text)

/-- Reads the inside of a bracket. `ranges` holds the ranges so far, last first; `first` says that
nothing was read yet, `inRange` that a dash awaits the end of its range. -/
def readClass (first inRange : Bool) (ranges : List (Char × Char)) : Text → Class
  | [] => .unclosed
  | c :: rest =>
    let extended : Class :=
      match ranges with
      | (low, _) :: outer => if c < low then .invalid else readClass false false ((low, c) :: outer) rest
      | [] => readClass false false [(c, c)] rest
    if c = ']' then
      if first then readClass false inRange [(']', ']')] rest
      else .closed (if inRange then ('-', '-') :: ranges else ranges).reverse rest
    else if c = '-' then
      if first then readClass false inRange [('-', '-')] rest
      else if inRange then extended
      else readClass false true ranges rest
    else if inRange then extended
    else readClass false false ((c, c) :: ranges) rest

/-- The token of a closed bracket. -/
def classToken (isNegated : Bool) (ranges : List (Char × Char)) : Option Token := do
  let ranges ← ranges.mapM fun r => byteRanges r.1 r.2
  return .oneOf isNegated ranges.flatten

/-- Reads the rest of a pattern, which has at most `fuel` characters; `none` if it is no pattern. -/
def readFrom : Nat → Reader → Text → Option (List Token)
  | _, r, [] => if r.pending = [] then r.branch.reverse else none
  | 0, _, _ => none
  | fuel + 1, r, c :: rest =>
    let next := { r with previous := some c }
    if c = '?' then readFrom fuel (next.push .single) rest
    else if c = '*' then
      match rest with
      | '*' :: rest =>
        let (r, takesSlash) := r.pushStars rest
        if takesSlash then readFrom fuel { r with previous := some '/' } (rest.drop 1)
        else readFrom fuel { r with previous := some '*' } rest
      | _ => readFrom fuel (next.push .star) rest
    else if c = '[' ∧ ¬ r.bracketsAreLiteral then
      let isNegated := rest.head? = some '!' ∨ rest.head? = some '^'
      match readClass true false [] (if isNegated then rest.drop 1 else rest) with
      | .unclosed => readFrom fuel { next.push (.literal '[') with bracketsAreLiteral := true } rest
      | .invalid => none
      | .closed ranges rest => do
        let token ← classToken isNegated ranges
        readFrom fuel { r.push token with previous := some ']' } rest
    else if c = '\x7b' then
      readFrom fuel { next with branch := [], pending := ([], r.branch) :: r.pending } rest
    else if c = '\x7d' then
      match r.pending with
      | [] => none
      | (done, before) :: outer =>
        let token := Token.alternatives ((r.branch.reverse :: done).reverse)
        readFrom fuel { next with branch := token :: before, pending := outer } rest
    else if c = ',' then
      match r.pending with
      | [] => readFrom fuel (next.push (.literal ',')) rest
      | (done, before) :: outer =>
        readFrom fuel { next with branch := [], pending := (r.branch.reverse :: done, before) :: outer } rest
    else if c = '\\' then
      match rest with
      | [] => none
      | d :: rest => readFrom fuel ({ r with previous := some d }.push (.literal d)) rest
    else readFrom fuel (next.push (.literal c)) rest

/-- Reads a pattern; `none` if it is none. -/
def read (t : Text) : Option (List Token) := readFrom t.length .start t

end LineCensus.Glob
