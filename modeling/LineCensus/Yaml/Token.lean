import LineCensus.Yaml.Scalar

/-!
# YAML tokens

`tokens` cuts a text into tokens. Indentation becomes tokens, too: a block collection is opened by
the first entry that is indented further than what surrounds it (`Scanner.indentTo`), and closed by
the first token indented less (`Scanner.dedentTo`).

A scalar or a flow collection may turn out to be a key when a colon follows. So its place among the
tokens is remembered as a `PendingKey`, and `key` is put there when the colon comes. A key must
stand on one line and be shorter than 1024 characters.
-/

namespace LineCensus.Yaml

/-- A token. -/
inductive Token where
  | documentStart
  | documentEnd
  | listStart
  | mapStart
  | blockEnd
  | flowListStart
  | flowListEnd
  | flowMapStart
  | flowMapEnd
  | entry
  | flowEntry
  | key
  | value
  | scalar (text : Text) (isPlain : Bool)
  deriving DecidableEq, Repr

/-- What may turn out to be a key: the number of the token it begins with, and its place. At the
indentation of a block map it must be one. -/
structure PendingKey where
  token : Nat
  mark : Mark
  isRequired : Bool

/-- The state between two tokens. -/
structure Scanner where
  rest : Text
  mark : Mark
  tokens : Array Token
  /-- The number of flow collections that are open. -/
  flow : Nat
  /-- The indentation of the innermost block collection, -1 outside of all. -/
  indent : Int
  outerIndents : List Int
  /-- A key may begin here. -/
  keyAllowed : Bool
  /-- The pending key of each flow level, innermost first. -/
  pending : List (Option PendingKey)

namespace Scanner

/-- At the beginning of a text. -/
def start (t : Text) : Scanner := ⟨t, ⟨0, 0, 0⟩, #[], 0, -1, [], true, [none]⟩

/-- Adds a token. -/
def push (s : Scanner) (tok : Token) : Scanner := { s with tokens := s.tokens.push tok }

/-- Passes `n` characters of the line. -/
def pass (s : Scanner) (n : Nat) : Scanner := { s with rest := s.rest.drop n, mark := s.mark.skip n }

/-- Passes blanks, comments and breaks; tabs only where they cannot be indentation. -/
def passBlanks (s : Scanner) : Scanner :=
  match h : takeBreak? s.rest with
  | some (_, n, rest) =>
    have := takeBreak?_lt h
    passBlanks
      { s with rest, mark := s.mark.nextLine n, keyAllowed := s.keyAllowed || s.flow == 0 }
  | none =>
    match _hs : s.rest with
    | [] => s
    | c :: rest =>
      if c = ' ' ∨ (c = '\t' ∧ (s.flow ≠ 0 ∨ ¬ s.keyAllowed)) ∨ (c = '\ufeff' ∧ s.mark.index = 0) then
        passBlanks { s with rest, mark := s.mark.skip 1 }
      else if c = '#' then
        let comment := rest.takeWhile fun d => !isBreak d
        passBlanks { s with rest := rest.drop comment.length, mark := s.mark.skip (comment.length + 1) }
      else s
  termination_by s.rest.length
  decreasing_by all_goals simp_all only [List.length_cons, List.length_drop] <;> omega

/-- Gives up pending keys on other lines, or too far away. -/
def dropStaleKeys (s : Scanner) : Except Fault Scanner := do
  let pending ← s.pending.mapM fun slot =>
    match slot with
    | some k =>
      if k.mark.line < s.mark.line ∨ k.mark.index + 1024 < s.mark.index then
        if k.isRequired then .error .missingColon else .ok none
      else .ok slot
    | none => .ok none
  return { s with pending }

/-- Gives up the pending key of this flow level. -/
def dropKey (s : Scanner) : Except Fault Scanner :=
  match s.pending with
  | some k :: outer => if k.isRequired then .error .missingColon else .ok { s with pending := none :: outer }
  | _ => .ok s

/-- Remembers that a key may begin here. -/
def noteKey (s : Scanner) : Except Fault Scanner := do
  if s.keyAllowed then
    let s ← s.dropKey
    let isRequired : Bool := s.flow = 0 ∧ s.indent = s.mark.column
    return { s with pending := some ⟨s.tokens.size, s.mark, isRequired⟩ :: s.pending.tail }
  else return s

/-- Opens a block collection at this column, unless one is open there or further right; its token
goes to the given place. -/
def indentTo (s : Scanner) (column : Nat) (place : Nat) (tok : Token) : Scanner :=
  if s.flow = 0 ∧ s.indent < column then
    { s with
      indent := column
      outerIndents := s.indent :: s.outerIndents
      tokens := s.tokens.insertIdxIfInBounds place tok }
  else s

/-- Closes the block collections whose indentation is greater than the column. -/
def closeBlocks (column indent : Int) (tokens : Array Token) : List Int → Int × List Int × Array Token
  | outer :: outers =>
    if column < indent then closeBlocks column outer (tokens.push .blockEnd) outers
    else (indent, outer :: outers, tokens)
  | [] => (indent, [], tokens)

/-- Closes the block collections that end before a token at this column. -/
def dedentTo (s : Scanner) (column : Int) : Scanner :=
  if s.flow ≠ 0 then s
  else
    let (indent, outerIndents, tokens) := closeBlocks column s.indent s.tokens s.outerIndents
    { s with indent, outerIndents, tokens }

/-- A document marker. -/
def readMarker (s : Scanner) (tok : Token) : Except Fault Scanner := do
  let s ← (s.dedentTo (-1)).dropKey
  return ({ s with keyAllowed := false }.push tok).pass 3

/-- The beginning of a flow collection. -/
def openFlow (s : Scanner) (tok : Token) : Except Fault Scanner := do
  let s ← s.noteKey
  return ({ s with flow := s.flow + 1, pending := none :: s.pending, keyAllowed := true }.push tok).pass 1

/-- The end of a flow collection. -/
def closeFlow (s : Scanner) (tok : Token) : Except Fault Scanner := do
  let s ← s.dropKey
  let s := if s.flow = 0 then s else { s with flow := s.flow - 1, pending := s.pending.tail }
  return ({ s with keyAllowed := false }.push tok).pass 1

/-- A comma in a flow collection. -/
def readFlowEntry (s : Scanner) : Except Fault Scanner := do
  let s ← s.dropKey
  return ({ s with keyAllowed := true }.push .flowEntry).pass 1

/-- The dash of a list item. -/
def readEntry (s : Scanner) : Except Fault Scanner := do
  if s.flow = 0 ∧ ¬ s.keyAllowed then throw .misplacedEntry
  let s ← (s.indentTo s.mark.column s.tokens.size .listStart).dropKey
  return ({ s with keyAllowed := true }.push .entry).pass 1

/-- The question mark before a key. -/
def readKey (s : Scanner) : Except Fault Scanner := do
  if s.flow = 0 ∧ ¬ s.keyAllowed then throw .misplacedKey
  let s ← (s.indentTo s.mark.column s.tokens.size .mapStart).dropKey
  return ({ s with keyAllowed := s.flow == 0 }.push .key).pass 1

/-- The colon behind a key. -/
def readValue (s : Scanner) : Except Fault Scanner :=
  match s.pending with
  | some k :: outer =>
    let s := { s with tokens := s.tokens.insertIdxIfInBounds k.token .key, pending := none :: outer }
    let s := s.indentTo k.mark.column k.token .mapStart
    .ok (({ s with keyAllowed := false }.push .value).pass 1)
  | _ => do
    if s.flow = 0 ∧ ¬ s.keyAllowed then throw .misplacedValue
    let s := s.indentTo s.mark.column s.tokens.size .mapStart
    return ({ s with keyAllowed := s.flow == 0 }.push .value).pass 1

/-- A scalar in quotes. -/
def readQuotedScalar (s : Scanner) (quote : Char) : Except Fault Scanner := do
  let s ← s.noteKey
  let (text, mark, rest) ← readQuoted quote .empty (s.mark.skip 1) (s.rest.drop 1)
  return { s with rest, mark, keyAllowed := false }.push (.scalar text false)

/-- A scalar without quotes. -/
def readPlainScalar (s : Scanner) : Except Fault Scanner := do
  let s ← s.noteKey
  let (text, mark, rest, broken) ← readPlain (s.flow != 0) (s.indent + 1) .empty s.mark s.rest
  return { s with rest, mark, keyAllowed := broken }.push (.scalar text true)

/-- Characters that cannot begin a plain scalar. -/
def indicators : List Char :=
  ['-', '?', ':', ',', '[', ']', '\x7b', '\x7d', '#', '&', '*', '!', '|', '>', '\'', '"', '%', '@', '\x60']

/-- Reads the token that begins with `c`, which is followed by `next`. -/
def readToken (s : Scanner) (c : Char) (next : Text) : Except Fault Scanner :=
  if s.mark.column = 0 ∧ c = '%' then .error .unsupported
  else if s.mark.column = 0 ∧ atMarker (c :: next) then
    s.readMarker (if c = '-' then .documentStart else .documentEnd)
  else if c = '[' then s.openFlow .flowListStart
  else if c = '\x7b' then s.openFlow .flowMapStart
  else if c = ']' then s.closeFlow .flowListEnd
  else if c = '\x7d' then s.closeFlow .flowMapEnd
  else if c = ',' then s.readFlowEntry
  else if c = '-' ∧ endsWord next then s.readEntry
  else if c = '?' ∧ (s.flow ≠ 0 ∨ endsWord next) then s.readKey
  else if c = ':' ∧ (s.flow ≠ 0 ∨ endsWord next) then s.readValue
  else if c ∈ ['*', '&', '!'] then .error .unsupported
  else if c ∈ ['|', '>'] ∧ s.flow = 0 then .error .unsupported
  else if c = '\'' ∨ c = '"' then s.readQuotedScalar c
  else if c ∉ indicators ∨ (c = '-' ∧ ¬ next.head?.any Text.isIndent) ∨
      (s.flow = 0 ∧ (c = '?' ∨ c = ':') ∧ ¬ endsWord next) then
    s.readPlainScalar
  else .error .badStart

/-- Reads the tokens of the rest of a text, at most `fuel` of them. -/
def run : Nat → Scanner → Except Fault (Array Token)
  | 0, _ => .error .badStart
  | fuel + 1, s => do
    let s ← s.passBlanks.dropStaleKeys
    let s := s.dedentTo s.mark.column
    match s.rest with
    | [] =>
      let s ← (s.dedentTo (-1)).dropKey
      return s.tokens
    | c :: next => run fuel (← s.readToken c next)

end Scanner

/-- The characters that may stand in a text. -/
def isAllowed (c : Char) : Bool :=
  let n := c.toNat
  n == 9 || n == 10 || n == 13 || (0x20 ≤ n && n ≤ 0x7e) || n == 0x85 || (0xa0 ≤ n && n ≤ 0xfffd) || 0x10000 ≤ n

/-- The tokens of a text. A byte order mark in front is passed over. Every token has a character at
least, so there are no more tokens to read than characters. -/
def tokens (t : Text) : Except Fault (List Token) := do
  if ¬ t.all isAllowed then throw .controlCharacter
  let t := if t.head? = some '\ufeff' then t.tail else t
  let ts ← (Scanner.start t).run (t.length + 1)
  return ts.toList

end LineCensus.Yaml
