import LineCensus.Verdict
import LineCensus.StartCache

/-!
# Classifying the lines of a file

A `Tracker` reads one file line by line and gives a `Verdict` for each. Between lines it carries
whether a block comment is open, whether a line comment is continued, or else what the last line
was. Within a line a cursor moves from marker to marker: `step` handles one marker, and `resolve`
repeats it until the line is settled.

Offsets count bytes, and a cursor is moved only by `Cursor.advance?`, which refuses to leave the
boundaries between characters. A refusal, an unknown pair, and a line that never settles are the
three ways to be `Stuck`; none of them occurs for `Markers.Progressing` sets. A line has `2 n + 2`
steps at its disposal, `n` being its length: an opening and the closing behind it together pass a
character, unless their pair is empty on both sides, which opens and closes at one place for ever.
-/

namespace LineCensus

/-- What is carried from one line to the next. -/
inductive Carry where
  /-- Nothing is open; the last line was this. -/
  | idle (last : Verdict)
  /-- The last line was a line comment that goes on. -/
  | continuing
  /-- The block comment of this pair is open. -/
  | inBlock (pair : Nat)
  deriving DecidableEq, Repr

/-- The verdict that the carried state stands for. -/
def Carry.current : Carry → Verdict
  | idle v => v
  | continuing => .continuing
  | inBlock _ => .block

/-- Why no verdict can be given. -/
inductive Stuck where
  /-- A place inside a character, or behind the end of the line, would be read. -/
  | offBoundary
  /-- A block pair that is not configured would be read. -/
  | noSuchPair
  /-- The line never settles. -/
  | endless
  deriving DecidableEq, Repr

/-- A line under way: the carried state, the known openings, the place of the cursor, and whether
program text was passed. -/
structure Progress where
  carry : Carry
  cache : StartCache
  cursor : Cursor
  codeSeen : Bool
  deriving DecidableEq, Repr

/-- The result of handling one marker. -/
inductive Move where
  /-- The line is settled. -/
  | settled (verdict : Verdict) (carry : Carry) (cache : StartCache)
  /-- Text is left behind the marker. -/
  | resume (p : Progress)
  deriving DecidableEq, Repr

namespace Progress

/-- Looks for the end of the open block. -/
def closeBlock (m : Markers) (p : Progress) (pair : Nat) : Except Stuck Move :=
  match m.block[pair]? with
  | none => .error .noSuchPair
  | some b =>
    match Text.occurrence? b.closing p.cursor.offset p.cursor.rest with
    | none => .ok (.settled .block p.carry p.cache)
    | some (k, _) =>
      match p.cursor.advance? (k - p.cursor.offset + Text.byteSize b.closing) with
      | none => .error .offBoundary
      | some c =>
        if c.skipIndent.rest = [] then .ok (.settled .comment (.idle .comment) p.cache)
        else .ok (.resume { p with carry := .idle .comment, cursor := c.skipIndent })

/-- Enters the block that opens at byte `k`; text before it is code. -/
def openBlock (m : Markers) (p : Progress) (k pair : Nat) : Except Stuck Move :=
  match m.block[pair]? with
  | none => .error .noSuchPair
  | some b =>
    match p.cursor.advance? (k - p.cursor.offset + Text.byteSize b.opening) with
    | none => .error .offBoundary
    | some c =>
      let afterCode := decide (p.cursor.offset < k)
      if c.skipIndent.rest = [] then
        .ok (.settled (if afterCode then .code else .block) (.inBlock pair) p.cache)
      else
        .ok (.resume ⟨.inBlock pair, p.cache, c.skipIndent, p.codeSeen || afterCode⟩)

/-- Handles the text from the cursor on while no block is open. -/
def openSegment (m : Markers) (p : Progress) : Except Stuck Move :=
  let segment := p.cursor.rest
  if m.startsComment segment then
    .ok (if m.continues segment then .settled .continuing .continuing p.cache
      else .settled .comment (.idle .comment) p.cache)
  else
    match p.cache.earliest m p.cursor with
    | (some (k, pair), cache) => openBlock m { p with cache } k pair
    | (none, cache) =>
      .ok (.settled .code
        (if m.containsComment segment && m.continues segment then .continuing else .idle .code) cache)

/-- Handles one marker. -/
def step (m : Markers) (p : Progress) : Except Stuck Move :=
  match p.carry with
  | .inBlock pair => closeBlock m p pair
  | _ => openSegment m p

/-- Handles up to `fuel` markers; code that was passed decides the verdict. -/
def run (m : Markers) : Nat → Progress → Except Stuck (Verdict × Carry × StartCache)
  | 0, _ => .error .endless
  | fuel + 1, p =>
    match step m p with
    | .error e => .error e
    | .ok (.settled v carry cache) => .ok (if p.codeSeen then .code else v, carry, cache)
    | .ok (.resume q) => run m fuel q

end Progress

/-- The reader of one file. -/
structure Tracker where
  carry : Carry
  cache : StartCache
  deriving DecidableEq, Repr

namespace Tracker

/-- Before the first line. -/
def start : Tracker := ⟨.idle .code, .empty⟩

/-- Forgets what was carried; known openings stay until the next line clears them. -/
def reset (t : Tracker) : Tracker := { t with carry := .idle .code }

/-- The verdict carried into the next line. -/
def current (t : Tracker) : Verdict := t.carry.current

/-- A block comment is open. -/
def isInBlock (t : Tracker) : Bool :=
  match t.carry with
  | .inBlock _ => true
  | _ => false

/-- The text that would close the open block. -/
def awaited? (m : Markers) (t : Tracker) : Option Text :=
  match t.carry with
  | .inBlock pair => m.block[pair]?.map BlockPair.closing
  | _ => none

/-- Settles a line that is neither blank nor a continued comment; it has lost its indentation. -/
def resolve (m : Markers) (t : Tracker) (line : Text) : Except Stuck (Verdict × Tracker) :=
  match Progress.run m (2 * line.length + 2) ⟨t.carry, .fresh m, .start line, false⟩ with
  | .error e => .error e
  | .ok (v, carry, cache) => .ok (v, ⟨carry, cache⟩)

/-- The state after a line that continues a comment. -/
def continued (m : Markers) (line : Text) : Carry :=
  if line = [] then .idle .whitespace
  else if m.continues line then .continuing
  else .idle .comment

/-- The verdict on one line, which holds no line feed, and the tracker for the next one. -/
def feed (m : Markers) (t : Tracker) (raw : Text) : Except Stuck (Verdict × Tracker) :=
  let line := Text.trimIndent raw
  match t.carry with
  | .inBlock _ => if line = [] then .ok (.whitespace, t) else resolve m t line
  | .continuing =>
    let carry := continued m line
    .ok (carry.current, { t with carry })
  | .idle _ =>
    if line = [] then .ok (.whitespace, { t with carry := .idle .whitespace }) else resolve m t line

/-- The verdicts on the lines of a file from here on. -/
def feedAll (m : Markers) (t : Tracker) : List Text → Except Stuck (List Verdict)
  | [] => .ok []
  | line :: rest => do
    let (v, t) ← feed m t line
    let vs ← feedAll m t rest
    return v :: vs

end Tracker

/-- The verdicts on the lines of a file. -/
def Markers.classify (m : Markers) (lines : List Text) : Except Stuck (List Verdict) :=
  Tracker.start.feedAll m lines

end LineCensus
