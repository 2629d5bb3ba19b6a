import LineCensus.Text.Utf8

/-!
# Lines of bytes

A file is split into lines before it is decoded: at every line feed, with no line behind the last
one. A line loses one carriage return at its end, the first line also a byte order mark in front;
bytes that are not well-formed are decoded as U+FFFD. `ByteLines.visit` reads a file line by line
and counts what it reads.
-/

namespace LineCensus.ByteLines

/-- The line feed. -/
def feed : UInt8 := 0x0a

/-- The carriage return. -/
def carriageReturn : UInt8 := 0x0d

/-- The byte order mark. -/
def mark : List UInt8 := [0xef, 0xbb, 0xbf]

/-- Drops one `b` at the end, if there is one. -/
def dropLastIf (b : UInt8) (bytes : List UInt8) : List UInt8 :=
  if bytes.getLast? = some b then bytes.dropLast else bytes

/-- Drops a byte order mark in front. -/
def dropMark (piece : List UInt8) : List UInt8 := if mark.isPrefixOf piece then piece.drop 3 else piece

/-! ### Reading line by line -/

/-- The bytes up to the first line feed and with it, or all of them if there is none, and the bytes
behind these. -/
def takeLine (bytes : List UInt8) : List UInt8 × List UInt8 :=
  match bytes.dropWhile (· != feed) with
  | [] => (bytes, [])
  | b :: rest => (bytes.takeWhile (· != feed) ++ [b], rest)

theorem takeLine_lt {bytes : List UInt8} (h : bytes ≠ []) : (takeLine bytes).2.length < bytes.length := by
  have hle := (List.dropWhile_sublist (· != feed) (l := bytes)).length_le
  have hpos := List.length_pos_iff.2 h
  unfold takeLine
  split
  · exact hpos
  · rename_i hdrop
    rw [hdrop, List.length_cons] at hle
    exact hle

/-- Drops what ends a line: a line feed, and a carriage return in front of it. -/
def dropTerminator (raw : List UInt8) : List UInt8 := dropLastIf carriageReturn (dropLastIf feed raw)

/-- What reading a file gives: its lines in order, and how many were counted. -/
structure Visited where
  lines : List Text
  count : Nat
  deriving DecidableEq, Repr

/-- Reads the lines from here on; `done` holds those already read, last first, and `count` is what
was counted for them. -/
def visitFrom (done : List Text) (count : Nat) (bytes : List UInt8) : Visited :=
  if _ : bytes = [] then ⟨done.reverse, count⟩
  else
    let line := dropTerminator (takeLine bytes).1
    let line := if count = 0 then dropMark line else line
    visitFrom (Utf8.decodeLossy line :: done) (count + 1) (takeLine bytes).2
  termination_by bytes.length
  decreasing_by exact takeLine_lt ‹_›

/-- Reads the lines of a file. -/
def visit (bytes : List UInt8) : Visited := visitFrom [] 0 bytes

/-! ### All lines at once -/

/-- Drops the last piece if it is empty. -/
def dropFinal {α : Type} : List (List α) → List (List α)
  | [] => []
  | [p] => if p.isEmpty then [] else [p]
  | p :: q :: rest => p :: dropFinal (q :: rest)

/-- The lines of a file as bytes. -/
def split (bytes : List UInt8) : List (List UInt8) :=
  (dropFinal (bytes.splitOn feed)).map (dropLastIf carriageReturn)

end LineCensus.ByteLines
