import Mathlib.Data.List.TakeWhile
import LineCensus.Census.Files
import LineCensus.Proofs.LossyReading
import LineCensus.Proofs.PlainTrees

/-!
# The lines of a file are those of its text

A file is cut into lines before it is decoded. `Text.fileLines` says what its lines are if it is decoded first: the
pieces between line feeds, without the carriage return at their ends and without a byte order mark in front of
them all. Both agree, whatever the bytes are (`ByteLines.visit_eq`): line feeds and carriage returns are bytes of
their own that end every piece of a character, and what is decoded as one of them, or as a byte order mark, was
written so. `FileTree.visit_readable` says it of the files of a tree.
-/

namespace LineCensus

namespace Text

/-- The pieces between line feeds, with none behind a final one. -/
def pieces (t : Text) : List Text := ByteLines.dropFinal (t.splitOn '\n')

/-- The text without one byte order mark in front. -/
def dropMark (t : Text) : Text := if t.head? = some '\ufeff' then t.tail else t

/-- The lines of the text of a file. -/
def fileLines (t : Text) : List Text := ((pieces t).map (dropLastIf '\r')).modifyHead dropMark

theorem dropLastIf_concat (c : Char) (t : Text) : dropLastIf c (t ++ [c]) = t := by
  rw [dropLastIf, if_pos (by simp), List.dropLast_concat]

theorem pieces_nil : pieces [] = [] := rfl

theorem pieces_of_notMem {t : Text} (hne : t ≠ []) (h : '\n' ∉ t) : pieces t = [t] := by
  rw [pieces, List.splitOn_eq_singleton h, ByteLines.dropFinal, if_neg (by simpa using hne)]

theorem pieces_append_cons {s : Text} (h : '\n' ∉ s) (t : Text) : pieces (s ++ '\n' :: t) = s :: pieces t := by
  obtain ⟨piece, rest, hpieces⟩ := List.exists_cons_of_ne_nil (List.splitOn_ne_nil '\n' t)
  rw [pieces, pieces, List.splitOn_append_cons_self_of_not_mem h, hpieces]
  rfl

end Text

namespace ByteLines

open Utf8

/-- The bytes are all of one line, or their first line ends with a line feed. -/
theorem takeLine_cases (bytes : List UInt8) : feed ∉ bytes ∧ takeLine bytes = (bytes, []) ∨
    ∃ p rest, bytes = p ++ feed :: rest ∧ feed ∉ p ∧ takeLine bytes = (p ++ [feed], rest) := by
  have hsplit := List.takeWhile_append_dropWhile (p := (· != feed)) (l := bytes)
  have hfront : feed ∉ bytes.takeWhile (· != feed) := fun hmem => by simpa using List.mem_takeWhile_imp hmem
  unfold takeLine
  cases hdrop : bytes.dropWhile (· != feed) with
  | nil =>
    rw [hdrop, List.append_nil] at hsplit
    rw [hsplit] at hfront
    exact .inl ⟨hfront, rfl⟩
  | cons b rest =>
    obtain rfl : b = feed := by
      have hhead := List.head?_dropWhile_not (· != feed) bytes
      rw [hdrop] at hhead
      simpa using hhead
    rw [hdrop] at hsplit
    exact .inr ⟨_, rest, hsplit.symm, hfront, rfl⟩

theorem dropLastIf_concat (b : UInt8) (p : List UInt8) : dropLastIf b (p ++ [b]) = p := by
  rw [dropLastIf, if_pos (by simp), List.dropLast_concat]

theorem dropLastIf_of_notMem {b : UInt8} {p : List UInt8} (h : b ∉ p) : dropLastIf b p = p :=
  if_neg fun hlast => h (List.mem_of_getLast? hlast)

/-! ### Line ends and marks of the decoded text -/

theorem encodeChar_feed : encodeChar '\n' = [feed] := rfl

theorem encodeChar_return : encodeChar '\r' = [carriageReturn] := rfl

theorem encodeChar_mark : encodeChar '\ufeff' = mark := rfl

theorem feed_notMem {p : List UInt8} (h : feed ∉ p) : '\n' ∉ decodeLossy p := by
  intro hmem
  obtain ⟨s, u, hsu⟩ := List.append_of_mem hmem
  obtain ⟨x, y, rfl, -⟩ := exists_of_decodeLossy hsu (by decide)
  rw [encodeChar_feed] at h
  simp at h

/-- A carriage return at the end of the bytes is one at the end of the text, and there is no other. -/
theorem decodeLossy_dropLastIf (p : List UInt8) :
    decodeLossy (dropLastIf carriageReturn p) = Text.dropLastIf '\r' (decodeLossy p) := by
  by_cases hlast : p.getLast? = some carriageReturn
  · obtain ⟨q, rfl⟩ := List.getLast?_eq_some_iff.1 hlast
    rw [dropLastIf_concat, decodeLossy_append_cons encodeChar_return, decodeLossy_nil, Text.dropLastIf_concat]
  · rw [dropLastIf, if_neg hlast, Text.dropLastIf, if_neg]
    intro hreturn
    obtain ⟨s, hs⟩ := List.getLast?_eq_some_iff.1 hreturn
    obtain ⟨x, y, rfl, hy, -⟩ := exists_of_decodeLossy hs (by decide)
    rw [decodeLossy_eq_nil_iff.1 hy, encodeChar_return] at hlast
    simp at hlast

/-- The bytes begin with a byte order mark exactly if the text does. -/
theorem decodeLossy_dropMark (p : List UInt8) : decodeLossy (dropMark p) = Text.dropMark (decodeLossy p) := by
  by_cases hmark : mark.isPrefixOf p = true
  · obtain ⟨q, rfl⟩ := List.isPrefixOf_iff_prefix.1 hmark
    rw [dropMark, if_pos hmark, ← encodeChar_mark, decodeLossy_encode_append]
    rfl
  · rw [dropMark, if_neg hmark, Text.dropMark, if_neg]
    intro hhead
    obtain ⟨u, hu⟩ := List.head?_eq_some_iff.1 hhead
    obtain ⟨x, y, rfl, -, hx⟩ := exists_of_decodeLossy (s := []) hu (by decide)
    rw [hx rfl, encodeChar_mark] at hmark
    exact hmark (List.isPrefixOf_iff_prefix.2 (List.prefix_append ..))

/-! ### Line by line -/

/-- The first line of some bytes is the first line of their text, and the lines behind it are those of the text
behind it. -/
theorem pieces_takeLine {bytes : List UInt8} (h : bytes ≠ []) :
    Text.pieces (decodeLossy bytes) =
      decodeLossy (dropLastIf feed (takeLine bytes).1) :: Text.pieces (decodeLossy (takeLine bytes).2) := by
  obtain ⟨hno, htake⟩ | ⟨p, rest, hp, hno, htake⟩ := takeLine_cases bytes
  · have hne : decodeLossy bytes ≠ [] := fun hnil => h (decodeLossy_eq_nil_iff.1 hnil)
    rw [htake, dropLastIf_of_notMem hno, decodeLossy_nil, Text.pieces_nil,
      Text.pieces_of_notMem hne (feed_notMem hno)]
  · rw [htake, dropLastIf_concat, hp, decodeLossy_append_cons encodeChar_feed,
      Text.pieces_append_cons (feed_notMem hno)]

theorem visitFrom_nil (done : List Text) (count : Nat) : visitFrom done count [] = ⟨done.reverse, count⟩ := by
  rw [visitFrom, dif_pos rfl]

theorem visitFrom_of_ne_nil {bytes : List UInt8} (h : bytes ≠ []) (done : List Text) (count : Nat) :
    visitFrom done count bytes =
      let line := dropTerminator (takeLine bytes).1
      visitFrom (decodeLossy (if count = 0 then dropMark line else line) :: done) (count + 1) (takeLine bytes).2 := by
  rw [visitFrom, dif_neg h]

/-- Behind the first line no byte order mark is dropped. -/
theorem visitFrom_succ (done : List Text) (count : Nat) (bytes : List UInt8) :
    visitFrom done (count + 1) bytes = ⟨done.reverse ++ (Text.pieces (decodeLossy bytes)).map (Text.dropLastIf '\r'),
      count + 1 + (Text.pieces (decodeLossy bytes)).length⟩ := by
  induction hn : bytes.length using Nat.strongRecOn generalizing done count bytes with
  | ind n ih =>
    by_cases hnil : bytes = []
    · rw [hnil, visitFrom_nil, decodeLossy_nil, Text.pieces_nil, List.map_nil, List.append_nil, List.length_nil,
        Nat.add_zero]
    · have hlt := takeLine_lt hnil
      simp only [visitFrom_of_ne_nil hnil, Nat.succ_ne_zero, if_false]
      rw [ih _ (by omega) _ _ _ rfl, pieces_takeLine hnil, List.map_cons, List.length_cons, dropTerminator,
        decodeLossy_dropLastIf, List.reverse_cons, List.append_assoc, List.singleton_append, Nat.add_assoc (count + 1),
        Nat.add_comm 1]

/-- Reading bytes line by line gives the lines of the text to which all of them are decoded, and counts each once. -/
theorem visit_eq (bytes : List UInt8) : visit bytes =
    ⟨Text.fileLines (decodeLossy bytes), (Text.fileLines (decodeLossy bytes)).length⟩ := by
  rw [visit]
  by_cases hnil : bytes = []
  · rw [hnil, visitFrom_nil, decodeLossy_nil]
    rfl
  · simp only [visitFrom_of_ne_nil hnil, if_true]
    rw [visitFrom_succ, Text.fileLines, pieces_takeLine hnil, List.map_cons, List.modifyHead_cons, decodeLossy_dropMark,
      dropTerminator, decodeLossy_dropLastIf]
    simp [Nat.add_comm]

end ByteLines

namespace FileTree

/-- **The lines of a readable file** are those of its bytes decoded all at once, where each ill-formed piece becomes
one replacement, and the count is the number of these lines. -/
theorem visit_readable {t : FileTree} {path : Text} {bytes : List UInt8} (h : t.read path = .ok bytes) :
    (∀ text, Utf8.Lossy bytes text ↔ text = Utf8.decodeLossy bytes) ∧
    t.visit path = .ok
      ⟨((Text.pieces (Utf8.decodeLossy bytes)).map (Text.dropLastIf '\r')).modifyHead Text.dropMark,
        (Text.pieces (Utf8.decodeLossy bytes)).length⟩ := by
  refine ⟨fun text => Utf8.lossy_iff, ?_⟩
  have hlength : (Text.fileLines (Utf8.decodeLossy bytes)).length = (Text.pieces (Utf8.decodeLossy bytes)).length := by
    simp [Text.fileLines]
  rw [visit, h, ← hlength]
  exact congrArg Except.ok (ByteLines.visit_eq bytes)

/-- A tree with one file. -/
def single (bytes : List UInt8) : FileTree := ⟨.directory [("f".toList, .file bytes)], []⟩

theorem read_single (bytes : List UInt8) : (single bytes).read "f".toList = .ok bytes := by
  have hplain : (single bytes).top.isPlain := rfl
  exact read_entry hplain rfl (.head _)

/-- A byte order mark, then characters that break off in front of a carriage return and of the end. -/
def brokenOff : List UInt8 := [0xef, 0xbb, 0xbf, 0xe2, 0x82, 0x0d, 0x0a, 0xff, 0x0d, 0x0d, 0x0a, 0xf0, 0x9f]

theorem visit_readable_brokenOff :
    (single brokenOff).read "f".toList = .ok brokenOff ∧
    Utf8.Lossy brokenOff ['\ufeff', '\ufffd', '\r', '\n', '\ufffd', '\r', '\r', '\n', '\ufffd'] ∧
    (single brokenOff).visit "f".toList = .ok ⟨[['\ufffd'], ['\ufffd', '\r'], ['\ufffd']], 3⟩ := by
  have htext : ['\ufeff', '\ufffd', '\r', '\n', '\ufffd', '\r', '\r', '\n', '\ufffd'] =
      Utf8.decodeLossy brokenOff := by decide +kernel
  obtain ⟨hlossy, hvisit⟩ := visit_readable (read_single brokenOff)
  refine ⟨read_single brokenOff, (hlossy _).2 htext, ?_⟩
  rw [hvisit, ← htext]
  rfl

end FileTree

end LineCensus
