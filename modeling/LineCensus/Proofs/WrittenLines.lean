import LineCensus.Proofs.VisitedLines

/-!
# Lines that are written are read back

`Text.Written` says how a list of lines may be written: each line has a terminator of its own, the last may go
without one unless it is empty, and a byte order mark may stand in front of them. Whichever way is taken, a file with
this text is read as the list of lines (`FileTree.visit_written`), so the count of its lines does not tell the ways
apart. The induction is on the way the lines are written, over the pieces between line feeds; a byte order mark is
taken for the first character of the first line until the end.
-/

namespace LineCensus

namespace Text

/-- What ends a line. -/
inductive Terminator where
  | feed
  | returnFeed

def Terminator.text : Terminator → Text
  | feed => ['\n']
  | returnFeed => ['\r', '\n']

/-- The lines one after the other, each with a terminator; none is needed behind a last line that is not empty. -/
inductive Body : List Text → Text → Prop where
  | nil : Body [] []
  | unended {line : Text} (h : line ≠ []) : Body [line] line
  | ended {lines : List Text} {t : Text} (line : Text) (terminator : Terminator) (rest : Body lines t) :
      Body (line :: lines) (line ++ (terminator.text ++ t))

/-- The lines are written as this text. -/
inductive Written : List Text → Text → Prop where
  | plain {lines : List Text} {t : Text} (body : Body lines t) : Written lines t
  | marked {line : Text} {lines : List Text} {t : Text} (body : Body (line :: lines) t) :
      Written (line :: lines) ('\ufeff' :: t)

/-- A line does not contain what would end it. -/
structure IsLine (line : Text) : Prop where
  feed_notMem : '\n' ∉ line
  getLast?_ne : line.getLast? ≠ some '\r'

instance (line : Text) : Decidable (IsLine line) :=
  decidable_of_iff ('\n' ∉ line ∧ line.getLast? ≠ some '\r') ⟨fun h => ⟨h.1, h.2⟩, fun h => ⟨h.1, h.2⟩⟩

theorem IsLine.dropLastIf_eq {line : Text} (h : IsLine line) : dropLastIf '\r' line = line := if_neg h.getLast?_ne

/-- With either terminator, what stands in front of the line feed is the line once a carriage return is dropped. -/
theorem Terminator.exists_piece (terminator : Terminator) {line : Text} (h : IsLine line) (t : Text) :
    ∃ piece, line ++ (terminator.text ++ t) = piece ++ '\n' :: t ∧ '\n' ∉ piece ∧ dropLastIf '\r' piece = line := by
  cases terminator with
  | feed => exact ⟨line, rfl, h.feed_notMem, h.dropLastIf_eq⟩
  | returnFeed =>
    refine ⟨line ++ ['\r'], by simp [text], ?_, dropLastIf_concat '\r' line⟩
    simpa using h.feed_notMem

/-- The pieces of a body are its lines. -/
theorem Body.pieces_eq {lines : List Text} {t : Text} (h : Body lines t) (hlines : ∀ line ∈ lines, IsLine line) :
    (pieces t).map (dropLastIf '\r') = lines := by
  induction h with
  | nil => rfl
  | @unended line hne =>
    have hline := hlines line (.head _)
    rw [pieces_of_notMem hne hline.feed_notMem, List.map_singleton, hline.dropLastIf_eq]
  | ended line terminator rest ih =>
    obtain ⟨piece, heq, hno, hpiece⟩ := terminator.exists_piece (hlines line (.head _)) _
    rw [heq, pieces_append_cons hno, List.map_cons, hpiece, ih fun l hl => hlines l (.tail _ hl)]

/-- A character in front of a body belongs to its first line. -/
theorem Body.cons {line : Text} {lines : List Text} {t : Text} (h : Body (line :: lines) t) (c : Char) :
    Body ((c :: line) :: lines) (c :: t) := by
  cases h with
  | unended => exact .unended (List.cons_ne_nil _ _)
  | ended line terminator rest => exact .ended (c :: line) terminator rest

theorem IsLine.cons {line : Text} (h : IsLine line) {c : Char} (hfeed : c ≠ '\n') (hreturn : c ≠ '\r') :
    IsLine (c :: line) where
  feed_notMem := by
    rw [List.mem_cons, not_or]
    exact ⟨hfeed.symm, h.feed_notMem⟩
  getLast?_ne := by
    cases hlast : line.getLast? with
    | none => simpa [List.getLast?_cons, hlast] using hreturn
    | some d => simpa [List.getLast?_cons, hlast] using fun he : d = '\r' => h.getLast?_ne (he ▸ hlast)

/-- The lines that were written are the lines of the text. -/
theorem Written.fileLines_eq {lines : List Text} {t : Text} (h : Written lines t)
    (hlines : ∀ line ∈ lines, IsLine line) (hfirst : ∀ line ∈ lines.head?, line.head? ≠ some '\ufeff') :
    fileLines t = lines := by
  cases h with
  | plain body =>
    rw [fileLines, body.pieces_eq hlines]
    cases lines with
    | nil => rfl
    | cons line lines => rw [List.modifyHead_cons, dropMark, if_neg (hfirst line rfl)]
  | @marked line lines t body =>
    have hmarked : ∀ l ∈ ('\ufeff' :: line) :: lines, IsLine l := by
      intro l hl
      obtain rfl | hl := List.mem_cons.1 hl
      · exact (hlines line (.head _)).cons (by decide) (by decide)
      · exact hlines l (.tail _ hl)
    rw [fileLines, (body.cons '\ufeff').pieces_eq hmarked]
    rfl

end Text

namespace FileTree

theorem contents_eq {t : FileTree} {path : Text} {visited : ByteLines.Visited} (h : t.visit path = .ok visited) :
    t.contents path = ⟨visited.lines, none⟩ := by
  rw [contents, h]

/-- **Reading undoes writing**: a file is read as the lines that were written into it, and counted by them alone,
whatever ends a line and whether or not a byte order mark stands in front. -/
theorem visit_written {lines : List Text} {text : Text} (h : Text.Written lines text)
    (hlines : ∀ line ∈ lines, Text.IsLine line) (hfirst : ∀ line ∈ lines.head?, line.head? ≠ some '\ufeff')
    {t : FileTree} {path : Text} (hread : t.read path = .ok (Utf8.encode text)) :
    t.visit path = .ok ⟨lines, lines.length⟩ ∧
    ∀ (m : Markers) (watcher : Option Watcher) (i : Nat), (watcher.bind fun w => w.onFile i path) = none →
      Census.tallyFile m t.contents watcher i path = (Census.tallyLines m lines).map .ok := by
  have hvisit : t.visit path = .ok ⟨lines, lines.length⟩ := by
    rw [visit, hread]
    simp only
    rw [ByteLines.visit_eq, Utf8.decodeLossy_encode, h.fileLines_eq hlines hfirst]
  refine ⟨hvisit, fun m watcher i haccepts => ?_⟩
  rw [Census.tallyFile, haccepts]
  simp only [contents_eq hvisit]
  cases Census.tallyLines m lines <;> rfl

/-- An empty line, and a carriage return and byte order marks that belong to lines. -/
def mixedLines : List Text := ["ä\ufeff".toList, [], "b\rc".toList, "\ufeffd".toList]

/-- Written with a mark in front, with both terminators, and without one at the end. -/
def mixedText : Text :=
  '\ufeff' :: ("ä\ufeff".toList ++ ("\r\n".toList ++ ([] ++ ("\n".toList ++ ("b\rc".toList ++ ("\r\n".toList ++
    "\ufeffd".toList))))))

theorem visit_written_mixed :
    Text.Written mixedLines mixedText ∧ (∀ line ∈ mixedLines, Text.IsLine line) ∧
    (∀ line ∈ mixedLines.head?, line.head? ≠ some '\ufeff') ∧
    (single (Utf8.encode mixedText)).read "f".toList = .ok (Utf8.encode mixedText) ∧
    (single (Utf8.encode mixedText)).visit "f".toList = .ok ⟨mixedLines, 4⟩ ∧
    Census.tallyFile (.ofLists ["b".toList] [] []) (single (Utf8.encode mixedText)).contents none 0 "f".toList =
      .ok (.ok ⟨1, 1, 2, 1⟩) := by
  have hwritten : Text.Written mixedLines mixedText :=
    .marked (.ended _ .returnFeed (.ended _ .feed (.ended _ .returnFeed (.unended (by decide)))))
  have hlines : ∀ line ∈ mixedLines, Text.IsLine line := by decide
  have hfirst : ∀ line ∈ mixedLines.head?, line.head? ≠ some '\ufeff' := by decide
  have hcounted : Census.tallyLines (.ofLists ["b".toList] [] []) mixedLines = .ok ⟨1, 1, 2, 1⟩ := by
    decide +kernel
  obtain ⟨hvisit, htally⟩ := visit_written hwritten hlines hfirst (read_single _)
  refine ⟨hwritten, hlines, hfirst, read_single _, hvisit, ?_⟩
  rw [htally _ none 0 rfl, hcounted]
  rfl

end FileTree

end LineCensus
