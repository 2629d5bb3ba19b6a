import LineCensus.Report
import LineCensus.Proofs.ConfigLines
import LineCensus.Proofs.JsonLayout
import LineCensus.Proofs.WrittenLines

/-!
# Reports are read back

Both forms of a report show the same five figures (`Report.Figures`). They are read here by functions that know nothing
of how a report is written: from a document by the names of its members (`figuresOf?`, `skippedOf?`), from a table by
the labels of its lines (`figuresShown?`). What is read from the report on a run is the result of the run
(`render_read_back`). For the document this comes down to the tree of the value that is written; for the table it is
seen line by line, and the digits behind a label end where the line ends or a blank follows.
-/

namespace LineCensus

namespace Text

theorem lines_flatMap {ls : List Text} (h : ∀ line ∈ ls, IsLine line) (t : Text) :
    lines (ls.flatMap (fun line => line ++ ['\n']) ++ t) = ls ++ lines t := by
  induction ls with
  | nil => rfl
  | cons line ls ih =>
    have hline := h line (.head _)
    rw [List.flatMap_cons, List.append_assoc, List.append_assoc, List.singleton_append,
      lines_append_cons hline.feed_notMem, hline.dropLastIf_eq, ih fun l hl => h l (.tail _ hl), List.cons_append]

end Text

namespace Json.Tree

/-- The value of the member with this name, if there is one and no other of the same name. -/
def member? (name : String) : Tree → Option Tree
  | object members =>
    match members.filter fun m => m.1 = name.toList with
    | [(_, v)] => some v
    | _ => none
  | _ => none

/-- A whole number of 64 bits. -/
def natural? : Tree → Option Nat
  | number n =>
    match n.value with
    | .ok (.natural k) => some k
    | _ => none
  | _ => none

def string? : Tree → Option Text
  | string t => some t
  | _ => none

def items? : Tree → Option (List Tree)
  | list items => some items
  | _ => none

end Json.Tree

namespace Report

/-- The figures of a report: how many files were read, how many lines they have, and how many of each kind. -/
structure Figures where
  files : Nat
  lines : Nat
  blank : Nat
  comment : Nat
  code : Nat
  deriving DecidableEq, Repr

/-- The figures of a tally. -/
def figures (t : Tally) : Figures := ⟨t.files, t.blank + t.comment + t.code, t.blank, t.comment, t.code⟩

/-! ### Documents -/

/-- The number of the member with this name. -/
def counter? (document : Json.Tree) (name : String) : Option Nat := do (← document.member? name).natural?

/-- The figures of a document. -/
def figuresOf? (document : Json.Tree) : Option Figures := do
  return ⟨← counter? document "files", ← counter? document "lines", ← counter? document "blank",
    ← counter? document "comment", ← counter? document "code"⟩

/-- A skipped file in a document. -/
def skippedFile? (item : Json.Tree) : Option Skipped := do
  let path ← (← item.member? "path").string?
  let reason ← (← item.member? "reason").string?
  return ⟨path, reason.toString⟩

/-- The skipped files of a document, in order. -/
def skippedOf? (document : Json.Tree) : Option (List Skipped) := do
  (← (← document.member? "skipped").items?).mapM skippedFile?

theorem counter?_of_member {document : Json.Tree} {name : String} {n : Nat}
    (h : document.member? name = some (.number (.ofNat n))) (hn : n < Json.bound64) :
    counter? document name = some n := by
  simp [counter?, h, Json.Tree.natural?, Json.Numeral.value_ofNat hn]

theorem figuresOf?_tree (generatedAt : String) {c : Census} (hfiles : c.tally.files < Json.bound64)
    (htotal : c.tally.blank + c.tally.comment + c.tally.code < Json.bound64) :
    figuresOf? (value generatedAt c).tree = some (figures c.tally) := by
  have hcounter : ∀ name n, (value generatedAt c).tree.member? name = some (.number (.ofNat n)) →
      n < Json.bound64 → counter? (value generatedAt c).tree name = some n :=
    fun _ _ => counter?_of_member
  have h₁ := hcounter "files" c.tally.files rfl hfiles
  have h₂ := hcounter "lines" c.tally.total rfl htotal
  have h₃ := hcounter "blank" c.tally.blank rfl (by omega)
  have h₄ := hcounter "comment" c.tally.comment rfl (by omega)
  have h₅ := hcounter "code" c.tally.code rfl (by omega)
  simp only [figuresOf?, h₁, h₂, h₃, h₄, h₅]
  rfl

theorem skippedFile?_tree (s : Skipped) : skippedFile? (skippedValue s).tree = some s := by
  have hpath : (skippedValue s).tree.member? "path" = some (.string s.path) := rfl
  have hreason : (skippedValue s).tree.member? "reason" = some (.string s.reason.toList) := rfl
  simp [skippedFile?, hpath, hreason, Json.Tree.string?, Text.toString]

theorem mapM_skippedFile? (ss : List Skipped) :
    (Json.Value.trees (ss.map skippedValue)).mapM skippedFile? = some ss := by
  induction ss with
  | nil => rfl
  | cons s ss ih =>
    rw [List.map_cons, Json.Value.trees, List.mapM_cons, skippedFile?_tree, ih]
    rfl

theorem skippedOf?_tree (generatedAt : String) (c : Census) :
    skippedOf? (value generatedAt c).tree = some c.skipped := by
  have hmember : (value generatedAt c).tree.member? "skipped" =
      some (.list (Json.Value.trees (c.skipped.map skippedValue))) := rfl
  simp only [skippedOf?, hmember]
  exact mapM_skippedFile? c.skipped

/-! ### Tables -/

/-- The number on a line behind a label, as far as its digits go. -/
def shown? (label : String) (line : Text) : Option Nat :=
  if label.toList.isPrefixOf line then
    Text.toNat? ((line.drop label.toList.length).takeWhile Char.isDigit)
  else none

/-- The figures of a table: they stand on five lines behind the first two. -/
def figuresShown? (t : Text) : Option Figures :=
  match (Text.lines t).drop 2 with
  | files :: lines :: blank :: comment :: code :: _ => do
    return ⟨← shown? "Number of files searched: " files, ← shown? "Total number of lines: " lines,
      ← shown? "Blank lines: " blank, ← shown? "Comment lines: " comment, ← shown? "Code lines: " code⟩
  | _ => none

/-- A line with a number behind a label. -/
def counterLine (label : String) (n : Nat) (behind : Text) : Text := label.toList ++ (Text.ofNat n ++ behind)

theorem shown?_counterLine (label : String) (n : Nat) {behind : Text}
    (h : ∀ c ∈ behind.head?, c.isDigit = false) : shown? label (counterLine label n behind) = some n := by
  have hprefix : label.toList.isPrefixOf (counterLine label n behind) = true :=
    List.isPrefixOf_iff_prefix.2 (List.prefix_append _ _)
  have hdigits : (Text.ofNat n ++ behind).takeWhile Char.isDigit = Text.ofNat n := by
    rw [List.takeWhile_append_of_pos fun _ => Text.isDigit_of_mem_ofNat, Json.takeWhile_isDigit h, List.append_nil]
  rw [shown?, if_pos hprefix, counterLine, List.drop_left, hdigits, Text.toNat?_ofNat]

/-- The share of a bucket on its line. -/
def shareText (t : Tally) (b : Bucket) : Text := " (".toList ++ ((t.share b).fixed 1 ++ "%)".toList)

/-- The lines of a table about counters, and what stands in front of them. -/
def tallyLines (t : Tally) : List Text :=
  [("line_tally v" ++ version).toList, [], counterLine "Number of files searched: " t.files [],
    counterLine "Total number of lines: " t.total [],
    counterLine "Blank lines: " t.blank (shareText t .blank),
    counterLine "Comment lines: " t.comment (shareText t .comment),
    counterLine "Code lines: " t.code (shareText t .code)]

theorem toList_bucketLine (t : Tally) (b : Bucket) :
    (bucketLine t b).toList = counterLine (b.label ++ " lines: ") (t.count b) (shareText t b) ++ ['\n'] := by
  have hend : "%)\n".toList = "%)".toList ++ ['\n'] := rfl
  simp only [bucketLine, counterLine, shareText, String.toList_append, hend, Nat.toString_eq_repr, Nat.toList_repr,
    Text.ofNat, Text.toString, String.toList_ofList, List.append_assoc]

theorem toList_table (c : Census) :
    (table c).toList = (tallyLines c.tally).flatMap (fun line => line ++ ['\n']) ++ (skippedLines c).toList := by
  have hfiles : "\n\nNumber of files searched: ".toList = '\n' :: '\n' :: "Number of files searched: ".toList := rfl
  have htotal : "\nTotal number of lines: ".toList = '\n' :: "Total number of lines: ".toList := rfl
  have hfeed : "\n".toList = ['\n'] := rfl
  have hblank : Bucket.blank.label ++ " lines: " = "Blank lines: " := rfl
  have hcomment : Bucket.comment.label ++ " lines: " = "Comment lines: " := rfl
  have hcode : Bucket.code.label ++ " lines: " = "Code lines: " := rfl
  unfold table
  simp only [String.toList_append, toList_bucketLine, hfiles, htotal, hfeed, hblank, hcomment, hcode,
    Nat.toString_eq_repr, Nat.toList_repr]
  simp only [tallyLines, List.flatMap_cons, List.flatMap_nil, counterLine, Text.ofNat, Tally.count, String.toList_append,
    List.append_assoc, List.cons_append, List.nil_append, List.append_nil]

/-! ### Lines of a table -/

/-- A text without line feeds and carriage returns. -/
def IsPlain (t : Text) : Prop := ∀ c ∈ t, c ≠ '\n' ∧ c ≠ '\r'

instance (t : Text) : Decidable (IsPlain t) := List.decidableBAll (fun c => c ≠ '\n' ∧ c ≠ '\r') t

theorem IsPlain.append {s t : Text} (hs : IsPlain s) (ht : IsPlain t) : IsPlain (s ++ t) := by
  intro c hc
  exact (List.mem_append.1 hc).elim (hs c) (ht c)

theorem IsPlain.isLine {t : Text} (h : IsPlain t) : Text.IsLine t where
  feed_notMem := fun hmem => (h _ hmem).1 rfl
  getLast?_ne := fun hlast => (h _ (List.mem_of_getLast? hlast)).2 rfl

theorem isPlain_of_digits {t : Text} (h : ∀ c ∈ t, c.isDigit = true) : IsPlain t := by
  intro c hc
  have hdigit := h c hc
  constructor <;>
  · rintro rfl
    cases hdigit

theorem isPlain_ofNat (n : Nat) : IsPlain (Text.ofNat n) := isPlain_of_digits fun _ => Text.isDigit_of_mem_ofNat

theorem isPlain_fixed (places : Nat) (x : Binary64) : IsPlain (x.fixed places) := by
  have hzeros : ∀ k, IsPlain (List.replicate k '0') :=
    fun _ => isPlain_of_digits fun _ => Json.isDigit_of_mem_zeros
  have hpoint : IsPlain ['.'] := by decide
  exact (isPlain_ofNat _).append (hpoint.append ((hzeros _).append (isPlain_ofNat _)))

theorem isPlain_counterLine {label : String} {behind : Text} (hlabel : IsPlain label.toList) (hbehind : IsPlain behind)
    (n : Nat) : IsPlain (counterLine label n behind) :=
  hlabel.append ((isPlain_ofNat n).append hbehind)

theorem isPlain_shareText (t : Tally) (b : Bucket) : IsPlain (shareText t b) :=
  IsPlain.append (by decide) ((isPlain_fixed 1 _).append (by decide))

theorem isPlain_of_mem_tallyLines {t : Tally} {line : Text} (h : line ∈ tallyLines t) : IsPlain line := by
  have hcounter : ∀ {label : String} (n : Nat), IsPlain label.toList → IsPlain (counterLine label n []) :=
    fun n hlabel => isPlain_counterLine hlabel (by decide) n
  have hbucket : ∀ {label : String} (n : Nat) (b : Bucket), IsPlain label.toList →
      IsPlain (counterLine label n (shareText t b)) :=
    fun n b hlabel => isPlain_counterLine hlabel (isPlain_shareText t b) n
  simp only [tallyLines, List.mem_cons, List.not_mem_nil, or_false] at h
  rcases h with rfl | rfl | rfl | rfl | rfl | rfl | rfl
  · decide
  · decide
  · exact hcounter _ (by decide)
  · exact hcounter _ (by decide)
  · exact hbucket _ _ (by decide)
  · exact hbucket _ _ (by decide)
  · exact hbucket _ _ (by decide)

/-- The lines of a table begin with those about counters. -/
theorem lines_table (c : Census) :
    Text.lines (table c).toList = tallyLines c.tally ++ Text.lines (skippedLines c).toList := by
  rw [toList_table, Text.lines_flatMap fun _ h => (isPlain_of_mem_tallyLines h).isLine]

theorem figuresShown?_table (c : Census) : figuresShown? (table c).toList = some (figures c.tally) := by
  have hend : ∀ ch ∈ ([] : Text).head?, ch.isDigit = false := nofun
  have hshare : ∀ b, ∀ ch ∈ (shareText c.tally b).head?, ch.isDigit = false := by
    intro b ch hch
    cases hch
    rfl
  unfold figuresShown?
  rw [lines_table]
  simp only [tallyLines, List.cons_append, List.drop_succ_cons, List.drop_zero, shown?_counterLine _ _ hend,
    shown?_counterLine _ _ (hshare _)]
  rfl

/-! ### Both forms -/

/-- **Reports lose nothing**: the document is one JSON value and a line feed. Read as JSON it gives back the counters
with their sum, and every skipped file in its place, whatever characters paths and reasons have; the table shows the
same figures. -/
theorem render_read_back (generatedAt : String) (c : Census) (hfiles : c.tally.files < Json.bound64)
    (htotal : c.tally.blank + c.tally.comment + c.tally.code < Json.bound64) :
    ∃ (text : Text) (document : Json.Tree),
      (render generatedAt .json c).toList = text ++ ['\n'] ∧ text.getLast? = some '\x7d' ∧
      Json.treeOf? text = some document ∧ Json.treeOf? (text ++ ['\n']) = some document ∧
      figuresOf? document = some (figures c.tally) ∧ skippedOf? document = some c.skipped ∧
      figuresShown? (render generatedAt .table c).toList = some (figures c.tally) := by
  have hwhite : ∀ ch ∈ ['\n'], Json.isWhite ch = true := List.forall_mem_singleton.2 rfl
  have hread := (value generatedAt c).treeOf?_pretty (w := []) nofun
  rw [List.append_nil] at hread
  exact ⟨(value generatedAt c).pretty, (value generatedAt c).tree, String.toList_ofList,
    Json.Value.getLast?_pretty_object _, hread, Json.Value.treeOf?_pretty _ hwhite,
    figuresOf?_tree generatedAt hfiles htotal, skippedOf?_tree generatedAt c, figuresShown?_table c⟩

/-- As many lines as 64 bits hold, and skipped files with quotes, backslashes, control characters and characters beyond
ASCII. -/
def oddCensus : Census where
  tally := ⟨1, 2, 18446744073709551612, 3⟩
  discovered := 5
  skipped := [⟨"a\"b\\c\t.rs".toList, "line\nbreak \x01\x1f\x7f"⟩, ⟨"ä\u2028/🦀.rs".toList, ""⟩]

theorem render_read_back_odd :
    oddCensus.tally.files < Json.bound64 ∧
    oddCensus.tally.blank + oddCensus.tally.comment + oddCensus.tally.code < Json.bound64 ∧
    ∃ (text : Text) (document : Json.Tree),
      (render "2026-01-01T00:00:00+00:00" .json oddCensus).toList = text ++ ['\n'] ∧
      text.getLast? = some '\x7d' ∧
      Json.treeOf? text = some document ∧ Json.treeOf? (text ++ ['\n']) = some document ∧
      figuresOf? document = some ⟨3, 18446744073709551615, 1, 2, 18446744073709551612⟩ ∧
      skippedOf? document = some oddCensus.skipped ∧
      figuresShown? (render "2026-01-01T00:00:00+00:00" .table oddCensus).toList =
        some ⟨3, 18446744073709551615, 1, 2, 18446744073709551612⟩ := by
  have hfiles : oddCensus.tally.files < Json.bound64 := by decide
  have htotal : oddCensus.tally.blank + oddCensus.tally.comment + oddCensus.tally.code < Json.bound64 := by decide
  exact ⟨hfiles, htotal, render_read_back "2026-01-01T00:00:00+00:00" oddCensus hfiles htotal⟩

end Report

end LineCensus
