import LineCensus.Tally
import LineCensus.Markers
import LineCensus.Search
import LineCensus.Json.Decode
import LineCensus.Json.Value

/-!
# Stored records

Tallies, markers, plans and found files can be stored as JSON and read back. A `Stored` record says
how: it is written as an object with its fields in a fixed order, and read from an object with its
fields in any order. All fields are required; other fields are passed over. Empty markers, which no
configuration admits, are read as they are.
-/

namespace LineCensus

open Json (Fault Shape Value)

/-- How records of a type are written and read. -/
structure Stored (α : Type) where
  value : α → Value
  read : Json.Node → Except Fault α

namespace Stored

variable {α : Type}

/-- The JSON text of a record. -/
def encode (s : Stored α) (x : α) : Text := (s.value x).compact

/-- The record that a JSON text holds. -/
def decode (s : Stored α) (t : Text) : Except Fault α := Json.readDocument s.read t

/-- A field whose values are kept in a slot of the draft. -/
def field {σ β : Type} (name : String) (get : σ → Option β) (set : σ → β → σ)
    (read : Json.Node → Except Fault β) : Json.Field σ :=
  ⟨name, fun d => (get d).isSome, fun d x => do return set d (← read x)⟩

/-- Reads a text. -/
def readText : Json.Node → Except Fault Text := Json.readText "a string"

/-- Reads a list of texts. -/
def readTexts : Json.Node → Except Fault (List Text) := Json.readList readText

/-- Reads a path. -/
def readPath : Json.Node → Except Fault Text := Json.readText "path string"

/-- Counters. -/
def counter : Stored Nat := ⟨.natural, Json.readNat "usize"⟩

/-- Tallies; the draft has a slot for each counter. -/
def tally : Stored Tally where
  value t :=
    .object [("blank", .natural t.blank), ("comment", .natural t.comment), ("code", .natural t.code),
      ("files", .natural t.files)]
  read :=
    let shape : Shape (Option Nat × Option Nat × Option Nat × Option Nat) Tally :=
      { expected := "struct LineTally"
        blank := (none, none, none, none)
        fields :=
          [field "blank" (fun d => d.1) (fun d x => (some x, d.2)) counter.read,
            field "comment" (fun d => d.2.1) (fun d x => (d.1, some x, d.2.2)) counter.read,
            field "code" (fun d => d.2.2.1) (fun d x => (d.1, d.2.1, some x, d.2.2.2)) counter.read,
            field "files" (fun d => d.2.2.2) (fun d x => (d.1, d.2.1, d.2.2.1, some x)) counter.read]
        refusesUnknown := false
        isComplete := true
        build := fun d => ⟨d.1.getD 0, d.2.1.getD 0, d.2.2.1.getD 0, d.2.2.2.getD 0⟩ }
    shape.read

/-- Pairs of block comment markers. -/
def blockPair : Stored BlockPair where
  value p := .object [("start", .string p.opening), ("end", .string p.closing)]
  read :=
    let shape : Shape (Option Text × Option Text) BlockPair :=
      { expected := "struct BlockMarker"
        blank := (none, none)
        fields :=
          [field "start" (fun d => d.1) (fun d x => (some x, d.2)) readText,
            field "end" (fun d => d.2) (fun d x => (d.1, some x)) readText]
        refusesUnknown := false
        isComplete := true
        build := fun d => ⟨d.1.getD [], d.2.getD []⟩ }
    shape.read

/-- Marker sets. -/
def markers : Stored Markers where
  value m :=
    .object [("line", .texts m.line), ("block", .list (m.block.map blockPair.value)),
      ("continuation", .texts m.continuation)]
  read :=
    let shape : Shape (Option (List Text) × Option (List BlockPair) × Option (List Text)) Markers :=
      { expected := "struct MarkerSet"
        blank := (none, none, none)
        fields :=
          [field "line" (fun d => d.1) (fun d x => (some x, d.2)) readTexts,
            field "block" (fun d => d.2.1) (fun d x => (d.1, some x, d.2.2)) (Json.readList blockPair.read),
            field "continuation" (fun d => d.2.2) (fun d x => (d.1, d.2.1, some x)) readTexts]
        refusesUnknown := false
        isComplete := true
        build := fun d => ⟨d.1.getD [], d.2.1.getD [], d.2.2.getD []⟩ }
    shape.read

/-- Marker lists as a user wrote them. -/
def rawMarkers : Stored Markers.Raw where
  value m :=
    .object [("line", .texts m.line), ("block_starts", .texts m.openings), ("block_ends", .texts m.closings),
      ("continuation", .texts m.continuation)]
  read :=
    let shape : Shape (Option (List Text) × Option (List Text) × Option (List Text) × Option (List Text))
        Markers.Raw :=
      { expected := "struct RawMarkers"
        blank := (none, none, none, none)
        fields :=
          [field "line" (fun d => d.1) (fun d x => (some x, d.2)) readTexts,
            field "block_starts" (fun d => d.2.1) (fun d x => (d.1, some x, d.2.2)) readTexts,
            field "block_ends" (fun d => d.2.2.1) (fun d x => (d.1, d.2.1, some x, d.2.2.2)) readTexts,
            field "continuation" (fun d => d.2.2.2) (fun d x => (d.1, d.2.1, d.2.2.1, some x)) readTexts]
        refusesUnknown := false
        isComplete := true
        build := fun d => ⟨d.1.getD [], d.2.1.getD [], d.2.2.1.getD [], d.2.2.2.getD []⟩ }
    shape.read

/-- The slots of a plan. -/
structure PlanDraft where
  roots : Option (List Text)
  extensions : Option (List Text)
  isRecursive : Option Bool
  includesHidden : Option Bool
  followsLinks : Option Bool
  respectsIgnoreFiles : Option Bool

/-- Search plans. -/
def plan : Stored SearchPlan where
  value p :=
    .object [("roots", .texts p.roots), ("extensions", .texts p.extensions),
      ("recursive", .bool p.options.isRecursive), ("include_hidden", .bool p.options.includesHidden),
      ("follow_links", .bool p.options.followsLinks),
      ("respect_ignore_files", .bool p.options.respectsIgnoreFiles)]
  read :=
    let shape : Shape PlanDraft SearchPlan :=
      { expected := "struct FileEnumerationPlan"
        blank := ⟨none, none, none, none, none, none⟩
        fields :=
          [field "roots" PlanDraft.roots (fun d x => { d with roots := some x }) (Json.readList readPath),
            field "extensions" PlanDraft.extensions (fun d x => { d with extensions := some x }) readTexts,
            field "recursive" PlanDraft.isRecursive (fun d x => { d with isRecursive := some x }) Json.readBool,
            field "include_hidden" PlanDraft.includesHidden
              (fun d x => { d with includesHidden := some x }) Json.readBool,
            field "follow_links" PlanDraft.followsLinks
              (fun d x => { d with followsLinks := some x }) Json.readBool,
            field "respect_ignore_files" PlanDraft.respectsIgnoreFiles
              (fun d x => { d with respectsIgnoreFiles := some x }) Json.readBool]
        refusesUnknown := false
        isComplete := true
        build := fun d =>
          ⟨d.roots.getD [], d.extensions.getD [],
            ⟨d.isRecursive.getD false, d.includesHidden.getD false, d.followsLinks.getD false,
              d.respectsIgnoreFiles.getD false⟩⟩ }
    shape.read

/-- Found files. -/
def foundFile : Stored FoundFile where
  value f :=
    .object [("path", .string f.path), ("ext", .string f.extension), ("name", .string f.name),
      ("size", .natural f.size)]
  read :=
    let shape : Shape (Option Text × Option Text × Option Text × Option Nat) FoundFile :=
      { expected := "struct FileEntryDto"
        blank := (none, none, none, none)
        fields :=
          [field "path" (fun d => d.1) (fun d x => (some x, d.2)) readPath,
            field "ext" (fun d => d.2.1) (fun d x => (d.1, some x, d.2.2)) readText,
            field "name" (fun d => d.2.2.1) (fun d x => (d.1, d.2.1, some x, d.2.2.2)) readText,
            field "size" (fun d => d.2.2.2) (fun d x => (d.1, d.2.1, d.2.2.1, some x)) (Json.readNat "u64")]
        refusesUnknown := false
        isComplete := true
        build := fun d => ⟨d.1.getD [], d.2.1.getD [], d.2.2.1.getD [], d.2.2.2.getD 0⟩ }
    shape.read

/-- Buckets, by their names. -/
def bucket : Stored Bucket := ⟨fun b => .string b.name.toList, Json.readName "enum LineKind" Bucket.names⟩

/-- Verdicts, by their names. -/
def verdict : Stored Verdict :=
  ⟨fun v => .string v.name.toList, Json.readName "enum Classification" Verdict.names⟩

end Stored

end LineCensus
