import LineCensus.Draft
import LineCensus.Json.Decode
import LineCensus.Yaml.Node

/-!
# Configuration documents

A configuration may also be a document in JSON or YAML, with the same fields in both. Every field
may be left out, but none may be unknown or given twice. In a `Document` each field is there or not;
`Document.draft` fills in the defaults.

The two formats differ in what they take for a value. In JSON a list of the fields in order stands
for a record, too. In YAML any scalar is a text, an empty value is an empty list, and only an
unquoted scalar can be a truth value.
-/

namespace LineCensus.Draft

/-- The fields that a document gives. -/
structure Document where
  directories : Option (List Text)
  extensions : Option (List Text)
  comments : Option (List Text)
  blockComments : Option (List BlockPair)
  continuations : Option (List Text)
  isRecursive : Option Bool
  deriving DecidableEq, Repr

namespace Document

/-- Gives no field. -/
def blank : Document := ⟨none, none, none, none, none, none⟩

/-- The draft of a document; what it does not give is empty. -/
def draft (d : Document) : Draft where
  directories := d.directories.getD []
  extensions := d.extensions.getD []
  isRecursive := d.isRecursive.getD false
  markers :=
    { line := d.comments.getD []
      openings := (d.blockComments.getD []).map BlockPair.opening
      closings := (d.blockComments.getD []).map BlockPair.closing
      continuation := d.continuations.getD [] }

end Document

/-- The two markers of a block comment, as far as they are given. -/
abbrev PairDraft := Option Text × Option Text

/-- The pair of a complete draft. -/
def PairDraft.pair (d : PairDraft) : BlockPair := ⟨d.1.getD [], d.2.getD []⟩

/-! ### JSON -/

/-- A pair of block comment markers in JSON. -/
def pairShape : Json.Shape PairDraft BlockPair where
  expected := "struct BlockCommentPair"
  blank := (none, none)
  fields :=
    [⟨"start", fun d => d.1.isSome, fun d x => do return (some (← Json.readText "a string" x), d.2)⟩,
      ⟨"end", fun d => d.2.isSome, fun d x => do return (d.1, some (← Json.readText "a string" x))⟩]
  refusesUnknown := true
  isComplete := true
  build := PairDraft.pair

/-- A configuration in JSON. -/
def documentShape : Json.Shape Document Draft where
  expected := "struct ConfigDocument"
  blank := .blank
  fields :=
    let texts := Json.readList (Json.readText "a string")
    [⟨"directories", fun d => d.directories.isSome,
        fun d x => do return { d with directories := some (← Json.readList (Json.readText "path string") x) }⟩,
      ⟨"extensions", fun d => d.extensions.isSome,
        fun d x => do return { d with extensions := some (← texts x) }⟩,
      ⟨"comments", fun d => d.comments.isSome,
        fun d x => do return { d with comments := some (← texts x) }⟩,
      ⟨"block_comments", fun d => d.blockComments.isSome,
        fun d x => do return { d with blockComments := some (← Json.readList pairShape.read x) }⟩,
      ⟨"continuations", fun d => d.continuations.isSome,
        fun d x => do return { d with continuations := some (← texts x) }⟩,
      ⟨"recursive", fun d => d.isRecursive.isSome,
        fun d x => do return { d with isRecursive := some (← Json.readBool x) }⟩]
  refusesUnknown := true
  isComplete := false
  build := Document.draft

/-- The draft of a JSON text. -/
def ofJson (t : Text) : Except Json.Fault Draft := Json.readDocument documentShape.read t

/-! ### YAML -/

section Yaml

open Yaml (Node Fault)

/-- Any scalar is a text. -/
def yamlText : Node → Except Fault Text
  | .scalar t _ => .ok t
  | _ => .error (.wrongType "a string")

/-- A truth value is an unquoted word. -/
def yamlBool : Node → Except Fault Bool
  | .scalar t true =>
    if t.toString ∈ ["true", "True", "TRUE"] then .ok true
    else if t.toString ∈ ["false", "False", "FALSE"] then .ok false
    else .error (.wrongType "a boolean")
  | _ => .error (.wrongType "a boolean")

/-- An empty value is an empty list. -/
def yamlList {α : Type} (item : Node → Except Fault α) : Node → Except Fault (List α)
  | .list items => items.mapM item
  | .scalar [] true => .ok []
  | _ => .error (.wrongType "a sequence")

/-- The members of a map; an empty value has none. -/
def yamlMembers (expected : String) : Node → Except Fault (List (Node × Node))
  | .map members => .ok members
  | .scalar [] true => .ok []
  | _ => .error (.wrongType expected)

/-- Sets a field that is not set yet. -/
def once {α : Type} (name : String) (slot : Option α) (value : Except Fault α) : Except Fault (Option α) :=
  match slot with
  | some _ => .error (.duplicateField name)
  | none => value.map some

/-- Reads one marker of a pair. -/
def yamlPairMember (d : PairDraft) (member : Node × Node) : Except Fault PairDraft := do
  let name ← yamlText member.1
  match name.toString with
  | "start" => return (← once "start" d.1 (yamlText member.2), d.2)
  | "end" => return (d.1, ← once "end" d.2 (yamlText member.2))
  | _ => throw (.unknownField name)

/-- A pair of block comment markers in YAML. -/
def yamlPair (node : Node) : Except Fault BlockPair := do
  let d ← (← yamlMembers "struct BlockCommentPair" node).foldlM yamlPairMember ((none, none) : PairDraft)
  if d.1.isNone then throw (.missingField "start")
  if d.2.isNone then throw (.missingField "end")
  return PairDraft.pair d

/-- Reads one field of a configuration. -/
def yamlMember (d : Document) (member : Node × Node) : Except Fault Document := do
  let name ← yamlText member.1
  let texts := yamlList yamlText member.2
  match name.toString with
  | "directories" => return { d with directories := ← once "directories" d.directories texts }
  | "extensions" => return { d with extensions := ← once "extensions" d.extensions texts }
  | "comments" => return { d with comments := ← once "comments" d.comments texts }
  | "block_comments" =>
    return { d with blockComments := ← once "block_comments" d.blockComments (yamlList yamlPair member.2) }
  | "continuations" => return { d with continuations := ← once "continuations" d.continuations texts }
  | "recursive" => return { d with isRecursive := ← once "recursive" d.isRecursive (yamlBool member.2) }
  | _ => throw (.unknownField name)

/-- The draft of a YAML text; one without a document asks for nothing. -/
def ofYaml (t : Text) : Except Fault Draft := do
  match ← Node.ofText? t with
  | none => return Document.blank.draft
  | some root => return ((← (← yamlMembers "struct ConfigDocument" root).foldlM yamlMember .blank).draft)

end Yaml

end LineCensus.Draft
