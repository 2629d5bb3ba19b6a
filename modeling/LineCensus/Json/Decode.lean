import LineCensus.Json.Node

/-!
# Reading records from JSON

A record is written as an object whose members are its fields, or as the list of its fields in
order. `Shape` describes a record: its fields with a reader for each, whether unknown fields are
refused or passed over, and whether all fields are required. `Shape.read` reads it, and complains
about the first fault in the text, whether this is one of the text or of the record.

Fields are gathered in a draft of type `σ` before the record is built from it. No field may be
given twice.
-/

namespace LineCensus.Json

/-- The fault of a value that is none of the expected ones. -/
def Node.complaint (expected : String) : Node → Fault
  | .null stop => ⟨.wrongType .null expected, stop⟩
  | .bool b stop => ⟨.wrongType (.bool b) expected, stop⟩
  | .number n _ stop =>
    match n.value with
    | .ok found => ⟨.wrongType found expected, stop⟩
    | .error cause => ⟨cause, stop⟩
  | .string (.ok s) _ stop => ⟨.wrongType (.string s) expected, stop⟩
  | .string (.error fault) _ _ => fault
  | .list start _ _ => ⟨.wrongType .list expected, start⟩
  | .object start _ _ => ⟨.wrongType .object expected, start⟩
  | .broken _ fault => fault

/-- Where a complaint about the first character of a value is placed. -/
def Node.seen : Node → Nat
  | .null stop => stop - 3
  | .bool b stop => stop - (if b then 3 else 4)
  | .number _ start _ | .string _ start _ | .list start _ _ | .object start _ _ | .broken start _ => start + 1

/-- Reads a text; `expected` says what it should be. -/
def readText (expected : String) : Node → Except Fault Text
  | .string content _ _ => content
  | node => .error (node.complaint expected)

/-- Reads a truth value. -/
def readBool : Node → Except Fault Bool
  | .bool b _ => .ok b
  | node => .error (node.complaint "a boolean")

/-- Reads a whole number of 64 bits. -/
def readNat (expected : String) (node : Node) : Except Fault Nat :=
  match node with
  | .number n _ _ =>
    match n.value with
    | .ok (.natural n) => .ok n
    | _ => .error (node.complaint expected)
  | _ => .error (node.complaint expected)

/-- Reads a list. -/
def readList {α : Type} (item : Node → Except Fault α) : Node → Except Fault (List α)
  | .list _ items ending => do
    let xs ← items.mapM item
    match ending with
    | .closed _ => return xs
    | .broken fault => throw fault
  | node => .error (node.complaint "a sequence")

/-- A field of a record whose draft is a `σ`. -/
structure Field (σ : Type) where
  name : String
  /-- The draft holds this field already. -/
  isSet : σ → Bool
  /-- Reads the field into the draft. -/
  read : σ → Node → Except Fault σ

/-- The form of a record. -/
structure Shape (σ α : Type) where
  /-- What a reader is told a value of this form is. -/
  expected : String
  /-- The draft without any field. -/
  blank : σ
  fields : List (Field σ)
  /-- Unknown fields are refused. -/
  refusesUnknown : Bool
  /-- All fields must be given. -/
  isComplete : Bool
  build : σ → α

namespace Shape

variable {σ α : Type}

/-- Reads one member of an object. -/
def readMember (shape : Shape σ α) (draft : σ) (member : Key × Node) : Except Fault σ := do
  let (key, node) := member
  let name ← key.name
  match shape.fields.find? fun f => f.name.toList = name with
  | some f =>
    if f.isSet draft then throw ⟨.duplicateField f.name, key.behind⟩
    f.read draft node
  | none =>
    if shape.refusesUnknown then throw ⟨.unknownField name (shape.fields.map Field.name), key.behind⟩
    match node.fault? with
    | some fault => throw fault
    | none => return draft

/-- The record of a draft whose text is closed by the byte before `stop`. -/
def finish (shape : Shape σ α) (draft : σ) (stop : Nat) : Except Fault α :=
  match shape.fields.find? fun f => !f.isSet draft with
  | some f => if shape.isComplete then .error ⟨.missingField f.name, stop⟩ else .ok (shape.build draft)
  | none => .ok (shape.build draft)

/-- The fault of a list in which nothing may follow any more. -/
def overlong : List Node → Ending → Except Fault Unit
  | node :: _, _ => .error ⟨.trailingCharacters, node.seen⟩
  | [], .closed _ => .ok ()
  | [], .broken fault =>
    match fault.cause with
    | .eofInValue | .expectedListEnd => .error ⟨.trailingCharacters, fault.offset⟩
    | _ => .error fault

/-- Reads the fields of a record by position, `n` of them being read. -/
def readPositions (shape : Shape σ α) (n : Nat) (draft : σ) :
    List (Field σ) → List Node → Ending → Except Fault α
  | [], items, ending => do
    overlong items ending
    return shape.build draft
  | f :: fields, node :: items, ending => do
    readPositions shape (n + 1) (← f.read draft node) fields items ending
  | _ :: _, [], .broken fault => .error fault
  | _ :: _, [], .closed stop =>
    if shape.isComplete then
      let size := shape.fields.length
      .error ⟨.tooShort n (shape.expected ++ " with " ++ toString size ++ " element" ++
        (if size = 1 then "" else "s")), stop⟩
    else .ok (shape.build draft)

/-- Reads a record. -/
def read (shape : Shape σ α) : Node → Except Fault α
  | .object _ members ending => do
    let draft ← members.foldlM shape.readMember shape.blank
    match ending with
    | .closed stop => shape.finish draft stop
    | .broken fault => throw fault
  | .list _ items ending => shape.readPositions 0 shape.blank shape.fields items ending
  | node => .error (node.complaint shape.expected)

end Shape

/-- Reads one of the given names, as a string or as the one key of an object whose value is null. -/
def readName {β : Type} (expected : String) (names : List (String × β)) (node : Node) : Except Fault β :=
  let named (name : Text) (offset : Nat) : Except Fault β :=
    match names.find? fun p => p.1.toList = name with
    | some (_, x) => .ok x
    | none => .error ⟨.unknownField name (names.map Prod.fst), offset⟩
  match node with
  | .string (.ok name) _ stop => named name stop
  | .object _ [(key, .null _)] (.closed _) => do named (← key.name) key.behind
  | _ => .error (node.complaint expected)

/-- Reads a text that holds one value and nothing behind it. -/
def readDocument {α : Type} (value : Node → Except Fault α) (t : Text) : Except Fault α := do
  let d := Document.ofText t
  let x ← value d.root
  match d.trailing with
  | some fault => throw fault
  | none => return x

end LineCensus.Json
