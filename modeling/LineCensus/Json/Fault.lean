import LineCensus.Text.Quoted
import LineCensus.Number.Shortest

/-!
# Faults of JSON texts

A `Cause` says what is wrong with a JSON text, as a text or as the record it should hold; a `Fault`
is a cause with the byte offset up to which the text had been read. The wording of a cause is
`Cause.message`; `Fault.message` adds the line and column that belong to the offset.
-/

namespace LineCensus.Json

/-- What was found where something else was expected. -/
inductive Found where
  | null
  | bool (b : Bool)
  | natural (n : Nat)
  /-- The number `-n`. -/
  | negative (n : Nat)
  | float (isNegative : Bool) (magnitude : Binary64)
  | string (t : Text)
  | list
  | object
  deriving DecidableEq, Repr

/-- The words for what was found. -/
def Found.message : Found → String
  | null => "null"
  | bool b => "boolean `" ++ toString b ++ "`"
  | natural n => "integer `" ++ toString n ++ "`"
  | negative n => "integer `-" ++ toString n ++ "`"
  | float s x => "floating point `" ++ (if s then "-" else "") ++ x.toText.toString ++ "`"
  | string t => "string " ++ (Text.quoted false t).toString
  | list => "sequence"
  | object => "map"

/-- What is wrong with a text. -/
inductive Cause where
  | eofInValue
  | eofInList
  | eofInObject
  | eofInString
  | expectedColon
  | expectedListEnd
  | expectedObjectEnd
  | expectedWord
  | expectedValue
  | invalidEscape
  | invalidNumber
  | numberOutOfRange
  | controlCharacter
  | loneSurrogate
  | unfinishedPair
  | keyNotString
  | trailingComma
  | trailingCharacters
  | wrongType (found : Found) (expected : String)
  | unknownField (name : Text) (known : List String)
  | missingField (name : String)
  | duplicateField (name : String)
  | tooShort (length : Nat) (expected : String)
  deriving DecidableEq, Repr

/-- The alternatives among which a field name must be. -/
def alternatives (names : List String) : String :=
  match names.map fun n => "`" ++ n ++ "`" with
  | [] => ""
  | [a] => a
  | [a, b] => a ++ " or " ++ b
  | many => "one of " ++ String.intercalate ", " many

/-- The wording of a cause. -/
def Cause.message : Cause → String
  | eofInValue => "EOF while parsing a value"
  | eofInList => "EOF while parsing a list"
  | eofInObject => "EOF while parsing an object"
  | eofInString => "EOF while parsing a string"
  | expectedColon => "expected `:`"
  | expectedListEnd => "expected `,` or `]`"
  | expectedObjectEnd => "expected `,` or `\x7d`"
  | expectedWord => "expected ident"
  | expectedValue => "expected value"
  | invalidEscape => "invalid escape"
  | invalidNumber => "invalid number"
  | numberOutOfRange => "number out of range"
  | controlCharacter => "control character (\\u0000-\\u001F) found while parsing a string"
  | loneSurrogate => "lone leading surrogate in hex escape"
  | unfinishedPair => "unexpected end of hex escape"
  | keyNotString => "key must be a string"
  | trailingComma => "trailing comma"
  | trailingCharacters => "trailing characters"
  | wrongType found expected => "invalid type: " ++ found.message ++ ", expected " ++ expected
  | unknownField name known =>
    "unknown field `" ++ name.toString ++ "`, " ++
      (if known = [] then "there are no fields" else "expected " ++ alternatives known)
  | missingField name => "missing field `" ++ name ++ "`"
  | duplicateField name => "duplicate field `" ++ name ++ "`"
  | tooShort n expected => "invalid length " ++ toString n ++ ", expected " ++ expected

/-- A cause, and the byte offset up to which the text had been read. -/
structure Fault where
  cause : Cause
  offset : Nat
  deriving DecidableEq, Repr

/-- The line of byte `offset`, counted from one, and the number of bytes before it on that line.
The first argument is the line, the second the offset at which it begins, the third the offset of
the text. -/
def positionFrom (line begins here offset : Nat) : Text → Nat × Nat
  | [] => (line, offset - begins)
  | c :: t =>
    if offset ≤ here then (line, offset - begins)
    else if c = '\n' then positionFrom (line + 1) (here + 1) (here + 1) offset t
    else positionFrom line begins (here + c.utf8Size) offset t

/-- The wording of a fault of the text `t`. -/
def Fault.message (t : Text) (f : Fault) : String :=
  let (line, column) := positionFrom 1 0 0 f.offset t
  f.cause.message ++ " at line " ++ toString line ++ " column " ++ toString column

end LineCensus.Json
