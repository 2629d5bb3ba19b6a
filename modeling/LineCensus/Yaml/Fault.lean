import LineCensus.Text.Blank

/-!
# Faults of YAML texts

A `Fault` says why a text is not a YAML document of the supported kind, or not the record that it
should be. Supported are block and flow collections, plain and quoted scalars, comments and document
markers.
-/

namespace LineCensus.Yaml

/-- Why a text is refused. -/
inductive Fault where
  | controlCharacter
  | badStart
  | unsupported
  | misplacedEntry
  | misplacedKey
  | misplacedValue
  | missingColon
  | unexpectedColon
  | tabInIndentation
  | unknownEscape
  | badCharacterCode
  | markerInQuotes
  | unclosedQuotes
  | expectedNode
  | expectedItem
  | expectedKey
  | expectedListEnd
  | expectedMapEnd
  | expectedDocument
  | severalDocuments
  | tooDeep
  | wrongType (expected : String)
  | unknownField (name : Text)
  | missingField (name : String)
  | duplicateField (name : String)
  deriving DecidableEq, Repr

/-- The wording of a fault. -/
def Fault.message : Fault → String
  | controlCharacter => "control characters are not allowed"
  | badStart => "found character that cannot start any token"
  | unsupported => "found a construct that is not supported"
  | misplacedEntry => "block sequence entries are not allowed in this context"
  | misplacedKey => "mapping keys are not allowed in this context"
  | misplacedValue => "mapping values are not allowed in this context"
  | missingColon => "could not find expected ':'"
  | unexpectedColon => "found unexpected ':'"
  | tabInIndentation => "found a tab character that violates indentation"
  | unknownEscape => "found unknown escape character"
  | badCharacterCode => "found invalid Unicode character escape code"
  | markerInQuotes => "found unexpected document indicator"
  | unclosedQuotes => "found unexpected end of stream"
  | expectedNode => "did not find expected node content"
  | expectedItem => "did not find expected '-' indicator"
  | expectedKey => "did not find expected key"
  | expectedListEnd => "did not find expected ',' or ']'"
  | expectedMapEnd => "did not find expected ',' or '\x7d'"
  | expectedDocument => "did not find expected <document start>"
  | severalDocuments => "deserializing from YAML containing more than one document is not supported"
  | tooDeep => "recursion limit exceeded"
  | wrongType expected => "invalid type: expected " ++ expected
  | unknownField name => "unknown field `" ++ name.toString ++ "`"
  | missingField name => "missing field `" ++ name ++ "`"
  | duplicateField name => "duplicate field `" ++ name ++ "`"

end LineCensus.Yaml
