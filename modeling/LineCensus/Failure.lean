import LineCensus.Text.Basic
import LineCensus.SystemError

/-!
# Failures

A `Failure` is why something asked of the program could not be done. It has one wording
(`Failure.message`), which begins with the part of the program it arose in, and a list of causes
behind it (`Failure.chain`), outermost first: the wording without that beginning, then the failures
it wraps. `Failure.report` puts all of them on one line.
-/

namespace LineCensus

/-- Why something could not be done. -/
inductive Failure where
  /-- A failure with words about when it arose. -/
  | context (text : String) (source : Failure)
  | invalidConfiguration (reason : String)
  | fileRead (path : Text) (source : SystemError)
  | configRead (path : Text) (details : String)
  /-- A text is not well-formed in its format. -/
  | unparsable (format details : String)
  | output (message : String) (source : Option SystemError)
  | collectionFailed (reason : String) (source : Option Failure)
  | threadPool (details : String)
  | invalidValue (flag value reason : String)
  deriving Repr

namespace Failure

/-- A system error that arose outside of any particular operation. -/
def ofSystem (e : SystemError) : Failure := output e.message (some e)

/-- The part of the program that a failure arises in. -/
def origin : Failure → Option String
  | context .. => none
  | invalidConfiguration .. => some "Domain"
  | fileRead .. | configRead .. | unparsable .. | output .. => some "Infrastructure"
  | collectionFailed .. | threadPool .. => some "Application"
  | invalidValue .. => some "Presentation"

/-- The wording of a failure without its origin. -/
def bareMessage : Failure → String
  | context text _ => text
  | invalidConfiguration reason => "Invalid configuration: " ++ reason
  | fileRead path source => "Failed to read file '" ++ path.toString ++ "': " ++ source.message
  | configRead path details => "Failed to read configuration '" ++ path.toString ++ "': " ++ details
  | unparsable format details => "Failed to parse " ++ format ++ ": " ++ details
  | output message _ => "Output error: " ++ message
  | collectionFailed reason _ => "Failed to collect file entries: " ++ reason
  | threadPool details => "Thread pool creation failed: " ++ details
  | invalidValue flag value reason => "Invalid CLI value: " ++ flag ++ " = " ++ value ++ " - " ++ reason

/-- The wording of a failure. -/
def message : Failure → String
  | context text source => text ++ ": " ++ source.message
  | f =>
    match f.origin with
    | some part => part ++ " error: " ++ f.bareMessage
    | none => f.bareMessage

/-- The wordings of the causes behind a failure, outermost first. -/
def chain : Failure → List String
  | context _ source => source.message :: chain source
  | fileRead path source => [bareMessage (fileRead path source), source.message]
  | output text source => bareMessage (output text source) :: (source.map SystemError.message).toList
  | collectionFailed reason (some source) =>
    bareMessage (collectionFailed reason none) :: source.message :: chain source
  | f => [f.bareMessage]

/-- The failure and all causes behind it, on one line. -/
def report (f : Failure) : String := String.intercalate ": " (f.message :: f.chain)

end Failure

end LineCensus
