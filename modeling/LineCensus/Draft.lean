import LineCensus.Text.Blank
import LineCensus.Markers
import LineCensus.Failure

/-!
# Drafts and settings

A `Draft` is what a configuration file and the command line ask for. `Draft.validate` turns it into
the `Settings` of a run, or names every problem of it at once. Extensions lose white space around
them and then their leading dots; everything else is taken as it is.
-/

namespace LineCensus

/-- What a run is asked to do, unchecked. -/
structure Draft where
  directories : List Text
  extensions : List Text
  isRecursive : Bool
  markers : Markers.Raw
  deriving DecidableEq, Repr

/-- What a run does. Extensions have no leading dot. -/
structure Settings where
  directories : List Text
  extensions : List Text
  isRecursive : Bool
  markers : Markers
  deriving DecidableEq, Repr

namespace Draft

/-- Asks for nothing. -/
def empty : Draft := ⟨[], [], false, .empty⟩

/-- A problem of a draft. -/
inductive Problem where
  | marker (p : Markers.Problem)
  | noDirectory
  | noExtension
  | emptyExtension
  deriving DecidableEq, Repr

/-- The wording of a problem. -/
def Problem.message : Problem → String
  | marker p => p.message
  | noDirectory => "at least one directory must be specified"
  | noExtension => "at least one extension must be specified"
  | emptyExtension => "empty extension"

/-- An extension without white space around it and without leading dots. -/
def plainExtension (e : Text) : Text := (Text.trim e).dropWhile (· = '.')

/-- The plain extensions of a draft. -/
def plainExtensions (d : Draft) : List Text := d.extensions.map plainExtension

/-- Every problem of a draft. -/
def problems (d : Draft) : List Problem :=
  d.markers.problems.map .marker ++
  (if d.directories = [] then [.noDirectory] else []) ++
  (if d.extensions = [] then [.noExtension]
    else if d.plainExtensions.contains [] then [.emptyExtension] else [])

/-- The settings that a draft without problems asks for. -/
def settings (d : Draft) : Settings := ⟨d.directories, d.plainExtensions, d.isRecursive, d.markers.toMarkers⟩

/-- The failure that reports problems. -/
def refusal (ps : List Problem) : Failure :=
  .invalidConfiguration (String.intercalate "; " (ps.map Problem.message))

/-- The settings of a draft, if it has no problems. -/
def validate (d : Draft) : Except Failure Settings :=
  if d.problems = [] then .ok d.settings else .error (refusal d.problems)

end Draft

end LineCensus
