import LineCensus.Draft.KeyValue
import LineCensus.Draft.Document
import LineCensus.FileTree
import LineCensus.Log
import LineCensus.Text.Utf8

/-!
# Configuration files

`Draft.ofFile` reads a configuration file. Its extension, in any case, says in which format it is
written: JSON, YAML, or else configuration lines. Only a file that holds well-formed text is reported
as loaded, whether its text can be read as a configuration or not.
-/

namespace LineCensus.Draft

/-- The formats of configuration files. -/
inductive Format where
  | keyValue
  | json
  | yaml
  deriving DecidableEq, Repr

/-- The format that the extension of a path stands for. -/
def Format.ofPath (path : Text) : Format :=
  match (Path.extension? path).map fun e => (Text.lowerAscii e).toString with
  | some "json" => json
  | some "yaml" => yaml
  | some "yml" => yaml
  | _ => keyValue

/-- The failure to read a document in the file at a path. -/
def unparsable (path : Text) (format details : String) : Failure :=
  .context ("parsing " ++ path.toString) (.unparsable format details)

/-- The draft of a text in the given format; `path` leads to the file it comes from. -/
def ofText (path : Text) (t : Text) : Format → Except Failure Draft
  | .keyValue => (KeyValue.parse t).mapError fun (n, fault) => .configRead path (fault.message n)
  | .json => (ofJson t).mapError fun fault => unparsable path "JSON" (fault.message t)
  | .yaml => (ofYaml t).mapError fun fault => unparsable path "YAML" fault.message

/-- The text of a configuration file. -/
def textOf (t : FileTree) (path : Text) : Except Failure Text :=
  match t.read path with
  | .error e => .error (.configRead path e.message)
  | .ok bytes =>
    match Utf8.decode? bytes with
    | none => .error (.configRead path SystemError.notUtf8.message)
    | some text => .ok text

/-- The draft of a configuration file, and what is reported about it. -/
def ofFile (t : FileTree) (path : Text) : List Log.Record × Except Failure Draft :=
  match textOf t path with
  | .error f => ([], .error f)
  | .ok text =>
    ([⟨.debug, .configuration, "loaded configuration from " ++ path.toString⟩],
      ofText path text (.ofPath path))

end LineCensus.Draft
