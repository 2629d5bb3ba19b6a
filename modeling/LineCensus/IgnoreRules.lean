import LineCensus.Glob
import LineCensus.Text.Blank
import LineCensus.Text.ByteLines
import LineCensus.FileTree

/-!
# Ignore rules

A directory may hold files of patterns, one a line, that say which of the entries below it a search
leaves out. A pattern with a slash in front or inside is matched against the whole path below the
directory, any other against the last name. `!` takes an entry back in, a slash at the end stands
for directories only. Of the patterns of one file the last that matches decides (`Rule.decide?`).

A search meets such files on every level from the entry up to the top. `Level.ruling?` takes the
innermost decision of each kind of file, and `.ignore` before `.gitignore` before the exclusions of
the repository.
-/

namespace LineCensus

/-- What a pattern says about the entries it matches. -/
inductive Ruling where
  | ignored
  | kept
  deriving DecidableEq, Repr

/-- A pattern with what it says. -/
structure Rule where
  pattern : List Glob.Token
  ruling : Ruling
  onlyDirectories : Bool

namespace Rule

/-- The pattern in which a name without slashes may stand anywhere, and everything below a
directory is not the directory itself. -/
def anchored (isAnchored : Bool) (t : Text) : Text :=
  let anywhere : Text := ['*', '*', '/']
  let t := if isAnchored ∨ '/' ∈ t ∨ t = ['*', '*'] then t else anywhere ++ t
  if ['/', '*', '*'].isSuffixOf t then t ++ ['/', '*'] else t

/-- The rule of a line, if it holds one. White space at its end counts only behind a backslash. -/
def ofLine? (line : Text) : Option Rule :=
  if line.head? = some '#' then none
  else
    let line := if ['\\', ' '].isSuffixOf line then line else Text.trimEnd line
    if line = [] then none
    else
      let isEscaped := ['\\', '!'].isPrefixOf line ∨ ['\\', '#'].isPrefixOf line
      let isKept := ¬ isEscaped ∧ line.head? = some '!'
      let line := if isEscaped ∨ isKept then line.tail else line
      let isAnchored := ¬ isEscaped ∧ line.head? = some '/'
      let line := if isAnchored then line.tail else line
      let onlyDirectories := line.getLast? = some '/'
      let line := if onlyDirectories then Text.dropLastIf '\\' line.dropLast else line
      (Glob.read (anchored isAnchored line)).map fun pattern =>
        ⟨pattern, if isKept then .kept else .ignored, onlyDirectories⟩

/-- The rules of a file, in order. A byte order mark in front is passed over. Nothing is read behind
a line that is not well-formed, and lines that are no patterns say nothing. -/
def ofBytes (bytes : List UInt8) : List Rule :=
  let texts := ((ByteLines.split bytes).map Utf8.decode?).takeWhile Option.isSome |>.filterMap id
  let texts :=
    match texts with
    | first :: rest => first.dropWhile (· = '\ufeff') :: rest
    | [] => []
  texts.filterMap ofLine?

/-- What the rules of a file say about an entry at this path below the directory of the file. -/
def decide? (rules : List Rule) (isDirectory : Bool) (path : Text) : Option Ruling :=
  let bytes := Utf8.encode path
  (rules.reverse.find? fun r => (!r.onlyDirectories || isDirectory) && Glob.matchesAll r.pattern bytes).map
    Rule.ruling

end Rule

/-- The rules of one directory, by kind of file. -/
structure DirectoryRules where
  ignore : List Rule
  gitignore : List Rule
  excluded : List Rule

/-- A directory that a search has gone through: its name in the directory above it, and its rules. -/
structure Level where
  name : Text
  rules : DirectoryRules

namespace DirectoryRules

/-- The file with the rules that come before all others. -/
def ignorePath : List Text := [".ignore".toList]

/-- The file with the rules of a repository that are part of it. -/
def gitignorePath : List Text := [".gitignore".toList]

/-- The file with the rules of a repository that are not part of it. -/
def excludedPath : List Text := [".git".toList, "info".toList, "exclude".toList]

/-- The rules of the directory at a location. -/
def load (t : FileTree) (l : Location) : DirectoryRules :=
  let rules (names : List Text) : List Rule :=
    match t.walkSteps true FileTree.linkLimit l names with
    | .ok m =>
      match t.at? m with
      | some (.file bytes) => Rule.ofBytes bytes
      | _ => []
    | .error _ => []
  ⟨rules ignorePath, rules gitignorePath, rules excludedPath⟩

end DirectoryRules

namespace Level

/-- The innermost decision of one kind of file about the entry at `path` below the first level. -/
def firstRuling? (kind : DirectoryRules → List Rule) (isDirectory : Bool) (path : Text) :
    List Level → Option Ruling
  | [] => none
  | level :: outer =>
    match Rule.decide? (kind level.rules) isDirectory path with
    | some ruling => some ruling
    | none => firstRuling? kind isDirectory (level.name ++ '/' :: path) outer

/-- What the rules on all levels, innermost first, say about an entry. -/
def ruling? (levels : List Level) (isDirectory : Bool) (name : Text) : Option Ruling :=
  firstRuling? DirectoryRules.ignore isDirectory name levels <|>
    firstRuling? DirectoryRules.gitignore isDirectory name levels <|>
      firstRuling? DirectoryRules.excluded isDirectory name levels

end Level

end LineCensus
