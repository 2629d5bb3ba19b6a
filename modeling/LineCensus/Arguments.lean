import LineCensus.Text.Blank
import LineCensus.Failure
import LineCensus.Report

/-!
# Command line arguments

`Arguments.ofWords` reads the words behind the name of the program. A word is an option, the value
of the option before it, or the path of the configuration; behind `--` every word is a path. Options
with a value are written `--name value` or `--name=value`; flags may have a letter, and letters may
be bundled. Everything but `--dir`, `--ext` and `--verbose` may be given once only.

Words are taken one by one (`Reader.take`). A value is not examined until the next word settles it
(`Reader.settle`), so of two faults the first one that is settled is reported.
-/

namespace LineCensus

/-- What the user asks for. -/
structure Arguments where
  /-- The path of the configuration file. -/
  config : Text
  directories : List Text
  extensions : List Text
  isRecursive : Bool
  includesHidden : Bool
  followsLinks : Bool
  respectsIgnoreFiles : Bool
  /-- The number of files to read at the same time. -/
  jobs : Option Nat
  format : Report.Format
  /-- How often more reports were asked for. -/
  verbosity : Nat
  isQuiet : Bool
  deriving DecidableEq, Repr

/-- Why a command line gives no arguments. -/
inductive UsageError where
  | unknownArgument
  /-- Something is given twice, or with something that excludes it. -/
  | conflict
  /-- A value is missing, empty, or none of the possible ones. -/
  | invalidValue
  /-- A flag is given a value. -/
  | tooManyValues
  /-- A value is refused for a reason. -/
  | refused (f : Failure)
  | help
  | version
  deriving Repr

namespace Arguments

/-- The arguments of a command line without words. -/
def default : Arguments where
  config := "config.ini".toList
  directories := []
  extensions := []
  isRecursive := false
  includesHidden := false
  followsLinks := false
  respectsIgnoreFiles := false
  jobs := none
  format := .table
  verbosity := 0
  isQuiet := false

/-- What has a value. -/
inductive Setting where
  | config
  | directory
  | extension
  | jobs
  | format
  deriving DecidableEq, Repr

/-- What has no value. -/
inductive Flag where
  | recursive
  | hidden
  | follow
  | gitignore
  | verbose
  | quiet
  | help
  | version
  deriving DecidableEq, Repr

/-- The names of settings. The configuration has none. -/
def settingNames : List (String × Setting) :=
  [("dir", .directory), ("ext", .extension), ("jobs", .jobs), ("format", .format)]

/-- The names of flags. -/
def flagNames : List (String × Flag) :=
  [("recursive", .recursive), ("hidden", .hidden), ("follow", .follow), ("gitignore", .gitignore),
    ("verbose", .verbose), ("quiet", .quiet), ("help", .help), ("version", .version)]

/-- The letters of flags. -/
def flagLetters : List (Char × Flag) :=
  [('r', .recursive), ('v', .verbose), ('q', .quiet), ('h', .help), ('V', .version)]

/-- The greatest number of jobs that can be asked for. -/
def maxJobs : Nat := Nat.pow 2 64 - 1

/-- The greatest verbosity. -/
def maxVerbosity : Nat := 255

/-- A number of jobs, or the reason why it is none. A sign `+` is allowed. -/
def jobs? (value : Text) : Except String Nat :=
  let digits :=
    match Text.trim value with
    | '+' :: rest => rest
    | t => t
  match Text.toNat? digits with
  | none => .error "not a positive integer"
  | some n =>
    if n = 0 then .error "must be at least 1"
    else if maxJobs < n then .error "not a positive integer"
    else .ok n

/-- The formats of a report by name. -/
def formats : List (String × Report.Format) := [("table", .table), ("json", .json)]

/-- A command line under way. -/
structure Reader where
  arguments : Arguments
  hasConfig : Bool
  hasFormat : Bool
  /-- What the last words gave a value to, or still need one for. -/
  pending : Option (Setting × Option Text)
  /-- `--` was read. -/
  isTrailing : Bool

namespace Reader

/-- Before the first word. -/
def start : Reader := ⟨default, false, false, none, false⟩

/-- Gives a setting its value. -/
def set (r : Reader) (value : Text) : Setting → Except UsageError Reader
  | .config =>
    if value = [] then .error .invalidValue
    else .ok { r with arguments := { r.arguments with config := value } }
  | .directory =>
    if value = [] then .error .invalidValue
    else .ok { r with arguments := { r.arguments with directories := r.arguments.directories ++ [value] } }
  | .extension =>
    let extensions := r.arguments.extensions ++ value.splitOn ','
    .ok { r with arguments := { r.arguments with extensions } }
  | .jobs =>
    if r.arguments.jobs.isSome then .error .conflict
    else
      match jobs? value with
      | .error reason => .error (.refused (.invalidValue "--jobs" value.toString reason))
      | .ok n => .ok { r with arguments := { r.arguments with jobs := some n } }
  | .format =>
    if r.hasFormat then .error .conflict
    else
      match formats.lookup value.toString with
      | none => .error .invalidValue
      | some format => .ok { r with arguments := { r.arguments with format }, hasFormat := true }

/-- Gives the pending setting its value. -/
def settle (r : Reader) : Except UsageError Reader :=
  match r.pending with
  | none => .ok r
  | some (_, none) => .error .invalidValue
  | some (s, some value) => { r with pending := none }.set value s

/-- Raises a flag of the arguments. -/
def raise (r : Reader) : Flag → Except UsageError Reader
  | .recursive => once r.arguments.isRecursive { r.arguments with isRecursive := true }
  | .hidden => once r.arguments.includesHidden { r.arguments with includesHidden := true }
  | .follow => once r.arguments.followsLinks { r.arguments with followsLinks := true }
  | .gitignore => once r.arguments.respectsIgnoreFiles { r.arguments with respectsIgnoreFiles := true }
  | .quiet => once r.arguments.isQuiet { r.arguments with isQuiet := true }
  | .verbose =>
    .ok { r with arguments := { r.arguments with verbosity := min (r.arguments.verbosity + 1) maxVerbosity } }
  | .help => .error .help
  | .version => .error .version
where
  /-- Refuses a flag that is raised already. -/
  once (isRaised : Bool) (arguments : Arguments) : Except UsageError Reader :=
    if isRaised then .error .conflict else .ok { r with arguments }

/-- Takes a flag. -/
def flag (r : Reader) (f : Flag) : Except UsageError Reader := do (← r.settle).raise f

/-- Takes an option whose name and value, if it has one, follow two dashes. -/
def long (r : Reader) (body : Text) : Except UsageError Reader :=
  let (name, value) :=
    match Text.splitFirst? '=' body with
    | some (name, value) => (name.toString, some value)
    | none => (body.toString, none)
  match settingNames.lookup name, flagNames.lookup name with
  | some s, _ => do
    let r ← r.settle
    match value with
    | some v => r.set v s
    | none => return { r with pending := some (s, none) }
  | none, some f => if value.isSome then .error .tooManyValues else r.flag f
  | none, none => .error .unknownArgument

/-- Takes a flag by its letter. -/
def letter (r : Reader) (c : Char) : Except UsageError Reader :=
  match flagLetters.lookup c with
  | some f => r.flag f
  | none => .error .unknownArgument

/-- Takes the path of the configuration. -/
def path (r : Reader) (word : Text) : Except UsageError Reader :=
  if r.hasConfig then .error .unknownArgument
  else do return { (← r.settle) with hasConfig := true, pending := some (.config, some word) }

/-- Takes a word that is no option. -/
def plain (r : Reader) (word : Text) : Except UsageError Reader :=
  match r.pending with
  | some (s, none) => .ok { r with pending := some (s, some word) }
  | _ => r.path word

/-- Takes a word. -/
def take (r : Reader) (word : Text) : Except UsageError Reader :=
  if r.isTrailing then r.path word
  else
    match word with
    | ['-', '-'] => .ok { r with isTrailing := true }
    | '-' :: '-' :: body => r.long body
    | '-' :: c :: more => (c :: more).foldlM letter r
    | _ => r.plain word

/-- The arguments that were read. More reports and fewer of them exclude each other. -/
def finish (r : Reader) : Except UsageError Arguments := do
  let r ← r.settle
  if r.arguments.isQuiet && 0 < r.arguments.verbosity then .error .conflict else return r.arguments

end Reader

/-- The arguments in the words behind the name of the program. -/
def ofWords (words : List Text) : Except UsageError Arguments := do
  (← words.foldlM Reader.take Reader.start).finish

/-- The text that explains the command line. -/
def help : String :=
  "コード/コメント/空行の行数集計ツール\n\n" ++
  "Usage: line_tally [OPTIONS] [CONFIG]\n\n" ++
  "Arguments:\n" ++
  "  [CONFIG]  設定ファイル (.json / .yaml / KEY = value 形式) [default: config.ini]\n\n" ++
  "Options:\n" ++
  "      --dir <DIR>        検索ディレクトリ (指定時は設定ファイルの DIRECTORY を置き換える)\n" ++
  "      --ext <EXT>        拡張子 (カンマ区切り、指定時は設定ファイルの EXTENSION を置き換える)\n" ++
  "  -r, --recursive        サブディレクトリも検索\n" ++
  "      --hidden           隠しファイルも含める\n" ++
  "      --follow           シンボリックリンクを辿る\n" ++
  "      --gitignore        .gitignore / .ignore を尊重\n" ++
  "      --jobs <JOBS>      並列数 (既定: CPU 数)\n" ++
  "      --format <FORMAT>  出力フォーマット [default: table] [possible values: table, json]\n" ++
  "  -v, --verbose...       ログを詳細に (-v: info, -vv: debug)\n" ++
  "  -q, --quiet            エラー以外のログを抑制\n" ++
  "  -h, --help             Print help\n" ++
  "  -V, --version          Print version\n"

end Arguments

end LineCensus
