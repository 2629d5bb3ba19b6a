import LineCensus.Text.Basic

/-!
# What a line is

A `Verdict` says what one physical line is; a `Bucket` is the counter it falls under.
`Verdict.bucket` maps the five verdicts onto the three buckets.
-/

namespace LineCensus

/-- What one physical line is. -/
inductive Verdict where
  /-- It holds program text. -/
  | code
  /-- It is empty or consists of spaces and tabs. -/
  | whitespace
  /-- It is a line comment, or a block comment that is closed on it. -/
  | comment
  /-- It is a line comment that is continued on the next line. -/
  | continuing
  /-- It lies in a block comment that is still open at its end. -/
  | block
  deriving DecidableEq, Repr

/-- The counter a line falls under. -/
inductive Bucket where
  | blank
  | comment
  | code
  deriving DecidableEq, Repr

namespace Verdict

/-- The bucket of a verdict. -/
def bucket : Verdict → Bucket
  | whitespace => .blank
  | comment | continuing | block => .comment
  | code => .code

/-- The line counts as comment. -/
def isComment (v : Verdict) : Bool := v.bucket = .comment

/-- All verdicts with the names under which they are written. -/
def names : List (String × Verdict) :=
  [("code", code), ("whitespace", whitespace), ("comment", comment), ("continuing_comment", continuing),
    ("block_comment", block)]

/-- The name under which a verdict is written. -/
def name : Verdict → String
  | code => "code"
  | whitespace => "whitespace"
  | comment => "comment"
  | continuing => "continuing_comment"
  | block => "block_comment"

end Verdict

namespace Bucket

/-- All buckets with the names under which they are written. -/
def names : List (String × Bucket) := [("blank", blank), ("comment", comment), ("code", code)]

/-- The name under which a bucket is written. -/
def name : Bucket → String
  | blank => "blank"
  | comment => "comment"
  | code => "code"

/-- The word shown to a reader. -/
def label : Bucket → String
  | blank => "Blank"
  | comment => "Comment"
  | code => "Code"

end Bucket

end LineCensus
