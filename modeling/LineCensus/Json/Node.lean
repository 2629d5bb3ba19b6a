import LineCensus.Json.Token

/-!
# JSON trees

A `Document` is the tree of a text. Reading stops at the first fault, and the tree holds what was
read up to it: a value that could not be read is `Node.broken`, and a list or object around it is
not closed (`Ending.broken`). So a reader of records meets faults of the text and faults of the
record in the order in which they stand in the text.

`Document.ofTokens` takes one token at a time; `Frame`s are the lists and objects still open.
-/

namespace LineCensus.Json

/-- How a list or an object ends. -/
inductive Ending where
  /-- It is closed; the next byte is `stop`. -/
  | closed (stop : Nat)
  | broken (fault : Fault)

/-- The name of a member of an object; a complaint about it is placed at byte `behind`. -/
structure Key where
  name : Except Fault Text
  behind : Nat

/-- A value, as far as it could be read. -/
inductive Node where
  | null (stop : Nat)
  | bool (b : Bool) (stop : Nat)
  | number (n : Numeral) (start stop : Nat)
  | string (content : Except Fault Text) (start stop : Nat)
  | list (start : Nat) (items : List Node) (ending : Ending)
  | object (start : Nat) (members : List (Key × Node)) (ending : Ending)
  | broken (start : Nat) (fault : Fault)

/-- A value, and what is wrong behind it. -/
structure Document where
  root : Node
  trailing : Option Fault

/-- A list or an object that is still open, with what it holds so far, last first. -/
inductive Frame where
  | list (start : Nat) (items : List Node)
  /-- The value of the member `key` is being read. -/
  | object (start : Nat) (members : List (Key × Node)) (key : Key)

/-- What may come next. -/
inductive Due where
  | value
  /-- The first item of a list that begins at `start`, or its end. -/
  | firstItem (start : Nat)
  /-- Another item, behind a comma. -/
  | nextItem (start : Nat) (items : List Node)
  /-- The first key of an object that begins at `start`, or its end. -/
  | firstKey (start : Nat)
  /-- Another key, behind a comma. -/
  | nextKey (start : Nat) (members : List (Key × Node))
  | colon (start : Nat) (members : List (Key × Node)) (name : Except Fault Text)
  /-- A comma or an end, behind a value. -/
  | separator (done : Node)

/-- Gives up: every open list and object ends with the fault. -/
def abandon (fault : Fault) (node : Node) : List Frame → Document
  | [] => ⟨node, none⟩
  | .list start items :: frames =>
    abandon fault (.list start (node :: items).reverse (.broken fault)) frames
  | .object start members key :: frames =>
    abandon fault (.object start ((key, node) :: members).reverse (.broken fault)) frames

/-- Where a value begins with this token: what is due next inside the value, or the fault. -/
def Due.ofValue (tok : Token) : Except Fault Due :=
  match tok.body with
  | .punct '[' => .ok (.firstItem tok.start)
  | .punct '\x7b' => .ok (.firstKey tok.start)
  | .punct _ => .error ⟨.expectedValue, tok.seen⟩
  | .null => .ok (.separator (.null tok.stop))
  | .bool b => .ok (.separator (.bool b tok.stop))
  | .number n => .ok (.separator (.number n tok.start tok.stop))
  | .string s => .ok (.separator (.string s tok.start tok.stop))
  | .bad fault => .error fault
  | .eof => .error ⟨.eofInValue, tok.seen⟩

/-- A token that is none of those that may stand here: the fault at the end of the text is `eof`,
any other is `otherwise`. -/
def unexpected (tok : Token) (eof otherwise : Cause) : Fault :=
  match tok.body with
  | .eof => ⟨eof, tok.seen⟩
  | _ => ⟨otherwise, tok.seen⟩

/-- Reads one token: what is due next among which open frames, or the tree if this is its end. -/
def Due.step (frames : List Frame) (due : Due) (tok : Token) : Document ⊕ List Frame × Due :=
  let value (frames : List Frame) : Document ⊕ List Frame × Due :=
    match Due.ofValue tok with
    | .ok due => .inr (frames, due)
    | .error fault => .inl (abandon fault (.broken tok.start fault) frames)
  let openList (start : Nat) (items : List Node) (fault : Fault) : Document ⊕ List Frame × Due :=
    .inl (abandon fault (.list start items.reverse (.broken fault)) frames)
  let openObject (start : Nat) (members : List (Key × Node)) (fault : Fault) :
      Document ⊕ List Frame × Due :=
    .inl (abandon fault (.object start members.reverse (.broken fault)) frames)
  match due with
  | .value => value frames
  | .firstItem start =>
    match tok.body with
    | .punct ']' => .inr (frames, .separator (.list start [] (.closed tok.stop)))
    | .eof => openList start [] ⟨.eofInList, tok.seen⟩
    | _ => value (.list start [] :: frames)
  | .nextItem start items =>
    match tok.body with
    | .punct ']' => openList start items ⟨.trailingComma, tok.seen⟩
    | .eof => openList start items ⟨.eofInValue, tok.seen⟩
    | _ => value (.list start items :: frames)
  | .firstKey start =>
    match tok.body with
    | .punct '\x7d' => .inr (frames, .separator (.object start [] (.closed tok.stop)))
    | .string name => .inr (frames, .colon start [] name)
    | _ => openObject start [] (unexpected tok .eofInObject .keyNotString)
  | .nextKey start members =>
    match tok.body with
    | .punct '\x7d' => openObject start members ⟨.trailingComma, tok.seen⟩
    | .string name => .inr (frames, .colon start members name)
    | _ => openObject start members (unexpected tok .eofInValue .keyNotString)
  | .colon start members name =>
    match tok.body with
    | .punct ':' => .inr (.object start members ⟨name, tok.start⟩ :: frames, .value)
    | .punct '\x7d' =>
      let fault : Fault := ⟨.expectedColon, tok.seen⟩
      openObject start ((⟨name, tok.stop⟩, .broken tok.start fault) :: members) fault
    | _ =>
      let fault := unexpected tok .eofInObject .expectedColon
      openObject start ((⟨name, tok.start⟩, .broken tok.start fault) :: members) fault
  | .separator done =>
    match frames with
    | [] =>
      match tok.body with
      | .eof => .inl ⟨done, none⟩
      | _ => .inl ⟨done, some ⟨.trailingCharacters, tok.seen⟩⟩
    | .list start items :: frames =>
      match tok.body with
      | .punct ',' => .inr (frames, .nextItem start (done :: items))
      | .punct ']' =>
        .inr (frames, .separator (.list start (done :: items).reverse (.closed tok.stop)))
      | _ =>
        let fault := unexpected tok .eofInList .expectedListEnd
        .inl (abandon fault (.list start (done :: items).reverse (.broken fault)) frames)
    | .object start members key :: frames =>
      match tok.body with
      | .punct ',' => .inr (frames, .nextKey start ((key, done) :: members))
      | .punct '\x7d' =>
        .inr (frames, .separator (.object start ((key, done) :: members).reverse (.closed tok.stop)))
      | _ =>
        let fault := unexpected tok .eofInObject .expectedObjectEnd
        .inl (abandon fault (.object start ((key, done) :: members).reverse (.broken fault)) frames)

/-- Reads the tokens of the rest of a text. -/
def Document.read (frames : List Frame) (due : Due) : List Token → Document
  | [] => abandon ⟨.eofInValue, 0⟩ (.broken 0 ⟨.eofInValue, 0⟩) frames
  | tok :: rest =>
    match due.step frames tok with
    | .inl d => d
    | .inr (frames, due) => read frames due rest

/-- The tree of a list of tokens. -/
def Document.ofTokens (ts : List Token) : Document := read [] .value ts

/-- The tree of a text. -/
def Document.ofText (t : Text) : Document := .ofTokens (tokens t)

/-- The fault that ends a list or an object. -/
def Ending.fault? : Ending → Option Fault
  | .closed _ => none
  | .broken fault => some fault

mutual

/-- The first fault of the text of a value; contents of strings are not looked at. -/
def Node.fault? : Node → Option Fault
  | .list _ items ending => faultInItems? items <|> ending.fault?
  | .object _ members ending => faultInMembers? members <|> ending.fault?
  | .broken _ fault => some fault
  | _ => none

/-- The first fault of the items of a list. -/
def faultInItems? : List Node → Option Fault
  | [] => none
  | node :: rest => node.fault? <|> faultInItems? rest

/-- The first fault of the values of members. -/
def faultInMembers? : List (Key × Node) → Option Fault
  | [] => none
  | (_, node) :: rest => node.fault? <|> faultInMembers? rest

end

end LineCensus.Json
