import LineCensus.Yaml.Token

/-!
# YAML trees

`Node.ofText` reads a text that holds at most one document. A missing value is a plain scalar
without characters; a text without a document is `none`.

Reading a node takes the tokens in front and leaves the others (`Reader`). At most three calls in a
row take no token, which bounds the depth of calls.
-/

namespace LineCensus.Yaml

/-- A value. -/
inductive Node where
  | scalar (text : Text) (isPlain : Bool)
  | list (items : List Node)
  | map (members : List (Node × Node))

namespace Node

/-- The missing value. -/
def missing : Node := scalar [] true

/-- Reads from the front of a list of tokens. -/
abbrev Reader := StateT (List Token) (Except Fault)

/-- The next token is one of these. -/
def nextIs (p : Token → Bool) : Reader Bool := return (← get).head?.any p

/-- Passes the next token. -/
def pass : Reader Unit := modify List.tail

/-- The value that `r` reads; it is missing if one of these tokens comes next. -/
def unlessNext (stops : List Token) (r : Reader Node) : Reader Node := do
  if ← nextIs (stops.contains ·) then return missing else r

/-- The value behind a colon; it is missing if there is no colon. -/
def behindColon (stops : List Token) (r : Reader Node) : Reader Node := do
  if ← nextIs (· == .value) then
    pass
    unlessNext stops r
  else return missing

mutual

/-- Reads a node. Block collections may begin here if `block`; `loose` admits a list that is not
indented further than the key before it. -/
def read (block loose : Bool) : Nat → Reader Node
  | 0 => throw .tooDeep
  | fuel + 1 => do
    match (← get).head? with
    | some .entry => if loose then return list (← readLooseItems fuel) else throw .expectedNode
    | some (.scalar text isPlain) =>
      pass
      return scalar text isPlain
    | some .flowListStart =>
      pass
      return list (← readFlowItems true fuel)
    | some .flowMapStart =>
      pass
      return map (← readFlowMembers true fuel)
    | some .listStart =>
      if ¬ block then throw .expectedNode
      pass
      return list (← readItems fuel)
    | some .mapStart =>
      if ¬ block then throw .expectedNode
      pass
      return map (← readMembers fuel)
    | _ => throw .expectedNode

/-- Reads the items of a block list. -/
def readItems : Nat → Reader (List Node)
  | 0 => throw .tooDeep
  | fuel + 1 => do
    match (← get).head? with
    | some .entry =>
      pass
      let x ← unlessNext [.entry, .blockEnd] (read true false fuel)
      return x :: (← readItems fuel)
    | some .blockEnd =>
      pass
      return []
    | _ => throw .expectedItem

/-- Reads the items of a list that is not indented. -/
def readLooseItems : Nat → Reader (List Node)
  | 0 => throw .tooDeep
  | fuel + 1 => do
    if ← nextIs (· == .entry) then
      pass
      let x ← unlessNext [.entry, .key, .value, .blockEnd] (read true false fuel)
      return x :: (← readLooseItems fuel)
    else return []

/-- Reads the members of a block map. -/
def readMembers : Nat → Reader (List (Node × Node))
  | 0 => throw .tooDeep
  | fuel + 1 => do
    match (← get).head? with
    | some .key =>
      pass
      let k ← unlessNext [.key, .value, .blockEnd] (read true true fuel)
      let v ← behindColon [.key, .value, .blockEnd] (read true true fuel)
      return (k, v) :: (← readMembers fuel)
    | some .blockEnd =>
      pass
      return []
    | _ => throw .expectedKey

/-- Reads the items of a flow list; an item may be a single member of a map. -/
def readFlowItems (isFirst : Bool) : Nat → Reader (List Node)
  | 0 => throw .tooDeep
  | fuel + 1 => do
    if ¬ isFirst ∧ ¬ (← nextIs (· == .flowListEnd)) then
      if ← nextIs (· == .flowEntry) then pass else throw .expectedListEnd
    match (← get).head? with
    | some .flowListEnd =>
      pass
      return []
    | some .key =>
      pass
      let k ← unlessNext [.value, .flowEntry, .flowListEnd] (read false false fuel)
      let v ← behindColon [.flowEntry, .flowListEnd] (read false false fuel)
      return map [(k, v)] :: (← readFlowItems false fuel)
    | _ =>
      let x ← read false false fuel
      return x :: (← readFlowItems false fuel)

/-- Reads the members of a flow map; a key may stand without a value. -/
def readFlowMembers (isFirst : Bool) : Nat → Reader (List (Node × Node))
  | 0 => throw .tooDeep
  | fuel + 1 => do
    if ¬ isFirst ∧ ¬ (← nextIs (· == .flowMapEnd)) then
      if ← nextIs (· == .flowEntry) then pass else throw .expectedMapEnd
    match (← get).head? with
    | some .flowMapEnd =>
      pass
      return []
    | some .key =>
      pass
      let k ← unlessNext [.value, .flowEntry, .flowMapEnd] (read false false fuel)
      let v ← behindColon [.flowEntry, .flowMapEnd] (read false false fuel)
      return (k, v) :: (← readFlowMembers false fuel)
    | _ =>
      let k ← read false false fuel
      return (k, missing) :: (← readFlowMembers false fuel)

end

/-- Reads the document at the front, if there is one, up to its end marker. -/
def readDocument (fuel : Nat) : Reader (Option Node) := do
  match (← get).head? with
  | none => return none
  | some .documentStart =>
    pass
    if (← get) = [] then return some missing
    return some (← unlessNext [.documentStart, .documentEnd] (read true false fuel))
  | _ => return some (← read true false fuel)

/-- The value of a list of tokens. -/
def ofTokens? (ts : List Token) : Except Fault (Option Node) := do
  let (root, rest) ← (readDocument (4 * ts.length + 8)).run ts
  match rest.dropWhile (· = .documentEnd) with
  | [] => return root
  | .documentStart :: _ => throw .severalDocuments
  | _ => throw .expectedDocument

/-- The value of a text. -/
def ofText? (t : Text) : Except Fault (Option Node) := do ofTokens? (← tokens t)

end Node

end LineCensus.Yaml
