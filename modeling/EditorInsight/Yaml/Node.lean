import EditorInsight.Yaml.Scalar
import EditorInsight.Yaml.Token

/-!
# Nodes

The graph that a list of tokens describes: scalars, sequences and mappings, each with its tag and the
place where it starts. Nodes are numbered, and an alias stands for the number of the node that it
names, which may be one that the alias is inside of. A text holds at most one document.
-/

namespace EditorInsight.Yaml

/-- The number of a node in its document. -/
abbrev NodeId := Nat

inductive Content where
  | scalar (text : ScalarText)
  | sequence (items : List NodeId)
  | mapping (entries : List (NodeId × NodeId))

structure Node where
  mark : Mark
  tag : Text
  content : Content

/-- How complaints name the kind of a node. -/
def Content.word : Content → Text
  | scalar _ => "scalar"
  | sequence _ => "sequence"
  | mapping _ => "mapping"

/-- The node of a place where nothing is written. -/
def Node.missing (mark : Mark) : Node := ⟨mark, Tag.null, .scalar ⟨[], none⟩⟩

instance : Inhabited Node := ⟨.missing {}⟩

/-- A document: its nodes by number, and the one that it consists of. -/
structure Graph where
  nodes : Array Node
  root : NodeId

/-- The deepest that collections may be nested. -/
def maxDepth : Nat := 488

/-- What is known while tokens are read. -/
structure Reading where
  tokens : List Token
  /-- Why there are no more tokens. -/
  fault : Option Fault
  /-- What the tag handles stand for. -/
  handles : List (Text × Text) := []
  nodes : Array Node := #[]
  anchors : List (Text × NodeId) := []
  /-- The number of collections that are open. -/
  depth : Nat := 0

abbrev Read := StateT Reading (Except Fault)

namespace Read

/-- The next token, which is not taken. -/
def peek : Read Token := do
  let r ← get
  match r.tokens with
  | t :: _ => return t
  | [] => throw (r.fault.getD (.malformed { problem := [], mark := {} }))

def take : Read Unit := modify fun r => { r with tokens := r.tokens.tail }

def complain {α : Type} (context : Text) (start : Mark) (problem : Text) (mark : Mark) : Read α :=
  throw (.malformed ⟨some context, some start, problem, mark⟩)

def fail {α : Type} (problem : Text) (mark : Mark) : Read α :=
  throw (.malformed { problem, mark })

def add (node : Node) : Read NodeId := do
  let id := (← get).nodes.size
  modify fun r => { r with nodes := r.nodes.push node }
  return id

def missing (mark : Mark) : Read NodeId := add (.missing mark)

def markOf (id : NodeId) : Read Mark := return ((← get).nodes.getD id default).mark

/-- Gives a collection its content. -/
def complete (id : NodeId) (content : Content) : Read NodeId := do
  modify fun r => { r with
    nodes := r.nodes.setIfInBounds id { r.nodes.getD id default with content } }
  return id

/-- Reads what is inside a collection. -/
def inside {α : Type} (content : Read α) : Read α := do
  if maxDepth ≤ (← get).depth then throw .tooDeep
  modify fun r => { r with depth := r.depth + 1 }
  let a ← content
  modify fun r => { r with depth := r.depth - 1 }
  return a

/-- Whether the next token is of one of the kinds. -/
def isAt (kinds : List TokenKind) : Read Bool := return kinds.elem (← peek).kind

/-- The properties before a node: its anchor, its tag with the place of it, and where they start. -/
structure Properties where
  anchor : Option Text := none
  tag : Option (TagName × Mark) := none
  start : Option Mark := none

def anchor? : Read (Option Text) := do
  match (← peek).kind with
  | .anchor name =>
    take
    return some name
  | _ => return none

def tag? : Read (Option (TagName × Mark)) := do
  let t ← peek
  match t.kind with
  | .tag name =>
    take
    return some (name, t.mark)
  | _ => return none

/-- An anchor and a tag, each at most once and in either order. -/
def properties : Read Properties := do
  let start := (← peek).mark
  match ← anchor? with
  | some a => return ⟨some a, ← tag?, some start⟩
  | none =>
    match ← tag? with
    | some t => return ⟨← anchor?, some t, some start⟩
    | none => return {}

/-- The tag in full. -/
def fullTag (p : Properties) : Read (Option Text) := do
  match p.tag with
  | none => return none
  | some (⟨none, suffix⟩, _) => return some suffix
  | some (⟨some handle, suffix⟩, mark) =>
    match (← get).handles.lookup handle with
    | some expansion => return some (expansion ++ suffix)
    | none =>
      complain "while parsing a node" (p.start.getD mark)
        ("found undefined tag handle " ++ Text.quote handle) mark

/-- Refuses a second anchor of one name. -/
def checkAnchor (p : Properties) (start : Mark) : Read Unit := do
  match p.anchor with
  | none => return
  | some name =>
    match (← get).anchors.lookup name with
    | none => return
    | some first =>
      complain ("found duplicate anchor " ++ Text.quote name ++ "; first occurrence")
        (← markOf first) "second occurrence" start

/-- A new node that is known under its anchor. -/
def remember (p : Properties) (node : Node) : Read NodeId := do
  let id ← add node
  match p.anchor with
  | none => return id
  | some name =>
    modify fun r => { r with anchors := (name, id) :: r.anchors }
    return id

/-- The tag of a scalar: one that is written, or the one that its form shows if it is plain. -/
def scalarTag (tag : Option Text) (text : Text) (isPlain : Bool) : Text :=
  match tag with
  | none => if isPlain then implicitTag text else Tag.str
  | some t => if t = ['!'] then implicitTag text else t

/-- The tag of a collection: one that is written, or the given one. -/
def collectionTag (tag : Option Text) (usual : Text) : Text :=
  match tag with
  | none => usual
  | some t => if t = ['!'] then usual else t

mutual

/-- A node. A block node may also be an indented collection, and as the value of a mapping a sequence
without indentation of its own. -/
def node (block indentless : Bool) : Nat → Read NodeId
  | 0 => fail [] {}
  | n + 1 => do
    let first ← peek
    match first.kind with
    | .alias name =>
      take
      match (← get).anchors.lookup name with
      | some target => return target
      | none => fail ("found undefined alias " ++ Text.quote name) first.mark
    | _ =>
      let p ← properties
      let tag ← fullTag p
      let t ← peek
      let start := p.start.getD t.mark
      let sequence (skip : Bool) (items : Read (List NodeId)) : Read NodeId := do
        checkAnchor p start
        if skip then take
        let id ← remember p ⟨start, collectionTag tag Tag.seq, .sequence []⟩
        complete id (.sequence (← inside items))
      let mapping (entries : Read (List (NodeId × NodeId))) : Read NodeId := do
        checkAnchor p start
        take
        let id ← remember p ⟨start, collectionTag tag Tag.map, .mapping []⟩
        complete id (.mapping (← inside entries))
      match t.kind, indentless, block with
      | .blockEntry, true, _ => sequence false (indentlessItems n)
      | .scalar text isPlain, _, _ =>
        take
        checkAnchor p start
        remember p ⟨start, scalarTag tag text.text isPlain, .scalar text⟩
      | .flowSequenceStart, _, _ => sequence true (flowItems t.mark true n)
      | .flowMappingStart, _, _ => mapping (flowEntries t.mark true n)
      | .blockSequenceStart, _, true => sequence true (blockItems t.mark n)
      | .blockMappingStart, _, true => mapping (blockEntries t.mark n)
      | kind, _, _ =>
        if p.start.isSome then
          checkAnchor p start
          remember p ⟨start, scalarTag tag [] true, .scalar ⟨[], none⟩⟩
        else
          complain ("while parsing a " ++ (if block then "block" else "flow") ++ " node") start
            ("expected the node content, but found " ++ Text.quote kind.word) t.mark

/-- A node after the indicator at `mark`, or nothing if one of the kinds follows. -/
def nodeUnless (stops : List TokenKind) (mark : Mark) (block indentless : Bool) : Nat → Read NodeId
  | 0 => fail [] {}
  | n + 1 => do
    if ← isAt stops then missing mark.right
    else node block indentless n

/-- The value after a key, or nothing if there is no colon. -/
def valueUnless (stops : List TokenKind) (block indentless : Bool) : Nat → Read NodeId
  | 0 => fail [] {}
  | n + 1 => do
    let t ← peek
    if t.kind = .value then
      take
      nodeUnless stops t.mark block indentless n
    else missing t.mark

/-- The items of an indented sequence and its end. -/
def blockItems (opened : Mark) : Nat → Read (List NodeId)
  | 0 => return []
  | n + 1 => do
    let t ← peek
    match t.kind with
    | .blockEntry =>
      take
      let item ← nodeUnless [.blockEntry, .blockEnd] t.mark true false n
      return item :: (← blockItems opened n)
    | .blockEnd =>
      take
      return []
    | kind =>
      complain "while parsing a block collection" opened
        ("expected <block end>, but found " ++ Text.quote kind.word) t.mark

def indentlessItems : Nat → Read (List NodeId)
  | 0 => return []
  | n + 1 => do
    let t ← peek
    if t.kind = .blockEntry then
      take
      let item ← nodeUnless [.blockEntry, .key, .value, .blockEnd] t.mark true false n
      return item :: (← indentlessItems n)
    else return []

/-- The entries of an indented mapping and its end. -/
def blockEntries (opened : Mark) : Nat → Read (List (NodeId × NodeId))
  | 0 => return []
  | n + 1 => do
    let t ← peek
    match t.kind with
    | .key =>
      take
      let key ← nodeUnless [.key, .value, .blockEnd] t.mark true true n
      let value ← valueUnless [.key, .value, .blockEnd] true true n
      return (key, value) :: (← blockEntries opened n)
    | .blockEnd =>
      take
      return []
    | kind =>
      complain "while parsing a block mapping" opened
        ("expected <block end>, but found " ++ Text.quote kind.word) t.mark

/-- The items of a sequence in brackets and its end. A key makes a mapping of one entry. -/
def flowItems (opened : Mark) (isFirst : Bool) : Nat → Read (List NodeId)
  | 0 => return []
  | n + 1 => do
    if ← isAt [.flowSequenceEnd] then
      take
      return []
    if !isFirst then
      let t ← peek
      if t.kind = .flowEntry then take
      else
        complain "while parsing a flow sequence" opened
          ("expected ',' or ']', but got " ++ Text.quote t.kind.word) t.mark
    let t ← peek
    match t.kind with
    | .flowSequenceEnd =>
      take
      return []
    | .key =>
      take
      let id ← add ⟨t.mark, Tag.map, .mapping []⟩
      let entry ← inside do
        let key ← nodeUnless [.value, .flowEntry, .flowSequenceEnd] t.mark false false n
        return (key, ← valueUnless [.flowEntry, .flowSequenceEnd] false false n)
      let id ← complete id (.mapping [entry])
      return id :: (← flowItems opened false n)
    | _ =>
      let item ← node false false n
      return item :: (← flowItems opened false n)

/-- The entries of a mapping in braces and its end. An item without a colon is a key without value. -/
def flowEntries (opened : Mark) (isFirst : Bool) : Nat → Read (List (NodeId × NodeId))
  | 0 => return []
  | n + 1 => do
    if ← isAt [.flowMappingEnd] then
      take
      return []
    if !isFirst then
      let t ← peek
      if t.kind = .flowEntry then take
      else
        complain "while parsing a flow mapping" opened
          ("expected ',' or '\x7d', but got " ++ Text.quote t.kind.word) t.mark
    let t ← peek
    match t.kind with
    | .flowMappingEnd =>
      take
      return []
    | .key =>
      take
      let key ← nodeUnless [.value, .flowEntry, .flowMappingEnd] t.mark false false n
      let value ← valueUnless [.flowEntry, .flowMappingEnd] false false n
      return (key, value) :: (← flowEntries opened false n)
    | _ =>
      let key ← node false false n
      let value ← missing (← peek).mark
      return (key, value) :: (← flowEntries opened false n)

end

/-- What handles stand for without a directive. -/
def usualHandles : List (Text × Text) := [(['!'], ['!']), (['!', '!'], Tag.base)]

/-- The directives before a document; `version` says whether one has named the version. -/
def directives (hasVersion : Bool) : Nat → Read Unit
  | 0 => return
  | n + 1 => do
    let t ← peek
    match t.kind with
    | .directive d =>
      take
      match d with
      | .version major _ =>
        if hasVersion then fail "found duplicate YAML directive" t.mark
        if major ≠ 1 then
          fail "found incompatible YAML document (version 1.* is required)" t.mark
        directives true n
      | .tagHandle handle expansion =>
        if ((← get).handles.lookup handle).isSome then
          fail ("duplicate tag handle " ++ Text.quote handle) t.mark
        modify fun r => { r with handles := r.handles ++ [(handle, expansion)] }
        directives hasVersion n
      | .other => directives hasVersion n
    | _ => return

def skipDocumentEnds : Nat → Read Unit
  | 0 => return
  | n + 1 => do
    if ← isAt [.documentEnd] then
      take
      skipDocumentEnds n

/-- The start of a document, up to the line that marks it; nothing at the end of the text. -/
def documentStart? (n : Nat) : Read (Option Mark) := do
  skipDocumentEnds n
  let first ← peek
  if first.kind = .streamEnd then return none
  modify fun r => { r with handles := [] }
  directives false n
  let t ← peek
  if t.kind ≠ .documentStart then
    fail ("expected '<document start>', but found " ++ Text.quote t.kind.word) t.mark
  take
  modify fun r => { r with handles := r.handles ++ usualHandles }
  return some first.mark

def isDirective : TokenKind → Bool
  | .directive _ => true
  | _ => false

/-- The content of a document whose start is marked. -/
def documentContent (n : Nat) : Read NodeId := do
  let t ← peek
  if isDirective t.kind || [TokenKind.documentStart, .documentEnd, .streamEnd].elem t.kind then
    missing t.mark
  else node true false n

def root? (n : Nat) : Read (Option NodeId) := do
  let t ← peek
  if isDirective t.kind || [TokenKind.documentStart, .streamEnd].elem t.kind then
    match ← documentStart? n with
    | none => return none
    | some _ => return some (← documentContent n)
  else
    modify fun r => { r with handles := usualHandles }
    return some (← node true false n)

def document? (n : Nat) : Read (Option NodeId) := do
  match ← root? n with
  | none => return none
  | some root =>
    match ← documentStart? n with
    | none => return some root
    | some mark =>
      complain "expected a single document in the stream" (← markOf root) "but found another document"
        mark

end Read

/-- The bound on the steps of reading: each token is looked at a few times. -/
def readingFuel (tokens : List Token) : Nat := 4 * tokens.length + 8

/-- The graph that a text describes; there is none if it has no document. -/
def Graph.ofText? (t : Text) (wall : Option Fault) : Except Fault (Option Graph) := do
  let (ts, fault) := Yaml.tokens t wall
  let (root, r) ← (Read.document? (readingFuel ts)).run { tokens := ts, fault }
  return root.map fun id => ⟨r.nodes, id⟩

end EditorInsight.Yaml
