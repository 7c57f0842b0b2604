import EditorInsight.Data.Placement
import EditorInsight.Yaml.Node

/-!
# What nodes become

Each node of a graph becomes a value by its tag. A scalar does at once. A collection is first noted
and filled later, in the order in which collections are come upon, so that a collection may be a
part of itself. Before a mapping is filled, its merge keys are replaced by the entries that they
merge, which changes the mapping for good.
-/

namespace EditorInsight.Yaml

/-- What a node has become; the parts of a collection are given by their nodes. -/
inductive Shape where
  | scalar (v : Value)
  | list (items : List NodeId)
  | map (entries : List (Value × NodeId))
  | set (items : List Value)
  | pairs (entries : List (NodeId × NodeId))

structure Building where
  nodes : Array Node
  /-- What the nodes have become so far. -/
  shapes : Array (Option Shape)
  /-- The collections that are still to be filled, the first one first. -/
  pending : List NodeId := []

abbrev Build := StateT Building (Except Fault)

def fault (context : Option (Text × Mark)) (problem : Text) (mark : Mark) : Fault :=
  .malformed ⟨context.map Prod.fst, context.map Prod.snd, problem, mark⟩

def isScalarTag (tag : Text) : Bool :=
  [Tag.str, Tag.null, Tag.bool, Tag.int, Tag.float, Tag.timestamp, Tag.binary].elem tag

/-- The bytes written in base 64. -/
def binaryValue (mark : Mark) (text : ScalarText) : Except Fault Value :=
  match notAscii text.codes with
  | some m => .error (fault none ("failed to convert base64 data into ascii: " ++ m) mark)
  | none =>
    match base64 [] 0 0 text.text with
    | .ok bytes => .ok (.bytes bytes)
    | .error m => .error (fault none ("failed to decode base64 data: " ++ m) mark)

def textValue (t : ScalarText) : Value :=
  match t.points with
  | none => .text t.text
  | some codes => .points codes

/-- The value that a scalar tag gives to a text. -/
def scalarValue (tag : Text) (mark : Mark) (t : ScalarText) : Except Fault Value :=
  if tag = Tag.null then .ok .null
  else if tag = Tag.bool then (Value.bool <$> boolValue t.text).mapError .scalar
  else if tag = Tag.int then (Value.int <$> intValue t.codes).mapError .scalar
  else if tag = Tag.float then (floatValue mark.index t.codes).mapError .scalar
  else if tag = Tag.timestamp then (timestampValue t.text).mapError .scalar
  else if tag = Tag.binary then binaryValue mark t
  else .ok (textValue t)

def isCollectionTag (tag : Text) : Bool := [Tag.seq, Tag.map, Tag.set, Tag.omap, Tag.pairs].elem tag

namespace Build

def node (id : NodeId) : Build Node := return (← get).nodes.getD id default

def shape? (id : NodeId) : Build (Option Shape) := return (← get).shapes.getD id none

def setNode (id : NodeId) (x : Node) : Build Unit :=
  modify fun b => { b with nodes := b.nodes.setIfInBounds id x }

def setShape (id : NodeId) (s : Shape) : Build Unit :=
  modify fun b => { b with shapes := b.shapes.setIfInBounds id (some s) }

def entries (id : NodeId) : Build (List (NodeId × NodeId)) := do
  match (← node id).content with
  | .mapping es => return es
  | _ => return []

def setEntries (id : NodeId) (es : List (NodeId × NodeId)) : Build Unit := do
  setNode id { ← node id with content := .mapping es }

/-- A bound on walks that visit no entry twice. -/
def fuel : Build Nat := do
  let b ← get
  return b.nodes.foldl (fun n x => n + match x.content with
    | .mapping es => es.length + 2
    | _ => 2) 8

/-- The text of a node that stands for a scalar: in a mapping, that of its entry under `=`. A mapping
that leads back to itself has no end. -/
def scalarText (id : NodeId) : Nat → Build ScalarText
  | 0 => throw .tooDeep
  | n + 1 => do
    let x ← node id
    match x.content with
    | .scalar t => return t
    | .sequence _ => throw (fault none "expected a scalar node, but found sequence" x.mark)
    | .mapping es =>
      match ← es.findM? fun e => return (← node e.1).tag = Tag.value with
      | some e => scalarText e.2 n
      | none => throw (fault none "expected a scalar node, but found mapping" x.mark)

/-- Turns a node into what it becomes, if that has not been done; a collection is noted. -/
def start (id : NodeId) : Build Unit := do
  if (← shape? id).isSome then return
  let x ← node id
  if isCollectionTag x.tag then
    setShape id (if x.tag = Tag.map then .map [] else if x.tag = Tag.set then .set [] else .list [])
    modify fun b => { b with pending := b.pending ++ [id] }
  else if isScalarTag x.tag then
    let t ← scalarText id (← fuel)
    match x.content with
    | .scalar _ => pure ()
    | _ => if x.tag = Tag.timestamp then throw (.scalar .notText)
    setShape id (.scalar (← scalarValue x.tag x.mark t))
  else
    throw (fault none ("could not determine a constructor for the tag " ++ Text.quote x.tag) x.mark)

mutual

/-- Replaces the merge keys of a mapping from a position on, giving the entries that they merge. -/
def merged (id : NodeId) (index : Nat) : Nat → Build (List (NodeId × NodeId))
  | 0 => return []
  | n + 1 => do
    let es ← entries id
    match es[index]? with
    | none => return []
    | some (k, v) =>
      let key ← node k
      if key.tag = Tag.merge then
        setEntries id (es.eraseIdx index)
        let x ← node v
        let mark := (← node id).mark
        let complain (problem : Text) (found : Node) : Build (List (NodeId × NodeId)) :=
          throw (fault (some ("while constructing a mapping", mark))
            (problem ++ found.content.word) found.mark)
        let more ← match x.content with
          | .mapping _ => do
            flatten v n
            entries v
          | .sequence items => do
            let lists ← items.mapM fun item => do
              let y ← node item
              match y.content with
              | .mapping _ => do
                flatten item n
                entries item
              | _ => complain "expected a mapping for merging, but found " y
            pure lists.reverse.flatten
          | .scalar _ => complain "expected a mapping or list of mappings for merging, but found " x
        return more ++ (← merged id index n)
      else
        if key.tag = Tag.value then setNode k { key with tag := Tag.str }
        merged id (index + 1) n

/-- Puts what the merge keys of a mapping merge before its own entries. -/
def flatten (id : NodeId) : Nat → Build Unit
  | 0 => return
  | n + 1 => do
    let more ← merged id 0 n
    if !more.isEmpty then setEntries id (more ++ (← entries id))

end

/-- The entries of a mapping with their keys. Of equal keys the last value counts. -/
def keyed (id : NodeId) (x : Node) : Build (List (Value × NodeId)) := do
  match x.content with
  | .mapping _ =>
    -- An entry is walked past again only after a merge key is gone.
    let n ← fuel
    flatten id (n * n)
    let es ← (← entries id).mapM fun (k, v) => do
      start k
      match ← shape? k with
      | some (.scalar key) =>
        start v
        return (key, v)
      | _ => throw (fault (some ("while constructing a mapping", x.mark)) "found unhashable key"
          (← node k).mark)
    return Value.distinctEntries es
  | c => throw (fault none ("expected a mapping node, but found " ++ c.word) x.mark)

/-- The entries of a sequence of mappings with one entry each. -/
def singles (what : Text) (x : Node) : Build (List (NodeId × NodeId)) := do
  let context := some ("while constructing " ++ what, x.mark)
  match x.content with
  | .sequence items => items.mapM fun item => do
    let y ← node item
    match y.content with
    | .mapping [(k, v)] =>
      start k
      start v
      return (k, v)
    | .mapping es => throw (fault context
        ("expected a single mapping item, but found " ++ Text.ofNat es.length ++ " items") y.mark)
    | c => throw (fault context ("expected a mapping of length 1, but found " ++ c.word) y.mark)
  | c => throw (fault context ("expected a sequence, but found " ++ c.word) x.mark)

def fill (id : NodeId) : Build Unit := do
  let x ← node id
  if x.tag = Tag.seq then
    match x.content with
    | .sequence items =>
      items.forM start
      setShape id (.list items)
    | c => throw (fault none ("expected a sequence node, but found " ++ c.word) x.mark)
  else if x.tag = Tag.map then setShape id (.map (← keyed id x))
  else if x.tag = Tag.set then setShape id (.set (Placement.order ((← keyed id x).map Prod.fst)))
  else if x.tag = Tag.omap then setShape id (.pairs (← singles "an ordered map" x))
  else setShape id (.pairs (← singles "pairs" x))

/-- Fills the collections that are noted, and those noted meanwhile. -/
def fillAll : Nat → Build Unit
  | 0 => return
  | n + 1 => do
    match (← get).pending with
    | [] => return
    | id :: r =>
      modify fun b => { b with pending := r }
      fill id
      fillAll n

end Build

/-- What the nodes of a graph become. -/
def Graph.shapes (g : Graph) : Except Fault (Array (Option Shape)) := do
  let build : Build Unit := do
    Build.start g.root
    Build.fillAll g.nodes.size
  let (_, b) ← build.run { nodes := g.nodes, shapes := g.nodes.map fun _ => none }
  return b.shapes

end EditorInsight.Yaml
