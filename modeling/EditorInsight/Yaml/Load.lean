import EditorInsight.Yaml.Build
import EditorInsight.Yaml.Source

/-!
# Values of YAML texts

The value of a document is unfolded from its root. A collection that is met inside itself is cut off
there, so what a value shows depends on where the unfolding starts. A collection is unfolded again
only where it would be cut off in other places. Sets of nodes are numbers, read bit by bit.
-/

namespace EditorInsight.Yaml

/-- The set of one node. -/
def single (id : NodeId) : Nat := 1 <<< id

/-- What a node unfolds to. -/
structure Unfolded where
  value : Value
  /-- The nodes around it at which something in it was cut off. -/
  cuts : Nat := 0
  /-- The collections that it consists of, itself included. -/
  inside : Nat := 0

/-- Whether the same would come out inside the nodes of `path`: those cut off are there, and none of those
that were unfolded. -/
def Unfolded.fits (u : Unfolded) (path : Nat) : Bool :=
  u.cuts &&& path == u.cuts && u.inside &&& path == 0

/-- A collection with the given value and parts. -/
def Unfolded.collection (id : NodeId) (value : Value) (parts : List Unfolded) : Unfolded :=
  let cuts := parts.foldl (fun s p => s ||| p.cuts) 0
  { value, cuts := cuts &&& (cuts ^^^ single id),
    inside := parts.foldl (fun s p => s ||| p.inside) (single id) }

/-- What the nodes have unfolded to most recently. -/
abbrev Unfold := StateM (Array (Option Unfolded))

/-- What a shape shows where it is met inside itself. -/
def Shape.cut : Shape → Value
  | map _ => .loop false
  | _ => .loop true

/-- Unfolds a node inside the nodes of `path`. -/
def unfold (shapes : Array (Option Shape)) (path : Nat) : Nat → NodeId → Unfold Unfolded
  | 0, _ => return ⟨.null, 0, 0⟩
  | n + 1, id => do
    let inner := unfold shapes (path ||| single id) n
    match shapes.getD id none with
    | none => return { value := .null }
    | some (.scalar v) => return { value := v }
    | some shape =>
      if path.testBit id then return { value := shape.cut, cuts := single id }
      if let some u := (← get).getD id none then
        if u.fits path then return u
      let u ← match shape with
        | .scalar v => pure { value := v }
        | .set items => pure (.collection id (.set items) [])
        | .list items => do
          let us ← items.mapM inner
          pure (.collection id (.list (us.map (·.value))) us)
        | .map entries => do
          let us ← entries.mapM fun e => inner e.2
          let values := (entries.zip us).map fun (e, u) => (e.1, u.value)
          pure (.collection id (.map values) us)
        | .pairs entries => do
          let us ← entries.mapM fun e => do return (← inner e.1, ← inner e.2)
          let values := us.map fun (k, v) => Value.pair k.value v.value
          pure (.collection id (.list values) (us.flatMap fun (k, v) => [k, v]))
      modify (·.setIfInBounds id (some u))
      return u

def Graph.value (g : Graph) : Except Fault Value := do
  let shapes ← g.shapes
  let (u, _) := (unfold shapes 0 (g.nodes.size + 1) g.root).run (shapes.map fun _ => none)
  return u.value

/-- The value of a text with at most one document; the null value if it has none. -/
def load (s : Source) : Except Fault Value := do
  match s.text, s.wall with
  | [], some f => throw f
  | _, _ =>
    match ← Graph.ofText? s.text s.wall with
    | none => return .null
    | some g => g.value

end EditorInsight.Yaml
