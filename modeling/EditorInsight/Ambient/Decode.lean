import EditorInsight.Ambient.Schema
import EditorInsight.Data.Value

/-!
# Schemas from plain data

Reads a schema from a mapping with `roots` and `classes`. All fields are read first, class by class;
after that come the names, by which classes must be looked up, then the stubs of methods and
properties, which must be text, and the keys.
-/

namespace EditorInsight

/-- Why plain data is no schema. -/
inductive SchemaFault where
  | notAMapping (found : Value)
  | missingField (name : String)
  | classNotAMapping
  | notAList
  | memberNotAMapping
  /-- A name or a key that cannot be looked up by. -/
  | notAKey
  | methodStubNotText
  | propertyStubNotText

def SchemaFault.message : SchemaFault → Text
  | notAMapping found =>
    "Runtime schema must be a mapping, got <class '" ++ found.typeName.toList ++ "'>"
  | missingField name => Text.quote name
  | _ => []

namespace Schema

structure RawMember where
  name : Value
  kind : Value
  stub : Value

structure RawClass where
  name : Value
  key : Value
  members : List RawMember
  nested : List Value
  initParameters : List Value

/-- The items of a list, none for an absent or trivial value. Text gives its characters and a mapping its
keys. -/
def items : Option Value → Except SchemaFault (List Value)
  | none => .ok []
  | some v =>
    if v.isTrivial then .ok []
    else match v with
      | .list vs => .ok vs
      | .text t => .ok (t.map fun c => .text [c])
      | .map entries => .ok (entries.map Prod.fst)
      | _ => .error .notAList

def requiredField (entries : List (Value × Value)) (name : String) : Except SchemaFault Value :=
  match Value.field? entries name with
  | some v => .ok v
  | none => .error (.missingField name)

def rawMember : Value → Except SchemaFault RawMember
  | .map entries => do
    return ⟨← requiredField entries "name", ← requiredField entries "kind",
      ← requiredField entries "signature"⟩
  | _ => .error .memberNotAMapping

def nestedName : Value → Except SchemaFault Value
  | .map entries => requiredField entries "name"
  | _ => .error .memberNotAMapping

def rawClass : Value → Except SchemaFault RawClass
  | .map entries => do
    let members ← (← items (Value.field? entries "members")).mapM rawMember
    let nested ← (← items (Value.field? entries "nested_classes")).mapM nestedName
    let name ← requiredField entries "name"
    let key := (Value.field? entries "completion_key").getD name
    return ⟨name, key, members, nested, ← items (Value.field? entries "init_params")⟩
  | _ => .error .classNotAMapping

/-- Refuses a value that nothing can be looked up by. -/
def checkKey (v : Value) : Except SchemaFault Unit :=
  if v.isHashable then .ok () else .error .notAKey

/-- The member with its stub, which only methods and properties look at. -/
def member (m : RawMember) : Except SchemaFault Member :=
  match m.stub with
  | .text t => .ok ⟨m.name, m.kind, t⟩
  | _ =>
    if m.kind.isText "method" then .error .methodStubNotText
    else if m.kind.isText "property" then .error .propertyStubNotText
    else .ok ⟨m.name, m.kind, []⟩

/-- The class with its members. One that offers something needs a key. -/
def ambientClass (c : RawClass) : Except SchemaFault AmbientClass := do
  let result : AmbientClass := ⟨c.name, c.key, ← c.members.mapM member, c.nested, c.initParameters⟩
  if !result.completions.isEmpty then checkKey c.key
  return result

def ofValue (v : Value) : Except SchemaFault Schema :=
  match v with
  | .map entries => do
    let raws ← (← items (Value.field? entries "classes")).mapM rawClass
    let roots ← items (Value.field? entries "roots")
    raws.forM fun c => checkKey c.name
    let classes ← raws.mapM ambientClass
    classes.forM fun c => checkKey c.key
    return ⟨roots, classes⟩
  | v => .error (.notAMapping v)

end Schema
end EditorInsight
