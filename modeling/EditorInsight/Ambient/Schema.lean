import EditorInsight.Ambient.Stub
import EditorInsight.Data.Value
import EditorInsight.Text.Identifier

/-!
# The schema of ambient objects

Documents run with objects that no library declares. The schema lists their root names and their
classes. A class has a key, the dotted expression after which its members are offered, and may have
nested classes and constructor parameters. All of these are text as a rule, but any value may stand
for a name or a kind; it is offered as it is and never looked up.
-/

namespace EditorInsight

structure Member where
  name : Value
  kind : Value
  stub : Text

structure AmbientClass where
  name : Value
  key : Value
  members : List Member := []
  nested : List Value := []
  initParameters : List Value := []

structure AmbientCompletion where
  label : Value
  kind : Value
  detail : Option Text

structure Schema where
  roots : List Value := []
  classes : List AmbientClass := []

/-- A constructor parameter that is no text. -/
structure ParameterFault where
  index : Nat
  typeName : Text
  deriving DecidableEq

def ParameterFault.message (f : ParameterFault) : Text :=
  "sequence item " ++ Text.ofNat f.index ++ ": expected str instance, " ++ f.typeName ++ " found"

def Member.detail? (m : Member) : Option Text :=
  match m.kind with
  | .text kind => Stub.detail? m.stub kind
  | _ => none

namespace AmbientClass

/-- What is offered after the key of the class: its members, then its nested classes. -/
def completions (c : AmbientClass) : List AmbientCompletion :=
  c.members.map (fun m => ⟨m.name, m.kind, m.detail?⟩) ++
    c.nested.map fun n => ⟨n, "class", some ("class " ++ n.display)⟩

/-- The constructor parameters from a given one on. -/
def parameterTexts (index : Nat) : List Value → Except ParameterFault (List Text)
  | [] => .ok []
  | .text t :: r => do return t :: (← parameterTexts (index + 1) r)
  | v :: _ => .error ⟨index, v.typeName⟩

def constructor? (c : AmbientClass) (name : Text) : Except ParameterFault (Option Text) := do
  if c.initParameters.isEmpty then return none
  let parameters ← parameterTexts 0 c.initParameters
  return some (name ++ ['('] ++ Text.join ", " parameters ++ [')'])

end AmbientClass

namespace Schema

/-- The classes by name; a later one replaces an earlier one of the same name. -/
def classesByName (s : Schema) : List (Value × AmbientClass) :=
  Value.distinctEntries (s.classes.map fun c => (c.name, c))

/-- The classes by key; a later one replaces an earlier one with the same key. -/
def classesByKey (s : Schema) : List (Value × AmbientClass) :=
  Value.distinctEntries (s.classes.map fun c => (c.key, c))

/-- What is offered after each key; a class that offers nothing has no part in it. -/
def completions (s : Schema) : List (Value × List AmbientCompletion) :=
  Value.distinctEntries
    ((s.classes.map fun c => (c.key, c.completions)).filter fun e => !e.2.isEmpty)

def isRoot (s : Schema) (name : Text) : Bool := s.roots.any (·.isText name)

def completionsFor? (s : Schema) (key : Text) : Option (List AmbientCompletion) :=
  Value.field? s.completions key

/-- The proper initial parts of a dotted name, longest first, as keys. -/
def keysOf (parts : List Text) : List Text :=
  ((List.range parts.length).drop 1).reverse.map fun i => Text.joinDotted (parts.take i)

/-- The detail of the first completion with that label and a detail to show. -/
def detailFor? (items : List AmbientCompletion) (member : Text) : Option Text :=
  items.findSome? fun i => if i.label.isText member then i.detail.filter (!·.isEmpty) else none

/-- The call signature of the first method of that name. -/
def methodSignature? (c : AmbientClass) (member : Text) : Option Text :=
  (c.members.find? fun m => m.name.isText member && m.kind.isText "method").map fun m =>
    Stub.callSignature m.stub

def constructor? (s : Schema) (name : Text) : Except ParameterFault (Option Text) :=
  match Value.field? s.classesByName name with
  | some c => c.constructor? name
  | none => .ok none

/-- The constructor of an exception nested in the class `exceptions`. -/
def nestedException? (s : Schema) (parts : List Text) : Option Text :=
  match parts with
  | [root, name] =>
    if root = "exceptions" &&
        (Value.field? s.classesByName "exceptions").any (·.nested.any (·.isText name)) then
      some (name ++ "()")
    else none
  | _ => none

/-- The last part of a dotted name as a member of the longest key that has it, by its detail or else by
its stub. -/
def memberSignature? (s : Schema) (parts : List Text) : Option Text :=
  let member := parts.getLastD []
  let keys := keysOf parts
  let completions := s.completions
  let classes := s.classesByKey
  let byDetail := fun key => (Value.field? completions key).bind (detailFor? · member)
  let byStub := fun key => (Value.field? classes key).bind (methodSignature? · member)
  (keys.findSome? byDetail).or (keys.findSome? byStub)

/-- The signature to show for a dotted expression: a constructor, a nested exception, then a member. -/
def signature? (s : Schema) (dotted : Text) : Except ParameterFault (Option Text) :=
  match Text.splitDotted dotted with
  | [] => .ok none
  | [name] => s.constructor? name
  | parts => .ok ((s.nestedException? parts).or (s.memberSignature? parts))

end Schema
end EditorInsight
