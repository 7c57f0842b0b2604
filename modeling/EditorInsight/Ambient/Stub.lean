import EditorInsight.Text.Blank
import EditorInsight.Text.Word

/-!
# Stubs of ambient members

The members of ambient objects are described by stubs such as `def name(self, a: int) -> str: ...` for a
method and `name: T` for a property. A stub is shown in two ways: as the detail of a completion,
and as a call signature with `self` removed.
-/

namespace EditorInsight.Stub

/-- Drops `self`, blanks, one comma and blanks at the start of a parameter list. -/
def dropSelf (t : Text) : Text :=
  match Text.after? "self" t with
  | none => t
  | some r =>
    match Text.trimLeft r with
    | ',' :: r' => Text.trimLeft r'
    | r' => r'

def restOfLine (t : Text) : Text := t.takeWhile (· != '\n')

/-- An arrow with what follows it up to the next colon, if anything does. -/
def arrow? (t : Text) : Option Text :=
  match Text.after? "->" t with
  | none => none
  | some r =>
    match r.takeWhile (· != ':') with
    | [] => none
    | a => some ("->" ++ a)

/-- Reads `def name(parameters) [-> result]` at the start of a text; the parameters run to the last closing
parenthesis of their line. -/
def methodDetailAt? (t : Text) : Option Text :=
  match (Text.after? "def" t).bind Text.skipBlanks1? with
  | none => none
  | some r =>
    let name := r.takeWhile Text.isWordChar
    match name, Text.trimLeft (r.dropWhile Text.isWordChar) with
    | _ :: _, '(' :: inside =>
      let inside := dropSelf inside
      match Text.beforeLast? ')' (restOfLine inside) with
      | none => none
      | some parameters =>
        let detail := name ++ ['('] ++ Text.trim parameters ++ [')']
        match arrow? (Text.trimLeft (inside.drop (parameters.length + 1))) with
        | some result => some (detail ++ [' '] ++ Text.trim result)
        | none => some detail
    | _, _ => none

/-- The first definition in the text that can be read, as a completion shows it. -/
def methodDetail? : Text → Option Text
  | [] => none
  | c :: r =>
    match methodDetailAt? (c :: r) with
    | some d => some d
    | none => methodDetail? r

/-- The type of a property stub, which must stand on one line. -/
def propertyDetail? (stub : Text) : Option Text :=
  let t := Text.trim stub
  match t.takeWhile Text.isWordChar, Text.trimLeft (t.dropWhile Text.isWordChar) with
  | _ :: _, ':' :: r =>
    match Text.trimLeft r with
    | [] => none
    | u => if u.any (· == '\n') then none else some (Text.trim u)
  | _, _ => none

def detail? (stub kind : Text) : Option Text :=
  if kind = "method" then methodDetail? stub
  else if kind = "property" then propertyDetail? stub
  else none

/-- The text after `(self`, blanks and a comma, further blanks dropped. -/
def afterSelfComma? (t : Text) : Option Text :=
  match (Text.after? "(self" t).map Text.trimLeft with
  | some (',' :: r) => some (Text.trimLeft r)
  | _ => none

/-- The text after `(self`, blanks and a closing parenthesis. -/
def afterSelfClose? (t : Text) : Option Text :=
  match (Text.after? "(self" t).map Text.trimLeft with
  | some (')' :: r) => some r
  | _ => none

/-- Puts `replacement` for every passage that `passage?` recognises, from left to right; `skip`
characters belong to a passage already replaced. -/
def replaceAll (passage? : Text → Option Text) (replacement : Text) (skip : Nat) : Text → Text
  | [] => []
  | c :: r =>
    match skip with
    | k + 1 => replaceAll passage? replacement k r
    | 0 =>
      match passage? (c :: r) with
      | some rest => replacement ++ replaceAll passage? replacement (r.length - rest.length) r
      | none => c :: replaceAll passage? replacement 0 r

/-- The text without a colon and three dots at its end, blanks around them included. -/
def dropEllipsis (t : Text) : Text :=
  match t.reverse.dropWhile Text.isBlank with
  | '.' :: '.' :: '.' :: r =>
    match r.dropWhile Text.isBlank with
    | ':' :: r' => (r'.dropWhile Text.isBlank).reverse
    | _ => t
  | _ => t

/-- The stub of a method as a call signature, without `def`, `self` and the empty body. -/
def callSignature (stub : Text) : Text :=
  let t := Text.trim stub
  let t := (Text.after? "def " t).getD t
  let t := replaceAll afterSelfComma? "(" 0 t
  let t := replaceAll afterSelfClose? "()" 0 t
  dropEllipsis t

end EditorInsight.Stub
