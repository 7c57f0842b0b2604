import EditorInsight.Text.Basic
import EditorInsight.Text.Quoted

/-!
# What can be wrong with a YAML text

A complaint says what is wrong, where, and often what was being read and where that began. Bytes
that are no text, and characters that no text may hold, are reported when they are come upon. Some
scalars have the form of a number or a date without being one; reading those fails in ways of their
own.
-/

namespace EditorInsight.Yaml

/-- A position in a text; lines and columns count from zero. -/
structure Mark where
  line : Nat := 0
  column : Nat := 0
  index : Nat := 0
  deriving DecidableEq

structure Complaint where
  /-- What was being read. -/
  context : Option Text := none
  /-- Where that began. -/
  contextMark : Option Mark := none
  problem : Text
  mark : Mark
  deriving DecidableEq

/-- Why a scalar has no value although its tag asks for one. -/
inductive ScalarFault where
  | badValue (message : Text)
  | unknownWord
  | noPattern
  | emptyNumber
  /-- A number is beyond what it has to fit into. -/
  | tooLarge
  /-- A collection stands where the form of a text is looked at. -/
  | notText
  deriving DecidableEq

inductive Fault where
  | unprintable (c : Char) (index : Nat)
  /-- The bytes are not UTF-8. -/
  | undecodable
  /-- Collections are nested beyond the limit. -/
  | tooDeep
  | malformed (complaint : Complaint)
  | scalar (fault : ScalarFault)
  deriving DecidableEq

def Mark.text (name : Text) (m : Mark) : Text :=
  "  in \"" ++ name ++ "\", line " ++ Text.ofNat (m.line + 1) ++ ", column " ++
    Text.ofNat (m.column + 1)

/-- The position of the next column. -/
def Mark.right (m : Mark) : Mark := { m with column := m.column + 1, index := m.index + 1 }

/-- The lines of a complaint about the named text. The place where the context began is left out if
it is the place of the problem. -/
def Complaint.text (name : Text) (c : Complaint) : Text :=
  let place : List Text := match c.contextMark with
    | some m => if m.line = c.mark.line && m.column = c.mark.column then [] else [m.text name]
    | none => []
  Text.join ['\n'] (c.context.toList ++ place ++ [c.problem, c.mark.text name])

/-- At least four hexadecimal digits. -/
def codeText (c : Char) : Text := Text.hex 4 c.val.toNat

def unprintableText (name : Text) (c : Char) (index : Nat) : Text :=
  "unacceptable character #x" ++ codeText c ++ ": special characters are not allowed\n  in \"" ++
    name ++ "\", position " ++ Text.ofNat index

end EditorInsight.Yaml
