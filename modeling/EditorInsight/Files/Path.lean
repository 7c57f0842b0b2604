import EditorInsight.Text.Basic

/-!
# Paths

Three things are done with the text of a path. Joining keeps what it is given: doubled slashes and
dots stay. Tidying drops empty and `.` components but keeps `..`, whose meaning depends on the
disk. A canonical path is absolute and free of both, and names one place on a disk without links.
-/

namespace EditorInsight.Path

def isAbsolute (p : Text) : Bool := p.head? = some '/'

def pieces (p : Text) : List Text := Text.splitWhere (· == '/') p

/-- The pieces that name something: neither empty nor `.`. -/
def components (p : Text) : List Text := (pieces p).filter fun c => c ≠ [] && c ≠ ['.']

/-- One part put below a base; an absolute part takes the place of the base. -/
def append (base part : Text) : Text :=
  if isAbsolute part then part
  else if base = [] || base.getLast? = some '/' then base ++ part
  else base ++ '/' :: part

def join (base : Text) (parts : List Text) : Text := parts.foldl append base

/-- The slashes that a tidied path starts with: two only if there are exactly two. -/
def rootSlashes (p : Text) : Text :=
  match (p.takeWhile (· == '/')).length with
  | 0 => []
  | 2 => ['/', '/']
  | _ => ['/']

/-- Drops empty and `.` components; the empty path is `.`. -/
def tidy (p : Text) : Text :=
  match rootSlashes p ++ Text.join ['/'] (components p) with
  | [] => ['.']
  | t => t

/-- A tidied path below a tidied base. -/
def below (base part : Text) : Text := tidy (append base part)

/-- Follows one component without looking at a disk; `..` at the top stays there. -/
def follow (place : List Text) (component : Text) : List Text :=
  if component = ['.', '.'] then place.dropLast else place ++ [component]

/-- The place that a path names, seen from a current directory. -/
def place (current : List Text) (p : Text) : List Text :=
  (components p).foldl follow (if isAbsolute p then [] else current)

def ofPlace (place : List Text) : Text := '/' :: Text.join ['/'] place

inductive Fault where
  | embeddedNull
  deriving DecidableEq

def Fault.message : Fault → Text
  | .embeddedNull => "embedded null byte"

/-- The character that ends a path for a disk. -/
def hasNull (p : Text) : Bool := p.any (· == '\x00')

/-- The absolute path without `.`, `..` and doubled slashes. -/
def canonical (current : List Text) (p : Text) : Except Fault Text :=
  if hasNull p then .error .embeddedNull else .ok (ofPlace (place current p))

end EditorInsight.Path
