import EditorInsight.Data.Value

/-!
# JSON

The JSON text of a value, in ASCII: other characters are written as escapes, those beyond the basic
plane as a pair. A blank follows each comma and colon.
-/

namespace EditorInsight.Json

def unitEscape (n : Nat) : Text := "\\u" ++ Text.hex 4 n

def charText (c : Char) : Text :=
  let n := c.val.toNat
  if c = '"' then "\\\""
  else if c = '\\' then "\\\\"
  else if c = '\n' then "\\n"
  else if c = '\r' then "\\r"
  else if c = '\t' then "\\t"
  else if c = '\x0c' then "\\f"
  else if c = '\x08' then "\\b"
  else if 0x20 ≤ n && n < 0x7f then [c]
  else if n < 0x10000 then unitEscape n
  else unitEscape (0xd800 + (n - 0x10000) / 0x400) ++ unitEscape (0xdc00 + (n - 0x10000) % 0x400)

def textText (t : Text) : Text := '"' :: t.flatMap charText ++ ['"']

def floatText : Double → Text
  | .nan => "NaN"
  | .infinite false => "Infinity"
  | .infinite true => "-Infinity"
  | x => x.text

/-- The text of a scalar; values that JSON lacks are shown as text. -/
def scalarText : Value → Text
  | .null => "null"
  | .bool b => if b then "true" else "false"
  | .int n => Text.ofInt n
  | .float x => floatText x
  | v => textText v.display

/-- A key is always a text. -/
def keyText : Value → Text
  | .text t => textText t
  | v => textText (scalarText v)

mutual

def render : Value → Text
  | .list items => "[" ++ Text.join ", " (renderAll items) ++ "]"
  | .map entries => "\x7b" ++ Text.join ", " (renderEntries entries) ++ "\x7d"
  | v => scalarText v

def renderAll : List Value → List Text
  | [] => []
  | v :: r => render v :: renderAll r

def renderEntries : List (Value × Value) → List Text
  | [] => []
  | (k, v) :: r => (keyText k ++ ": " ++ render v) :: renderEntries r

end

end EditorInsight.Json
