import EditorInsight.Data.Value
import EditorInsight.Numeric.Numeral
import EditorInsight.Text.Percent

/-!
# Reading JSON

A JSON text as a value. A number with a point or an exponent is a double, any other a whole number.
Of equal keys in an object the last value counts.
-/

namespace EditorInsight.Json

def isBlank (c : Char) : Bool := c == ' ' || c == '\t' || c == '\n' || c == '\r'

def expect? (c : Char) (t : Text) : Option Text :=
  match t.dropWhile isBlank with
  | d :: r => if d = c then some r else none
  | [] => none

def unit? (t : Text) : Option Nat :=
  let ds := t.take 4
  if ds.length = 4 then
    ds.foldlM (fun n c => (Text.hexDigit? c).map (n * 16 + ·)) 0
  else none

def letterEscape? : Char → Option Char
  | '"' => some '"'
  | '\\' => some '\\'
  | '/' => some '/'
  | 'b' => some '\x08'
  | 'f' => some '\x0c'
  | 'n' => some '\n'
  | 'r' => some '\r'
  | 't' => some '\t'
  | _ => none

/-- The character of an escape by code units, and what follows. A unit that stands for no character is
replaced. -/
def unitEscape? (t : Text) : Option (Char × Text) := do
  let high ← unit? t
  let rest := t.drop 4
  let single := Text.pointChar high
  match rest with
  | '\\' :: 'u' :: r =>
    match (unit? r).bind (Text.pairChar? high) with
    | some c => return (c, r.drop 4)
    | none => return (single, rest)
  | _ => return (single, rest)

/-- The characters up to the closing quote, and what follows it. -/
def string? : Nat → Text → Option (Text × Text)
  | n + 1, '\\' :: 'u' :: r => do
    let (c, r) ← unitEscape? r
    let (t, r) ← string? n r
    return (c :: t, r)
  | n + 1, '\\' :: e :: r => do
    let c ← letterEscape? e
    let (t, r) ← string? n r
    return (c :: t, r)
  | n + 1, c :: r =>
    if c = '"' then some ([], r)
    else do
      let (t, r) ← string? n r
      return (c :: t, r)
  | _, _ => none

def isNumberChar (c : Char) : Bool := c.isDigit || "+-.eE".toList.elem c

def number? (t : Text) : Option Value :=
  let digits := Numeral.unsigned t
  if digits.all Char.isDigit then
    (Numeral.natural? 10 digits).map fun n => .int (Numeral.withSign (Numeral.isNegative t) n)
  else (Numeral.decimal? digits).map fun x => .float (if Numeral.isNegative t then x.neg else x)

def words : List (String × Value) :=
  [("null", .null), ("true", .bool true), ("false", .bool false), ("NaN", .float .nan),
    ("Infinity", .float (.infinite false)), ("-Infinity", .float (.infinite true))]

def scalar? (t : Text) : Option (Value × Text) :=
  match words.find? fun w => w.1.toList.isPrefixOf t with
  | some w => some (w.2, t.drop w.1.length)
  | none => (number? (t.takeWhile isNumberChar)).map fun v => (v, t.dropWhile isNumberChar)

mutual

def value? : Nat → Text → Option (Value × Text)
  | 0, _ => none
  | n + 1, t =>
    match t.dropWhile isBlank with
    | '"' :: r => (string? r.length r).map fun (s, r) => (.text s, r)
    | '[' :: r =>
      match expect? ']' r with
      | some r => some (.list [], r)
      | none => (items? n r).map fun (vs, r) => (.list vs, r)
    | '\x7b' :: r =>
      match expect? '\x7d' r with
      | some r => some (.map [], r)
      | none => (members? n r).map fun (ms, r) => (.map (Value.distinctEntries ms), r)
    | r => scalar? r

def items? : Nat → Text → Option (List Value × Text)
  | 0, _ => none
  | n + 1, t => do
    let (v, r) ← value? n t
    match expect? ',' r with
    | some r =>
      let (vs, r) ← items? n r
      return (v :: vs, r)
    | none => return ([v], ← expect? ']' r)

def members? : Nat → Text → Option (List (Value × Value) × Text)
  | 0, _ => none
  | n + 1, t => do
    let r ← expect? '"' t
    let (key, r) ← string? r.length r
    let (v, r) ← value? n (← expect? ':' r)
    match expect? ',' r with
    | some r =>
      let (ms, r) ← members? n r
      return ((.text key, v) :: ms, r)
    | none => return ([(.text key, v)], ← expect? '\x7d' r)

end

def read? (t : Text) : Option Value := do
  let (v, r) ← value? (t.length + 1) t
  if r.all isBlank then some v else none

end EditorInsight.Json
