import EditorInsight.Numeric.Numeral
import EditorInsight.Numeric.Quantity
import EditorInsight.Numeric.Shortest
import EditorInsight.Text.CodePoints

/-!
# Plain data

Values read from a settings file or handed in by a caller: the scalars, lists and mappings of a data
format, with the dates, byte strings, sets and pairs that YAML adds. Two texts of a value are
defined: `literal` quotes text, and `display` is the same but for text itself, which is shown bare.
-/

namespace EditorInsight

structure Date where
  year : Nat
  month : Nat
  day : Nat
  deriving DecidableEq

/-- A date with a time of day and, if known, the offset from universal time in minutes. -/
structure Timestamp where
  date : Date
  hour : Nat
  minute : Nat
  second : Nat
  microsecond : Nat
  offset : Option Int
  deriving DecidableEq

inductive Value where
  | null
  | bool (b : Bool)
  | int (n : Int)
  | float (x : Double)
  /-- A number that is not a number, read at the given place; it equals nothing but itself. -/
  | unequal (place : Nat)
  | text (t : Text)
  /-- A text with code points that are no characters. -/
  | points (codes : List Nat)
  | bytes (bs : List UInt8)
  | date (d : Date)
  | timestamp (d : Timestamp)
  | list (items : List Value)
  | map (entries : List (Value × Value))
  | set (items : List Value)
  | pair (key value : Value)
  /-- A list or mapping that contains itself, seen again inside itself. -/
  | loop (isList : Bool)

namespace Value

instance : Inhabited Value := ⟨null⟩

instance : Coe Text Value := ⟨text⟩

instance : Coe String Value := ⟨fun s => text s.toList⟩

def isText (t : Text) : Value → Bool
  | text u => u = t
  | _ => false

/-- The name of the type of a value, as messages give it. -/
def typeName : Value → String
  | null => "NoneType"
  | bool _ => "bool"
  | int _ => "int"
  | float _ => "float"
  | unequal _ => "float"
  | text _ => "str"
  | points _ => "str"
  | bytes _ => "bytes"
  | date _ => "datetime.date"
  | timestamp _ => "datetime.datetime"
  | list _ => "list"
  | map _ => "dict"
  | set _ => "set"
  | pair _ _ => "tuple"
  | loop isList => if isList then "list" else "dict"

/-- Whether the value counts as absent where a default may stand in for it. -/
def isTrivial : Value → Bool
  | null => true
  | bool b => !b
  | int n => n == 0
  | float x => x.toRat? == some 0
  | text t => t.isEmpty
  | bytes bs => bs.isEmpty
  | list items => items.isEmpty
  | map entries => entries.isEmpty
  | set items => items.isEmpty
  | _ => false

def padded (width n : Nat) : Text :=
  let ds := Text.ofNat n
  List.replicate (width - ds.length) '0' ++ ds

def dateText (d : Date) : Text :=
  padded 4 d.year ++ ['-'] ++ padded 2 d.month ++ ['-'] ++ padded 2 d.day

def offsetText (minutes : Int) : Text :=
  (if minutes < 0 then '-' else '+') :: padded 2 (minutes.natAbs / 60) ++ [':'] ++
    padded 2 (minutes.natAbs % 60)

def timestampText (s : Timestamp) : Text :=
  dateText s.date ++ [' '] ++ padded 2 s.hour ++ [':'] ++ padded 2 s.minute ++ [':'] ++
    padded 2 s.second ++ (if s.microsecond = 0 then [] else '.' :: padded 6 s.microsecond) ++
    (match s.offset with
      | none => []
      | some m => offsetText m)

def commaSeparated (ts : List Text) : Text := Text.join ", " ts

def dateLiteral (d : Date) : Text :=
  "datetime.date(" ++ commaSeparated ([d.year, d.month, d.day].map Text.ofNat) ++ ")"

/-- A span of minutes, days apart from the rest, which is never negative. -/
def spanLiteral (minutes : Int) : Text :=
  let days := Int.fdiv minutes 1440
  let seconds := (Int.fmod minutes 1440) * 60
  let parts := (if days = 0 then [] else ["days=" ++ Text.ofInt days]) ++
    (if seconds = 0 then [] else ["seconds=" ++ Text.ofInt seconds])
  "datetime.timedelta(" ++ (if parts.isEmpty then ['0'] else commaSeparated parts) ++ ")"

def timestampLiteral (s : Timestamp) : Text :=
  let fields := [s.date.year, s.date.month, s.date.day, s.hour, s.minute] ++
    (if s.second = 0 && s.microsecond = 0 then [] else [s.second]) ++
    (if s.microsecond = 0 then [] else [s.microsecond])
  let zone : List Text := match s.offset with
    | none => []
    | some 0 => ["tzinfo=datetime.timezone.utc"]
    | some m => ["tzinfo=datetime.timezone(" ++ spanLiteral m ++ ")"]
  "datetime.datetime(" ++ commaSeparated (fields.map Text.ofNat ++ zone) ++ ")"

/-- One byte between quotes `q`. -/
def byteChar (q : Char) (b : UInt8) : Text :=
  let c := Char.ofNat b.toNat
  if c = q || c = '\\' then ['\\', c]
  else if c = '\t' then "\\t"
  else if c = '\n' then "\\n"
  else if c = '\r' then "\\r"
  else if 32 ≤ b && b < 127 then [c]
  else "\\x" ++ Text.hex 2 b.toNat

def bytesLiteral (bs : List UInt8) : Text :=
  let q := if bs.any (· == 39) && !bs.any (· == 34) then '"' else '\''
  'b' :: q :: bs.flatMap (byteChar q) ++ [q]

mutual

/-- The text of a value in which texts are quoted. -/
def literal : Value → Text
  | null => "None"
  | bool b => if b then "True" else "False"
  | int n => Text.ofInt n
  | float x => x.text
  | unequal _ => Double.nan.text
  | text t => Text.quote t
  | points codes => Text.quotePoints codes
  | bytes bs => bytesLiteral bs
  | date d => dateLiteral d
  | timestamp s => timestampLiteral s
  | list items => "[" ++ commaSeparated (literals items) ++ "]"
  | map entries => "\x7b" ++ commaSeparated (entryLiterals entries) ++ "\x7d"
  | set items =>
    if items.isEmpty then "set()" else "\x7b" ++ commaSeparated (literals items) ++ "\x7d"
  | pair k v => "(" ++ literal k ++ ", " ++ literal v ++ ")"
  | loop isList => if isList then "[...]" else "\x7b...\x7d"

def literals : List Value → List Text
  | [] => []
  | v :: r => literal v :: literals r

def entryLiterals : List (Value × Value) → List Text
  | [] => []
  | (k, v) :: r => (literal k ++ ": " ++ literal v) :: entryLiterals r

end

/-- The text of a value in which text itself is shown bare. -/
def display : Value → Text
  | text t => t
  | points codes => Text.ofPoints codes
  | date d => dateText d
  | timestamp s => timestampText s
  | v => literal v

/-- How many parts of a zone are shown one inside another. -/
def zoneLevels (s : Timestamp) : Nat :=
  match s.offset with
  | none => 0
  | some 0 => 1
  | some _ => 2

/-- Why a value cannot be shown. -/
inductive ShowFault where
  | tooManyDigits
  | tooDeep
  deriving DecidableEq

/-- What first keeps a value from being shown in quoted form, if no more than `levels` values can be
shown one inside another. -/
def literalFault? : Nat → Value → Option ShowFault
  | 0, _ => some .tooDeep
  | n + 1, v =>
    match v with
    | int i => if i.natAbs < Nat.pow 10 Numeral.maxDigits then none else some .tooManyDigits
    | timestamp s => if zoneLevels s ≤ n then none else some .tooDeep
    | list items => items.findSome? (literalFault? n)
    | map entries => entries.findSome? fun e => (literalFault? n e.1).or (literalFault? n e.2)
    -- a set is shown through the list of its items
    | set items => if items.isEmpty then none else literalFault? n (.list items)
    | pair k v => (literalFault? n k).or (literalFault? n v)
    | _ => none

def displayFault? (levels : Nat) : Value → Option ShowFault
  | text _ => none
  | points _ => none
  | date _ => none
  | timestamp _ => none
  | v => literalFault? levels v

/-- The most values that can be shown one inside another. -/
def maxLevels : Nat := 990

/-- The text of a value, if it can be shown. -/
def shown (levels : Nat) (v : Value) : Except ShowFault Text :=
  match v.displayFault? levels with
  | none => .ok v.display
  | some f => .error f

/-- The numeric value of a scalar that counts as a number, where truth is one and falsity zero. -/
def numeric? : Value → Option Quantity
  | bool b => some (.whole (if b then 1 else 0))
  | int n => some (.whole n)
  | float x => some (.fractional x)
  | _ => none

/-- Equality of numbers across their two kinds; the one value that is not a number equals itself. -/
def sameNumber : Quantity → Quantity → Bool
  | .whole m, .whole n => m = n
  | .whole m, .fractional y => y.toRat? == some (m : Rat)
  | .fractional x, .whole n => x.toRat? == some (n : Rat)
  | .fractional x, .fractional y =>
    match x.toRat?, y.toRat? with
    | some p, some q => p == q
    | none, none => x == y
    | _, _ => false

/-- The days from the first of January of the year zero. -/
def dayNumber (d : Date) : Int :=
  let before : Nat → Nat
    | 1 => 0 | 2 => 31 | 3 => 59 | 4 => 90 | 5 => 120 | 6 => 151
    | 7 => 181 | 8 => 212 | 9 => 243 | 10 => 273 | 11 => 304 | _ => 334
  let y := if d.month ≤ 2 then d.year - 1 else d.year
  d.year * 365 + y / 4 - y / 100 + y / 400 + before d.month + d.day

/-- The time of a timestamp in microseconds, by its own clock or, if an offset is known, by universal
time. -/
def instant (s : Timestamp) : Int :=
  let minutes := (dayNumber s.date * 24 + s.hour) * 60 + s.minute - s.offset.getD 0
  (minutes * 60 + s.second) * 1000000 + s.microsecond

/-- Timestamps are the same if they denote one instant. One with an offset and one without are never the
same. -/
def sameTimestamp (s t : Timestamp) : Bool :=
  s.offset.isSome == t.offset.isSome && instant s == instant t

/-- Whether two values are one key of a mapping: numbers by value, everything else by kind. -/
def sameKey : Value → Value → Bool
  | null, null => true
  | text s, text t => s = t
  | bytes s, bytes t => s = t
  | date s, date t => s = t
  | timestamp s, timestamp t => sameTimestamp s t
  | points s, points t => s = t
  | unequal s, unequal t => s = t
  | pair a b, pair c d => sameKey a c && sameKey b d
  | a, b =>
    match a.numeric?, b.numeric? with
    | some x, some y => sameNumber x y
    | _, _ => false

/-- Whether the value may be a key: lists, mappings and sets may not. -/
def isHashable : Value → Bool
  | list _ => false
  | map _ => false
  | set _ => false
  | loop _ => false
  | pair k v => isHashable k && isHashable v
  | _ => true

/-- The entries with a new value for the key, which keeps its place if it is present. -/
def putEntry {α : Type} (k : Value) (v : α) : List (Value × α) → List (Value × α)
  | [] => [(k, v)]
  | e :: r => if sameKey e.1 k then (e.1, v) :: r else e :: putEntry k v r

/-- The entries with one for each key; of several the last value counts, in the place of the first. -/
def distinctEntries {α : Type} (entries : List (Value × α)) : List (Value × α) :=
  entries.foldl (fun es e => putEntry e.1 e.2 es) []

/-- The value of a text key. -/
def field? {α : Type} (entries : List (Value × α)) (name : Text) : Option α :=
  (entries.find? fun e => sameKey e.1 (.text name)).map Prod.snd

end Value
end EditorInsight
