import EditorInsight.Data.Value
import EditorInsight.Numeric.Numeral
import EditorInsight.Text.Digit
import EditorInsight.Text.Lowercase
import EditorInsight.Text.Percent
import EditorInsight.Yaml.Fault

/-!
# The values of scalars

A scalar without a tag of its own has the type that its form shows: truth values, numbers, dates
and the null value have fixed spellings, and everything else is text. Whole numbers may be written
in base 2, 8, 10, 16 or 60, and underscores between digits are ignored.
-/

namespace EditorInsight.Yaml

namespace Tag

def base : Text := "tag:yaml.org,2002:"

def null : Text := base ++ "null"
def bool : Text := base ++ "bool"
def int : Text := base ++ "int"
def float : Text := base ++ "float"
def binary : Text := base ++ "binary"
def timestamp : Text := base ++ "timestamp"
def str : Text := base ++ "str"
def seq : Text := base ++ "seq"
def map : Text := base ++ "map"
def set : Text := base ++ "set"
def omap : Text := base ++ "omap"
def pairs : Text := base ++ "pairs"
def merge : Text := base ++ "merge"
def value : Text := base ++ "value"
def yaml : Text := base ++ "yaml"

end Tag

/-! Forms of scalars. -/

def isDigitOrUnderscore (c : Char) : Bool := c.isDigit || c == '_'

/-- What follows a digit and the digits and underscores after it. -/
def afterNumber? : Text → Option Text
  | [] => none
  | c :: r => if c.isDigit then some (r.dropWhile isDigitOrUnderscore) else none

/-- Nothing, or an exponent with a sign. -/
def isExponent : Text → Bool
  | [] => true
  | e :: s :: r => (e == 'e' || e == 'E') && Numeral.isSign s && r ≠ [] && r.all Char.isDigit
  | _ => false

/-- A digit of base 60. -/
def isSixtieth : Text → Bool
  | [d] => d.isDigit
  | [a, b] => '0' ≤ a && a ≤ '5' && b.isDigit
  | _ => false

/-- The digits of base 60 after the first, if all are well formed. -/
def isSexagesimal (t : Text) : Bool :=
  match Text.splitWhere (· == ':') t with
  | [] :: d :: r => (d :: r).all isSixtieth
  | _ => false

/-- The text before the first full stop and the text after it. -/
def splitPoint? (t : Text) : Option (Text × Text) :=
  match t.dropWhile (· != '.') with
  | '.' :: r => some (t.takeWhile (· != '.'), r)
  | _ => none

def isFloatForm (t : Text) : Bool :=
  let u := Numeral.unsigned t
  let isPlain := match afterNumber? u with
    | some ('.' :: r) => isExponent (r.dropWhile isDigitOrUnderscore)
    | _ => false
  let isFraction := match t with
    | '.' :: r => match afterNumber? r with
      | some e => isExponent e
      | none => false
    | _ => false
  let isSixty := match (afterNumber? u).bind splitPoint? with
    | some (ds, r) => isSexagesimal ds && r.all isDigitOrUnderscore
    | none => false
  isPlain || isFraction || isSixty || [".inf", ".Inf", ".INF"].elem (Text.str u) ||
    [".nan", ".NaN", ".NAN"].elem (Text.str t)

def isIntForm (t : Text) : Bool :=
  match Numeral.unsigned t with
  | ['0'] => true
  | '0' :: 'b' :: r => r ≠ [] && r.all fun c => c == '0' || c == '1' || c == '_'
  | '0' :: 'x' :: r => r ≠ [] && r.all fun c => (Text.hexDigit? c).isSome || c == '_'
  | '0' :: r => r.all fun c => ('0' ≤ c && c ≤ '7') || c == '_'
  | c :: r =>
    c.isDigit && (let after := r.dropWhile isDigitOrUnderscore; after = [] || isSexagesimal after)
  | [] => false

/-- The parts of a written date and time. -/
structure Moment where
  year : Text
  month : Text
  day : Text
  /-- Hour, minute and second, the fraction of a second, and the zone. -/
  time : Option (Text × Text × Text × Text × Text)

/-- One or two digits and what follows them. -/
def shortNumber? (t : Text) : Option (Text × Text) :=
  match (t.take 2).takeWhile Char.isDigit with
  | [] => none
  | ds => some (ds, t.drop ds.length)

/-- Exactly `n` digits and what follows them. -/
def fixedNumber? (n : Nat) (t : Text) : Option (Text × Text) :=
  let ds := t.take n
  if ds.length = n && ds.all Char.isDigit then some (ds, t.drop n) else none

def after? (c : Char) : Text → Option Text
  | d :: r => if d = c then some r else none
  | [] => none

/-- Whether the text is a time zone, blanks before it included; nothing at all is one too. -/
def isZone (t : Text) : Bool :=
  t = [] || match t.dropWhile (fun c => c == ' ' || c == '\t') with
    | ['Z'] => true
    | s :: r => Numeral.isSign s && match shortNumber? r with
      | some (_, []) => true
      | some (_, ':' :: m) => m.length = 2 && m.all Char.isDigit
      | _ => false
    | [] => false

/-- Reads a time of day, with the blanks or the letter before it. -/
def timeOfDay? (t : Text) : Option (Text × Text × Text × Text × Text) := do
  let t ← match t with
    | 'T' :: r => some r
    | 't' :: r => some r
    | c :: r => if c == ' ' || c == '\t' then some (r.dropWhile fun c => c == ' ' || c == '\t') else none
    | [] => none
  let (hour, t) ← shortNumber? t
  let (minute, t) ← fixedNumber? 2 (← after? ':' t)
  let (second, t) ← fixedNumber? 2 (← after? ':' t)
  let (fraction, t) := match t with
    | '.' :: r => (r.takeWhile Char.isDigit, r.dropWhile Char.isDigit)
    | _ => ([], t)
  if isZone t then some (hour, minute, second, fraction, t.dropWhile fun c => c == ' ' || c == '\t')
  else none

/-- The parts of a date, with or without a time. -/
def moment? (t : Text) : Option Moment := do
  let (year, t) ← fixedNumber? 4 t
  let (month, t) ← shortNumber? (← after? '-' t)
  let (day, t) ← shortNumber? (← after? '-' t)
  if t = [] then some ⟨year, month, day, none⟩
  else (timeOfDay? t).map fun time => ⟨year, month, day, some time⟩

/-- A date without a time needs two digits for month and day to be recognised. -/
def isTimestampForm (t : Text) : Bool :=
  match moment? t with
  | none => false
  | some m => m.time.isSome || (m.month.length = 2 && m.day.length = 2)

def boolWords : List String :=
  ["yes", "Yes", "YES", "no", "No", "NO", "true", "True", "TRUE", "false", "False", "FALSE",
    "on", "On", "ON", "off", "Off", "OFF"]

def nullWords : List String := ["~", "null", "Null", "NULL"]

/-- The text without one line feed at its end. -/
def withoutFinalBreak (t : Text) : Text :=
  if t.getLast? = some '\n' then t.dropLast else t

/-- The tag that the form of a scalar shows. -/
def implicitTag (t : Text) : Text :=
  if t = [] then Tag.null
  else
    let u := withoutFinalBreak t
    let word := Text.str u
    if boolWords.elem word then Tag.bool
    else if isFloatForm u then Tag.float
    else if isIntForm u then Tag.int
    else if word = "<<" then Tag.merge
    else if nullWords.elem word then Tag.null
    else if isTimestampForm u then Tag.timestamp
    else if word = "=" then Tag.value
    else if ["!", "&", "*"].elem word then Tag.yaml
    else Tag.str

/-! Values of scalars. -/

def bad {α : Type} (message : Text) : Except ScalarFault α := .error (.badValue message)

/-- The letter that may follow a zero in front of digits of a base. -/
def radixLetters : Nat → Text
  | 2 => ['b', 'B']
  | 8 => ['o', 'O']
  | 16 => ['x', 'X']
  | _ => []

/-- The complaint about a decimal number with too many digits. -/
def tooManyDigits (count : Nat) : Text :=
  "Exceeds the limit (" ++ Text.ofNat Numeral.maxDigits ++
    " digits) for integer string conversion: value has " ++ Text.ofNat count ++
    " digits; use sys.set_int_max_str_digits() to increase the limit"

/-- The complaint about code points that are no whole number, of which it shows no more than a part. -/
def notWhole (radix : Nat) (codes : List Nat) : Text :=
  "invalid literal for int() with base " ++ Text.ofNat radix ++ ": " ++
    (Text.quotePoints codes).take 200

/-- A whole number in a base, with blanks around it, a sign and the mark of the base allowed. -/
def intIn (radix : Nat) (codes : List Nat) : Except ScalarFault Int :=
  let u := Text.numeral (codes.map Text.pointChar)
  let digits := match Numeral.unsigned u with
    | '0' :: c :: r => if (radixLetters radix).elem c then r else '0' :: c :: r
    | ds => ds
  let count := (digits.takeWhile Char.isDigit).length
  if radix = 10 && count > Numeral.maxDigits then bad (tooManyDigits count)
  else match Numeral.natural? radix digits with
    | some n => .ok (Numeral.withSign (Numeral.isNegative u) n)
    | none => bad (notWhole radix codes)

/-- The whole number with the given digits of base 60. -/
def sexagesimal (digits : List Int) : Int := digits.foldl (fun sum d => sum * 60 + d) 0

/-- The double with the given digits of base 60, added up from the last one on. The place value of each
has to be a double. -/
def sexagesimalDouble (digits : List Double) : Except ScalarFault Double := do
  let (sum, _) ← digits.reverse.foldlM (fun (sum, unit) d => do
    match Quantity.toDouble (.whole unit) with
    | .ok u => return (Double.add sum (d.mul u), unit * 60)
    | .error _ => throw ScalarFault.tooLarge) (Double.finite 0, (1 : Int))
  return sum

def withoutUnderscores (codes : List Nat) : List Nat := codes.filter (· != '_'.toNat)

/-- The characters of code points, and the code points without a sign at the start. -/
def numberParts (codes : List Nat) : Text × List Nat :=
  let t := codes.map Text.pointChar
  (t, codes.drop (t.length - (Numeral.unsigned t).length))

/-- The digits of base 60. -/
def sixtieths (codes : List Nat) : List (List Nat) := Text.splitWhere (· == ':'.toNat) codes

def intValue (codes : List Nat) : Except ScalarFault Int := do
  let (t, digits) := numberParts (withoutUnderscores codes)
  let n ← match Numeral.unsigned t with
    | [] => .error .emptyNumber
    | ['0'] => .ok 0
    | '0' :: 'b' :: _ => intIn 2 (digits.drop 2)
    | '0' :: 'x' :: _ => intIn 16 (digits.drop 2)
    | '0' :: _ => intIn 8 digits
    | _ =>
      if t.any (· == ':') then do pure (sexagesimal (← (sixtieths digits).mapM (intIn 10)))
      else intIn 10 digits
  return Numeral.withSign (Numeral.isNegative t) n

/-- The words for numbers that are not finite. -/
def floatWord? (t : Text) : Option Double :=
  match Text.str t with
  | "inf" => some (.infinite false)
  | "infinity" => some (.infinite false)
  | "nan" => some .nan
  | _ => none

/-- A number as a double, with blanks around it and a sign allowed. -/
def floatOf (codes : List Nat) : Except ScalarFault Double :=
  let u := Text.numeral (codes.map Text.pointChar)
  let digits := Numeral.unsigned u
  match (floatWord? digits).or (Numeral.decimal? digits) with
  | some x => .ok (if Numeral.isNegative u then x.neg else x)
  | none => bad ("could not convert string to float: " ++ Text.quotePoints codes)

/-- Code points in lower case; halves of pairs have none. -/
def lowerPoints (codes : List Nat) : List Nat :=
  (codes.splitBy fun m n => Text.isSurrogate m == Text.isSurrogate n).flatMap fun run =>
    if run.any Text.isSurrogate then run
    else (Text.lower (run.map Text.pointChar)).map Char.toNat

/-- The value of a number read at the given place. The one word for what is not a number gives one and the
same value; any other way to it gives a value that equals nothing else. -/
def floatValue (place : Nat) (codes : List Nat) : Except ScalarFault Value := do
  let (t, digits) := numberParts (lowerPoints (withoutUnderscores codes))
  let x ← match t, Text.str (Numeral.unsigned t) with
    | [], _ => .error .emptyNumber
    | _, ".inf" => .ok (.infinite false)
    | _, ".nan" => return .float .nan
    | _, _ =>
      if t.any (· == ':') then do sexagesimalDouble (← (sixtieths digits).mapM floatOf)
      else floatOf digits
  return if x = .nan then .unequal place else .float (if Numeral.isNegative t then x.neg else x)

def boolValue (t : Text) : Except ScalarFault Bool :=
  match Text.str (Text.lower t) with
  | "yes" => .ok true
  | "true" => .ok true
  | "on" => .ok true
  | "no" => .ok false
  | "false" => .ok false
  | "off" => .ok false
  | _ => .error .unknownWord

def isLeapYear (y : Nat) : Bool := (y % 4 = 0 && y % 100 ≠ 0) || y % 400 = 0

def daysInMonth (y m : Nat) : Nat :=
  if m = 2 then (if isLeapYear y then 29 else 28)
  else if m = 4 || m = 6 || m = 9 || m = 11 then 30 else 31

def digitsValue (t : Text) : Nat := (Numeral.natural? 10 t).getD 0

def dateValue (m : Moment) : Except ScalarFault Date :=
  let y := digitsValue m.year
  let month := digitsValue m.month
  let day := digitsValue m.day
  if y = 0 then bad "year 0 is out of range"
  else if month < 1 || month > 12 then bad "month must be in 1..12"
  else if day < 1 || day > daysInMonth y month then bad "day is out of range for month"
  else .ok ⟨y, month, day⟩

/-- The offset of a written zone in minutes. -/
def zoneOffset (zone : Text) : Except ScalarFault (Option Int) :=
  match zone with
  | [] => .ok none
  | ['Z'] => .ok (some 0)
  | sign :: r =>
    let parts := Text.splitWhere (· == ':') r
    let minutes : Int := digitsValue (parts.headD []) * 60 + digitsValue (parts.tail.headD [])
    let offset := Numeral.withSign (sign == '-') minutes
    if minutes ≥ 1440 then
      bad ("offset must be a timedelta strictly between -timedelta(hours=24) and " ++
        "timedelta(hours=24), not " ++ Value.spanLiteral offset ++ ".")
    else .ok (some offset)

def timestampValue (t : Text) : Except ScalarFault Value :=
  match moment? (withoutFinalBreak t) with
  | none => .error .noPattern
  | some m =>
    match m.time with
    | none => Value.date <$> dateValue m
    | some (hour, minute, second, fraction, zone) => do
      let offset ← zoneOffset zone
      let date ← dateValue m
      let h := digitsValue hour
      let n := digitsValue minute
      let s := digitsValue second
      if h > 23 then bad "hour must be in 0..23"
      else if n > 59 then bad "minute must be in 0..59"
      else if s > 59 then bad "second must be in 0..59"
      else
        let micro := fraction.take 6
        let digits := micro ++ List.replicate (6 - micro.length) '0'
        return .timestamp ⟨date, h, n, s, digitsValue digits, offset⟩

/-! Base 64. -/

def sextet? (c : Char) : Option Nat :=
  if 'A' ≤ c && c ≤ 'Z' then some (c.toNat - 'A'.toNat)
  else if 'a' ≤ c && c ≤ 'z' then some (c.toNat - 'a'.toNat + 26)
  else if c.isDigit then some (c.toNat - '0'.toNat + 52)
  else if c == '+' then some 62
  else if c == '/' then some 63
  else none

/-- Bytes of base 64 text: `held` are the sextets of the group begun, `pads` its padding so far and
`count` the bytes before it. Characters outside the alphabet are skipped. -/
def base64 (held : List Nat) (pads count : Nat) : Text → Except Text (List UInt8)
  | [] =>
    match held.length with
    | 0 => .ok []
    | 1 => .error ("Invalid base64-encoded string: number of data characters (" ++
        Text.ofNat (count / 3 * 4 + 1) ++ ") cannot be 1 more than a multiple of 4")
    | _ => .error "Incorrect padding"
  | c :: r =>
    if c == '=' then
      if held.length ≥ 2 && held.length + pads + 1 ≥ 4 then .ok []
      else base64 held (if held.length ≥ 2 then pads + 1 else pads) count r
    else match sextet? c with
      | none => base64 held pads count r
      | some n =>
        match held with
        | [] => base64 [n] 0 count r
        | [a] => (UInt8.ofNat (a * 4 + n / 16) :: ·) <$> base64 [a, n] 0 (count + 1) r
        | [a, b] => (UInt8.ofNat (b % 16 * 16 + n / 4) :: ·) <$> base64 [a, b, n] 0 (count + 1) r
        | _ => (UInt8.ofNat (held.getLastD 0 % 4 * 64 + n) :: ·) <$> base64 [] 0 (count + 1) r

/-- The complaint about the first code points that are not ASCII. -/
def notAscii (points : List Nat) : Option Text :=
  let first := (points.takeWhile (· < 128)).length
  match (points.drop first).takeWhile (· ≥ 128) with
  | [] => none
  | [c] => some ("'ascii' codec can't encode character '" ++ Text.pointEscape c ++ "' in position " ++
      Text.ofNat first ++ ": ordinal not in range(128)")
  | run => some ("'ascii' codec can't encode characters in position " ++ Text.ofNat first ++ "-" ++
      Text.ofNat (first + run.length - 1) ++ ": ordinal not in range(128)")

end EditorInsight.Yaml
