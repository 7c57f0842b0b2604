import EditorInsight.Data.Value
import EditorInsight.Numeric.Rounded

/-!
# Message templates

A message may have places for arguments, each a percent sign, flags, a width, a precision and a
letter. A star for the width or the precision takes it from the arguments. The arguments are used in
order, or by name if there is a single one and it is a mapping. Each argument has to be used. Two
percent signs stand for one.
-/

namespace EditorInsight.Template

inductive Fault where
  /-- The template ends inside a place. -/
  | incomplete
  | incompleteKey
  | unknownLetter (letter : Char) (index : Nat)
  /-- The arguments do not fit the places. -/
  | mismatch
  | missingKey
  /-- A number is no character, no whole number, or beyond what a width or a double can be. -/
  | outOfRange
  | notANumber
  | widthTooBig
  | precisionTooBig
  deriving DecidableEq

def Fault.message : Fault → Text
  | .incomplete => "incomplete format"
  | .incompleteKey => "incomplete format key"
  | .unknownLetter c index =>
    let shown := if 31 ≤ c.val && c.val < 127 then c else '?'
    "unsupported format character '" ++ [shown] ++ "' (0x" ++ Text.hex 1 c.val.toNat ++
      ") at index " ++ Text.ofNat index
  | .mismatch => "the arguments do not fit the places"
  | .missingKey => "a named argument is missing"
  | .outOfRange => "a number is out of range"
  | .notANumber => "cannot convert float NaN to integer"
  | .widthTooBig => "width too big"
  | .precisionTooBig => "precision too big"

/-- A place for an argument. -/
structure Place where
  flags : Text := []
  width : Nat := 0
  precision : Option Nat := none
  letter : Char

def isFlag (c : Char) : Bool := "-+ #0".toList.elem c

def number (t : Text) : Nat := t.foldl (fun n d => n * 10 + (d.toNat - '0'.toNat)) 0

/-- The name in parentheses at the start of a place; inner parentheses are part of it. -/
def key? (depth : Nat) : Text → Option (Text × Text)
  | [] => none
  | ')' :: r =>
    match depth with
    | 0 => some ([], r)
    | d + 1 => (key? d r).map fun (k, rest) => (')' :: k, rest)
  | '(' :: r => (key? (depth + 1) r).map fun (k, rest) => ('(' :: k, rest)
  | c :: r => (key? depth r).map fun (k, rest) => (c :: k, rest)

/-- The arguments that are left, and the mapping that names are looked up in. -/
structure Supply where
  rest : List Value
  named : Option (List (Value × Value)) := none

def whole? : Value → Option Int
  | .int n => some n
  | .bool b => some (if b then 1 else 0)
  | _ => none

/-- Makes the argument that a name in parentheses asks for the only one left, if the text starts with
a name, giving what follows it. -/
def Supply.select (s : Supply) : Text → Except Fault (Supply × Text)
  | '(' :: r =>
    match s.named, key? 0 r with
    | none, _ => .error .mismatch
    | some _, none => .error .incompleteKey
    | some entries, some (k, rest) =>
      match Value.field? entries k with
      | some v => .ok ({ s with rest := [v] }, rest)
      | none => .error .missingKey
  | t => .ok (s, t)

def Supply.take (s : Supply) : Except Fault (Value × Supply) :=
  match s.rest with
  | v :: r => .ok (v, { s with rest := r })
  | [] => .error .mismatch

/-- Takes the next argument as a width or a precision, which must lie within the bound. -/
def Supply.takeSize (s : Supply) (bound : Nat) : Except Fault (Int × Supply) := do
  let (v, s) ← s.take
  match whole? v with
  | none => throw .mismatch
  | some n => if -bound ≤ n && n < bound then return (n, s) else throw .outOfRange

def widthBound : Nat := Nat.pow 2 63

def precisionBound : Nat := Nat.pow 2 31

/-- The width of a place, which is negative if it asks for filling on the right. -/
def width (s : Supply) (t : Text) : Except Fault (Int × Supply × Text) :=
  match t with
  | '*' :: r => do
    let (n, s) ← s.takeSize widthBound
    return (n, s, r)
  | _ =>
    let n := number (t.takeWhile Char.isDigit)
    if n < widthBound then .ok (n, s, t.dropWhile Char.isDigit) else .error .widthTooBig

def precision (s : Supply) (t : Text) : Except Fault (Option Nat × Supply × Text) :=
  match t with
  | '.' :: '*' :: r => do
    let (n, s) ← s.takeSize precisionBound
    return (some n.toNat, s, r)
  | '.' :: r =>
    let n := number (r.takeWhile Char.isDigit)
    if n < precisionBound then .ok (some n, s, r.dropWhile Char.isDigit) else .error .precisionTooBig
  | _ => .ok (none, s, t)

/-- Reads a place after its percent sign and its name, giving what follows it. -/
def place (s : Supply) (t : Text) : Except Fault (Place × Supply × Text) := do
  let flags := t.takeWhile isFlag
  let (width, s, t) ← width s (t.dropWhile isFlag)
  let (precision, s, t) ← precision s t
  let t := match t with
    | c :: r => if "hlL".toList.elem c then r else t
    | [] => t
  match t with
  | [] => throw .incomplete
  | letter :: rest =>
    let flags := if width < 0 then '-' :: flags else flags
    return (⟨flags, width.natAbs, precision, letter⟩, s, rest)

/-- Fills up to the width, on the left unless a flag says otherwise. -/
def pad (p : Place) (t : Text) : Text :=
  let fill := List.replicate (p.width - t.length) ' '
  if p.flags.elem '-' then t ++ fill else fill ++ t

def cut (p : Place) (t : Text) : Text :=
  match p.precision with
  | some n => t.take n
  | none => t

/-- A number from its lead, which is a sign and the mark of a base, and its digits. Zeros may fill the
width in between. -/
def numberText (p : Place) (isNegative : Bool) (mark digits : Text) : Text :=
  let sign : Text :=
    if isNegative then ['-']
    else if p.flags.elem '+' then ['+']
    else if p.flags.elem ' ' then [' ']
    else []
  let lead := sign ++ mark
  if p.flags.elem '0' && !p.flags.elem '-' then
    lead ++ List.replicate (p.width - (lead.length + digits.length)) '0' ++ digits
  else pad p (lead ++ digits)

def wholeText (p : Place) (radix : Nat) (mark : Text) (n : Int) : Text :=
  let digits := Nat.toDigits radix n.natAbs
  let digits := List.replicate (p.precision.getD 0 - digits.length) '0' ++ digits
  numberText p (n < 0) (if p.flags.elem '#' then mark else []) digits

/-- The whole part of a number. -/
def truncated : Value → Except Fault Int
  | .float .nan => .error .notANumber
  | .float (.infinite _) => .error .outOfRange
  | .float x => .ok (x.toRat?.elim 0 fun q => Int.tdiv q.num q.den)
  | v => match whole? v with
    | some n => .ok n
    | none => .error .mismatch

/-- The double that a number is or is nearest to. -/
def double (v : Value) : Except Fault Double :=
  match v.numeric? with
  | none => .error .mismatch
  | some q => q.toDouble.mapError fun _ => .outOfRange

/-- A double by a way of writing numbers that are not negative, given the precision. -/
def doubleText (p : Place) (write : Bool → Nat → Rat → Text) (x : Double) : Text :=
  numberText p x.isNegative [] (match x with
    | .nan => "nan"
    | .infinite _ => "inf"
    | x => write (p.flags.elem '#') (p.precision.getD 6) (x.toRat?.elim 0 fun q => if q < 0 then -q else q))

/-- The literal of a value in ASCII. -/
def asciiLiteral (v : Value) : Text :=
  v.literal.flatMap fun c => if c.val < 128 then [c] else Text.codeEscape c

def upper (t : Text) : Text := t.map Char.toUpper

/-- The text of an argument in its place. -/
def fill (p : Place) (index : Nat) (v : Value) : Except Fault Text :=
  let whole (radix : Nat) (mark : Text) : Except Fault Text :=
    match whole? v with
    | some n => .ok (wholeText p radix mark n)
    | none => .error .mismatch
  match p.letter with
  | 's' => .ok (pad p (cut p v.display))
  | 'r' => .ok (pad p (cut p v.literal))
  | 'a' => .ok (pad p (cut p (asciiLiteral v)))
  | 'd' => wholeText p 10 [] <$> truncated v
  | 'i' => wholeText p 10 [] <$> truncated v
  | 'u' => wholeText p 10 [] <$> truncated v
  | 'o' => whole 8 "0o"
  | 'x' => whole 16 "0x"
  | 'X' => upper <$> whole 16 "0x"
  | 'f' => doubleText p Rounded.fixed <$> double v
  | 'F' => (upper ∘ doubleText p Rounded.fixed) <$> double v
  | 'e' => doubleText p Rounded.scientific <$> double v
  | 'E' => (upper ∘ doubleText p Rounded.scientific) <$> double v
  | 'g' => doubleText p Rounded.general <$> double v
  | 'G' => (upper ∘ doubleText p Rounded.general) <$> double v
  | 'c' =>
    match v with
    | .text [c] => .ok (pad p [c])
    | v =>
      match whole? v with
      | some n => if 0 ≤ n && n < 0x110000 then .ok (pad p [Char.ofNat n.toNat]) else .error .outOfRange
      | none => .error .mismatch
  | c => .error (.unknownLetter c index)

/-- Fills the places of a template of the given length, one after the other. -/
def expand (length : Nat) : Nat → Supply → Text → Except Fault Text
  | 0, _, _ => .ok []
  | _, s, [] => if s.rest.isEmpty || s.named.isSome then .ok [] else .error .mismatch
  | n + 1, s, '%' :: '%' :: r => do return '%' :: (← expand length n s r)
  | n + 1, s, '%' :: r => do
    let (s, r) ← s.select r
    let (p, s, rest) ← place s r
    let (v, s) ← s.take
    let piece ← fill p (length - rest.length - 1) v
    return piece ++ (← expand length n s rest)
  | n + 1, s, c :: r => do return c :: (← expand length n s r)

/-- The message of a template with arguments. Without arguments the template is the message. -/
def message (t : Text) (arguments : List Value) : Except Fault Text :=
  match arguments with
  | [] => .ok t
  | [.map (e :: entries)] =>
    expand t.length (t.length + 1) ⟨[.map (e :: entries)], some (e :: entries)⟩ t
  | arguments => expand t.length (t.length + 1) ⟨arguments, none⟩ t

end EditorInsight.Template
