import EditorInsight.Text.Blank
import EditorInsight.Text.Identifier

/-!
# Definition headers

A header is `[async ]def name(parameters)[ -> result]:`. It may span several lines: lines are joined
until the parentheses balance and the closing colon has been seen, within a budget of lines. The
joined text is then read as a whole, up to the last parenthesis that a colon or a result can
follow.

Parentheses are counted over every character, those in string literals and comments included.
-/

namespace EditorInsight

/-- The parts of a definition header. -/
structure Header where
  isAsync : Bool
  name : Text
  parameters : Text
  result : Text
  deriving DecidableEq

/-- Lines joined to one header text, and how many they were. -/
structure CollectedHeader where
  text : Text
  lineCount : Nat
  deriving DecidableEq

namespace Header

/-- The default budget of lines for one header. -/
def defaultMaxLines : Int := 20

/-- Reads `async` and the blanks after it, if the text starts so. -/
def stripAsync (t : Text) : Bool × Text :=
  match (Text.after? "async" t).bind Text.skipBlanks1? with
  | some r => (true, r)
  | none => (false, t)

/-- Reads `[async ]def name (`, giving whether it is asynchronous, the name, and the text after the
parenthesis. -/
def opening? (t : Text) : Option (Bool × Text × Text) :=
  let (isAsync, t) := stripAsync t
  match ((Text.after? "def" t).bind Text.skipBlanks1?).bind Text.identifier? with
  | none => none
  | some (name, r) =>
    match Text.trimLeft r with
    | '(' :: r => some (isAsync, name, r)
    | _ => none

/-- Whether a line, leading blanks ignored, starts a definition. -/
def isStart (line : Text) : Bool := (opening? (Text.trimLeft line)).isSome

/-- The result between an arrow and the next colon, at least one character long. -/
def resultText? : Text → Option Text
  | '-' :: '>' :: r =>
    match r.span (· != ':') with
    | (_ :: _, []) => none
    | (a@(_ :: _), _ :: _) => some a
    | ([], _) => none
  | _ => none

/-- Whether a closing parenthesis ends a header: a colon follows it directly, or a result and a colon
follow after blanks. `t` is the text after the parenthesis. -/
def endsHeader (t : Text) : Bool :=
  match t with
  | ':' :: _ => true
  | _ => (resultText? (Text.trimLeft t)).isSome

/-- Whether some closing parenthesis of the text ends a header. -/
def isComplete : Text → Bool
  | [] => false
  | c :: r => (c = ')' && endsHeader r) || isComplete r

/-- The parenthesis balance of a line added to `depth`. -/
def balance (depth : Int) (line : Text) : Int :=
  line.foldl (fun d c => if c = '(' then d + 1 else if c = ')' then d - 1 else d) depth

/-- Joins lines until the header is complete. `joined` is the text so far, `used` the number of lines in
it, and `budget` how many lines may still be taken; one line is always taken. -/
def collectFrom (joined : Option Text) (used : Nat) (depth : Int) (budget : Int) :
    List Text → Option CollectedHeader
  | [] => none
  | line :: rest =>
    let text := match joined with
      | none => Text.trim line
      | some t => t ++ [' '] ++ Text.trim line
    let depth := balance depth line
    if depth = 0 && isComplete text then some ⟨text, used + 1⟩
    else if budget ≤ 1 then none
    else collectFrom (some text) (used + 1) depth (budget - 1) rest

/-- The header that starts at the first of the lines. -/
def collect? (maxLines : Int) (lines : List Text) : Option CollectedHeader :=
  match lines with
  | [] => none
  | line :: _ => if isStart line then collectFrom none 0 0 maxLines lines else none

/-- The header that starts at the line with the given index. -/
def collectAt? (maxLines : Int) (lines : List Text) (index : Int) : Option CollectedHeader :=
  if index < 0 then none else collect? maxLines (lines.drop index.toNat)

/-- What follows a closing parenthesis in a header text: blanks, then a colon, or an arrow, a result and a
colon. Gives the result, empty if there is none. -/
def closing? (t : Text) : Option Text :=
  match Text.trimLeft t with
  | ':' :: _ => some []
  | u => (resultText? u).map Text.trim

/-- Cuts at the last closing parenthesis that ends the header. -/
def splitClosing? : Text → Option (Text × Text)
  | [] => none
  | c :: r =>
    match splitClosing? r with
    | some (parameters, result) => some (c :: parameters, result)
    | none => if c = ')' then (closing? r).map ([], ·) else none

/-- Reads a header text. -/
def parse? (t : Text) : Option Header :=
  match opening? (Text.normalizeBlanks t) with
  | none => none
  | some (isAsync, name, r) =>
    match splitClosing? r with
    | none => none
    | some (parameters, result) => some ⟨isAsync, name, Text.trim parameters, result⟩

/-- The header without its colon; the name is qualified by its class, if one is given. -/
def format (h : Header) (owner : Text := []) : Text :=
  (if h.isAsync then ("async def " : Text) else "def ") ++
    (if owner.isEmpty then h.name else owner ++ ['.'] ++ h.name) ++
    ['('] ++ h.parameters ++ [')'] ++
    (if h.result.isEmpty then [] else (" -> " : Text) ++ h.result)

/-- Collects and reads the header that starts at the first of the lines, with its number of lines. -/
def read? (maxLines : Int) (lines : List Text) : Option (Header × Nat) :=
  match collect? maxLines lines with
  | none => none
  | some c => (parse? c.text).map (·, c.lineCount)

end Header
end EditorInsight
