import EditorInsight.Text.Blank
import EditorInsight.Text.Identifier

/-!
# The text around a cursor

What one line says about the place where the cursor is: the call whose parenthesis is still open,
the chain before a dot, the dotted expression that the cursor touches, and the table that it
refers to.
-/

namespace EditorInsight.Cursor

/-- A call that is still open: what is called, and what has been typed after its parenthesis. -/
structure CallSite where
  callee : Text
  arguments : Text
  deriving DecidableEq

/-- Cuts a reversed text at its first parenthesis that opens more than was closed: the text after it, and
the reversed text before it. -/
def splitOpen? (depth : Nat) (after : Text) : Text → Option (Text × Text)
  | [] => none
  | ')' :: r => splitOpen? (depth + 1) (')' :: after) r
  | '(' :: r =>
    match depth with
    | 0 => some (after, r)
    | d + 1 => splitOpen? d ('(' :: after) r
  | c :: r => splitOpen? depth (c :: after) r

/-- The innermost call that is open at the end of the text. -/
def enclosingCall? (before : Text) : Option CallSite :=
  match splitOpen? 0 [] before.reverse with
  | none => none
  | some (arguments, r) =>
    (Text.longestSuffix? Text.isChain (Text.trimRight r.reverse)).map (⟨·, arguments⟩)

/-- The text without its last dot, after which one line feed may stand. -/
def beforeDot? (t : Text) : Option Text :=
  match t.reverse with
  | '.' :: r => some r.reverse
  | '\n' :: '.' :: r => some r.reverse
  | _ => none

/-- The chain that the text ends with, if a dot follows it. -/
def chainBeforeDot? (before : Text) : Option Text :=
  (beforeDot? before).bind (Text.longestSuffix? Text.isChain)

def isQuote (c : Char) : Bool := c == '"' || c == '\''

/-- Reads `["key"]` backward from the end of a reversed text, giving the reversed text before it. -/
def beforeSubscript? : Text → Option Text
  | ']' :: q :: r =>
    if isQuote q then
      match r.dropWhile Text.isIdentPart with
      | q' :: '[' :: r' => if isQuote q' then some r' else none
      | _ => none
    else none
  | _ => none

/-- The chain that the text ends with, if a quoted subscript and a dot follow it. -/
def tableChainBeforeDot? (before : Text) : Option Text :=
  match (beforeDot? before).bind fun t => beforeSubscript? t.reverse with
  | none => none
  | some r => Text.longestSuffix? Text.isChain r.reverse

/-- Whether the character may stand in a dotted expression. -/
def isExpressionChar (c : Char) : Bool := c == '.' || Text.isIdentPart c

/-- The run of expression characters that the cursor is in or touches, if it has a letter or an
underscore. A column outside the line counts as the nearer end. -/
def expressionAt? (line : Text) (column : Int) : Option Text :=
  let before := (line.take column.toNat).reverse.takeWhile isExpressionChar
  let after := (line.drop column.toNat).takeWhile isExpressionChar
  let run := before.reverse ++ after
  if run.any Text.isIdentStart then some run else none

/-- Reads `database["Table"]` at the start of a text, giving the table and the length. -/
def tableReference? (t : Text) : Option (Text × Nat) :=
  match Text.after? "database[" t with
  | some (q :: r) =>
    if isQuote q then
      match Text.identifier? r with
      | some (name, q' :: ']' :: _) => if isQuote q' then some (name, name.length + 12) else none
      | _ => none
    else none
  | _ => none

/-- The same with one dot before it, if there is one. -/
def dottedTableReference? (t : Text) : Option (Text × Nat) :=
  match t with
  | '.' :: r => (tableReference? r).map fun m => (m.1, m.2 + 1)
  | _ => tableReference? t

/-- The table reference that covers the column, among those found from left to right without overlap.
`index` is the position of the text in the line; `skip` characters belong to the reference before. -/
def tableFrom? (column : Int) (index skip : Nat) : Text → Option Text
  | [] => none
  | c :: r =>
    match skip with
    | k + 1 => tableFrom? column (index + 1) k r
    | 0 =>
      match dottedTableReference? (c :: r) with
      | some (name, n) =>
        if (index : Int) ≤ column && column < (index + n : Nat) then some name
        else tableFrom? column (index + 1) (n - 1) r
      | none => tableFrom? column (index + 1) 0 r

/-- The table whose reference the cursor is in. -/
def tableAt? (line : Text) (column : Int) : Option Text := tableFrom? column 0 0 line

end EditorInsight.Cursor
