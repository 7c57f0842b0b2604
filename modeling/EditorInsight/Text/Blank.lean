import EditorInsight.Text.Basic

/-!
# Blank characters and trimming

Blank characters are those with the Unicode white-space property together with the four
information separators U+001C to U+001F. The zero-width space and the byte-order mark are not
blank.
-/

namespace EditorInsight.Text

/-- Whether a character is white space. -/
def isBlank (c : Char) : Bool :=
  let n := c.val.toNat
  (9 ≤ n && n ≤ 13) || (28 ≤ n && n ≤ 32) || n == 0x85 || n == 0xA0 || n == 0x1680 ||
    (0x2000 ≤ n && n ≤ 0x200A) || n == 0x2028 || n == 0x2029 || n == 0x202F || n == 0x205F ||
    n == 0x3000

def trimLeft (t : Text) : Text := t.dropWhile isBlank

def trimRight (t : Text) : Text := (t.reverse.dropWhile isBlank).reverse

def trim (t : Text) : Text := trimRight (trimLeft t)

/-- Whether the text has no other than blank characters. -/
def isBlankText (t : Text) : Bool := t.all isBlank

/-- Every run of blank characters becomes one space; `gap` tells whether such a run has begun. -/
def collapseFrom : Bool → Text → Text
  | _, [] => []
  | gap, c :: r =>
    if isBlank c then (if gap then collapseFrom true r else ' ' :: collapseFrom true r)
    else c :: collapseFrom false r

/-- Single spaces for runs of blank characters, and none at either end. -/
def normalizeBlanks (t : Text) : Text := trim (collapseFrom false t)

/-- Whether `p` holds of the text after some of its leading blank characters, possibly none. -/
def afterBlanks (p : Text → Bool) : Text → Bool
  | [] => p []
  | c :: r => p (c :: r) || (isBlank c && afterBlanks p r)

/-- The rest after at least one blank character and all that follow it. -/
def skipBlanks1? : Text → Option Text
  | [] => none
  | c :: r => if isBlank c then some (trimLeft r) else none

end EditorInsight.Text
