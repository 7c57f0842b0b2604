import EditorInsight.Text.Word
import EditorInsight.Text.LowercaseTable
import EditorInsight.Text.CasedTable

/-!
# Lower case

The lower-case form of a text. The capital I with a dot above has a form of two characters, so the
length of a text may change. The Greek capital sigma has another form at the end of a word.
-/

namespace EditorInsight.Text

/-- The lower-case form of one character, wherever it stands. -/
def lowerChar (c : Char) : Text :=
  let n := c.val.toNat
  if n < 128 then [c.toLower]
  else if n = 0x130 then ['i', Char.ofNat 0x307]
  else
    match lowercaseRuns.find? fun r => r.first ≤ n && n ≤ r.last && (n - r.first) % r.step == 0 with
    | some r => [Char.ofNat (n + r.distance).toNat]
    | none => [c]

/-- Whether the first character that is not case-ignorable is a cased letter. -/
def leadsToCased (t : Text) : Bool :=
  match t.dropWhile fun c => inRanges caseIgnorableRanges c.val.toNat with
  | [] => false
  | c :: _ => inRanges casedRanges c.val.toNat

/-- The lower-case form of the text, where `before` is what precedes it, last character first. -/
def lowerFrom (before : Text) : Text → Text
  | [] => []
  | c :: r =>
    let here :=
      if c.val.toNat = 0x3A3 then
        [Char.ofNat (if leadsToCased before && !leadsToCased r then 0x3C2 else 0x3C3)]
      else lowerChar c
    here ++ lowerFrom (c :: before) r

def lower (t : Text) : Text := lowerFrom [] t

end EditorInsight.Text
