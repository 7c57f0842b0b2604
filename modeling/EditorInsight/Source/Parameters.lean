import EditorInsight.Source.Nesting

/-!
# Parameter lists of signatures

A signature's parameters stand between its first opening parenthesis and the one that closes it.
When nothing closes it, the last closing parenthesis does.
-/

namespace EditorInsight

/-- What stands before the parenthesis that closes `depth + 1` open ones. -/
def beforeClosing? : Nat → Text → Option Text
  | _, [] => none
  | depth, '(' :: r => (beforeClosing? (depth + 1) r).map ('(' :: ·)
  | 0, ')' :: _ => some []
  | depth + 1, ')' :: r => (beforeClosing? depth r).map (')' :: ·)
  | depth, c :: r => (beforeClosing? depth r).map (c :: ·)

/-- The text between the parentheses of a signature. -/
def parameterText? (signature : Text) : Option Text :=
  match signature.dropWhile (· != '(') with
  | [] => none
  | _ :: inside =>
    match beforeClosing? 0 inside with
    | some t => some t
    | none => Text.beforeLast? ')' inside

/-- The parameters of a signature, one label each. -/
def parameterLabels (signature : Text) : List Text :=
  match parameterText? signature with
  | none => []
  | some t => splitTopLevel (Text.trim t)

/-- The index of the parameter that the cursor is in, after the arguments typed so far, and at most
the last one. -/
def activeParameter (arguments : Text) (count : Int) : Int :=
  min (topLevelCommas arguments) (max 0 (count - 1))

end EditorInsight
