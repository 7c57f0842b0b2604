import EditorInsight.Text.Basic

/-!
# Moments

A date and a time of day, and the ways in which logs write them.
-/

namespace EditorInsight

structure Moment where
  year : Nat
  month : Nat
  day : Nat
  hour : Nat
  minute : Nat
  second : Nat
  microsecond : Nat

namespace Moment

/-- A number with at least the given number of digits. -/
def digits (width n : Nat) : Text :=
  let ds := Text.ofNat n
  List.replicate (width - ds.length) '0' ++ ds

def dayText (m : Moment) : Text := digits 4 m.year ++ digits 2 m.month ++ digits 2 m.day

def timeOfDay (m : Moment) : Text :=
  Text.join [':'] [digits 2 m.hour, digits 2 m.minute, digits 2 m.second]

def date (m : Moment) : Text :=
  Text.join ['-'] [digits 4 m.year, digits 2 m.month, digits 2 m.day]

/-- The moment to the microsecond, as in the lines of a log file. -/
def stamp (m : Moment) : Text :=
  m.date ++ ['T'] ++ m.timeOfDay ++ ['.'] ++ digits 6 m.microsecond ++ ['Z']

/-- The moment on a console: to the second beside a log file, to the millisecond without one. -/
def consoleStamp (m : Moment) (hasFile : Bool) : Text :=
  m.date ++ [' '] ++ m.timeOfDay ++
    if hasFile then [] else [','] ++ digits 3 (m.microsecond / 1000)

end Moment
end EditorInsight
