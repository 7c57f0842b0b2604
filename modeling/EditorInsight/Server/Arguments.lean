import EditorInsight.Files.Path
import EditorInsight.Text.Digit
import EditorInsight.Text.Quoted

/-!
# Command line arguments

Options take one value each, as the next argument or after an equals sign, and may be shortened as
long as they stay unambiguous. Arguments are first sorted into options and others, then read from left
to right; what is left over is refused at the end.
-/

namespace EditorInsight

/-- The value of an option. Two dashes attached to an option are dropped, which leaves no value. -/
inductive OptionValue where
  | text (t : Text)
  | dropped
  deriving DecidableEq

/-- How a value is shown; what is left of a dropped one is an empty list. -/
def OptionValue.display : OptionValue → Text
  | text t => t
  | dropped => "[]"

/-- The text of a value that was not dropped. -/
def OptionValue.text? : OptionValue → Option Text
  | text t => some t
  | dropped => none

structure Arguments where
  workspace : Option OptionValue := none
  transport : OptionValue := .text "stdio"
  logFolder : Option OptionValue := none
  deriving DecidableEq

/-- Why the program ends before it starts. -/
inductive ArgumentStop where
  | help
  | refused (message : Text)
  deriving DecidableEq

inductive CommandOption where
  | help
  | workspace
  | transport
  | logFolder
  deriving DecidableEq

namespace CommandOption

/-- All spellings of all options, in the order in which they are offered. -/
def spellings : List (Text × CommandOption) :=
  [("-h", help), ("--help", help), ("--workspace", workspace), ("--transport", transport),
    ("--log-dir", logFolder)]

/-- The spellings of one option, as complaints give them. -/
def name (o : CommandOption) : Text :=
  Text.join ['/'] ((spellings.filter fun s => s.2 = o).map Prod.fst)

end CommandOption

namespace Arguments

def transports : List Text := ["stdio", "streamable-http", "sse"]

/-- What an argument looks like. -/
inductive Shape where
  | value
  /-- The two dashes after which everything is a value. -/
  | separator
  | unknown
  /-- An option, whether it is the short one, and what is attached to it. -/
  | option (o : CommandOption) (isShort : Bool) (attached : Option Text)

def splitEquals (t : Text) : Text × Option Text :=
  match t.dropWhile (· != '=') with
  | [] => (t, none)
  | _ :: r => (t.takeWhile (· != '='), some r)

/-- A dash and a number, in digits of any script. -/
def isNegativeNumber (t : Text) : Bool :=
  let u := if t.getLast? = some '\n' then t.dropLast else t
  match u with
  | '-' :: r =>
    (r ≠ [] && r.all Text.isDecimalDigit) ||
      (match r.dropWhile Text.isDecimalDigit with
        | '.' :: f => f ≠ [] && f.all Text.isDecimalDigit
        | _ => false)
  | _ => false

/-- The options that a shortened spelling may stand for. -/
def candidates (t : Text) : List (Text × CommandOption) :=
  CommandOption.spellings.filter fun s => t.isPrefixOf s.1

/-- Sorts an argument that starts with a dash and is not an option in full. -/
def shapeOfDashed (t : Text) : Except ArgumentStop Shape :=
  let fallback : Shape := if isNegativeNumber t || t.any (· == ' ') then .value else .unknown
  match t with
  | '-' :: '-' :: _ =>
    let (name, attached) := splitEquals t
    match candidates name with
    | [] => .ok fallback
    | [(_, o)] => .ok (.option o false attached)
    | many => .error (.refused ("ambiguous option: " ++ t ++ " could match " ++
        Text.join ", " (many.map Prod.fst)))
  | '-' :: 'h' :: r => .ok (.option .help true (some r))
  | _ => .ok fallback

/-- Sorts an argument. -/
def shape (t : Text) : Except ArgumentStop Shape :=
  if t.head? ≠ some '-' then .ok .value
  else
    let isShort (s : Text) : Bool := s.length = 2
    match CommandOption.spellings.lookup t with
    | some o => .ok (.option o (isShort t) none)
    | none =>
      if t.length = 1 then .ok .value
      else match splitEquals t with
        | (name, some a) =>
          match CommandOption.spellings.lookup name with
          | some o => .ok (.option o (isShort name) (some a))
          | none => shapeOfDashed t
        | (_, none) => shapeOfDashed t

def shapes : List Text → Except ArgumentStop (List (Text × Shape))
  | [] => .ok []
  | t :: r =>
    if t = ['-', '-'] then .ok ((t, .separator) :: r.map fun u => (u, .value))
    else do return (t, ← shape t) :: (← shapes r)

def complain {α : Type} (o : CommandOption) (problem : Text) : Except ArgumentStop α :=
  .error (.refused ("argument " ++ o.name ++ ": " ++ problem))

/-- The help option takes no value. -/
def ignored (a : Text) : ArgumentStop :=
  .refused ("argument " ++ CommandOption.help.name ++ ": ignored explicit argument " ++ Text.quote a)

/-- What follows the short spelling of the help option in one argument: nothing but the same letter
again. -/
def shortHelp : Text → ArgumentStop
  | ['h'] => .help
  | 'h' :: r => shortHelp r
  | r => ignored r

/-- The help option, with what is attached to it. -/
def stopForHelp (isShort : Bool) : Option Text → ArgumentStop
  | none => .help
  | some a => if isShort then shortHelp a else ignored a

def assign (args : Arguments) (o : CommandOption) (value : Text) : Except ArgumentStop Arguments :=
  match o with
  | .help => .error .help
  | .workspace => .ok { args with workspace := some (.text (Path.tidy value)) }
  | .logFolder => .ok { args with logFolder := some (.text (Path.tidy value)) }
  | .transport =>
    if transports.elem value then .ok { args with transport := .text value }
    else complain o ("invalid choice: " ++ Text.quote value ++ " (choose from " ++
      Text.join ", " (transports.map Text.quote) ++ ")")

/-- Takes an option whose value is dropped. -/
def assignDropped (args : Arguments) : CommandOption → Except ArgumentStop Arguments
  | .help => .error .help
  | .workspace => .ok { args with workspace := some .dropped }
  | .logFolder => .ok { args with logFolder := some .dropped }
  | .transport => .ok { args with transport := .dropped }

/-- Takes a value that is attached to an option. -/
def attach (args : Arguments) (o : CommandOption) (value : Text) : Except ArgumentStop Arguments :=
  if value = ['-', '-'] then args.assignDropped o else args.assign o value

/-- Reads sorted arguments; `extras` are those that belong to no option. -/
def read (args : Arguments) (extras : List Text) :
    List (Text × Shape) → Except ArgumentStop (Arguments × List Text)
  | [] => .ok (args, extras)
  | (_, .option .help isShort attached) :: _ => .error (stopForHelp isShort attached)
  | (_, .option o _ (some value)) :: r => do read (← args.attach o value) extras r
  | (_, .option o _ none) :: (value, .value) :: r => do read (← args.assign o value) extras r
  | (_, .option o _ none) :: _ => complain o "expected one argument"
  | (t, _) :: r => read args (extras ++ [t]) r

/-- The meaning of a command line. -/
def parse (argv : List Text) : Except ArgumentStop Arguments := do
  match ← read {} [] (← shapes argv) with
  | (args, []) => return args
  | (_, extras) => throw (.refused ("unrecognized arguments: " ++ Text.join [' '] extras))

end Arguments
end EditorInsight
