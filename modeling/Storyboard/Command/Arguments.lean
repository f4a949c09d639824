import Storyboard.Folder.Path
import Storyboard.Text.Digit
import Storyboard.Text.Quoted

/-!
# Command-line arguments

The command takes one input and some options. An option is given by its name,
or by a beginning of its long name that no other option shares. Its value is
the next argument, or what is attached to the name: behind an equals sign, or,
for a short name, directly. What is attached to a short name that has no value
is further short names: `-vo x` and `-v=o x` are `-v -o x`.

Everything after `--` is an operand, and so is a lone `-`, a negative number,
and whatever has a space in it and is no option. Attached to the name of an
option, `--` is no value either: it leaves the option with an empty one.

Arguments are first told apart, all of them, and then taken in order.

## Main definitions

* `Opt` — the options.
* `Token`, `classify` — arguments told apart.
* `Settings`, `parse` — what the arguments ask for.
* `Stop`, `UsageError.message` — why they are not followed.
-/

namespace Storyboard.Command

/-! ## Options -/

/-- The options of the command. -/
inductive Opt where
  | help
  | output
  | format
  | font
  | noShadow
  | check
  | verbose
deriving DecidableEq, Repr

namespace Opt

/-- Every option, in the order of the help text. -/
def all : List Opt := [.help, .output, .format, .font, .noShadow, .check, .verbose]

/-- The names of an option, the short one first. -/
def names : Opt → List String
  | .help => ["-h", "--help"]
  | .output => ["-o", "--output"]
  | .format => ["--format"]
  | .font => ["--font"]
  | .noShadow => ["--no-shadow"]
  | .check => ["--check"]
  | .verbose => ["-v", "--verbose"]

/-- Whether an option has a value. -/
def takesValue : Opt → Bool
  | .output => true
  | .format => true
  | .font => true
  | _ => false

/-- Every name with its option, in order. -/
def table : List (String × Opt) :=
  all.flatMap fun o => o.names.map fun n => (n, o)

/-- The option with a name. -/
def ofName? (name : String) : Option Opt := table.lookup name

/-- An option as it is called in a message. -/
def title (o : Opt) : String := String.intercalate "/" o.names

end Opt

/-! ## Faults -/

/-- What can be wrong with the arguments. -/
inductive UsageError where
  /-- A beginning that several options share. -/
  | ambiguous (argument : String) (names : List String)
  /-- A value given to an option that has none. -/
  | ignoredValue (opt : Opt) (value : String)
  | missingValue (opt : Opt)
  | badFormat (value : String)
  | missingInput
  | unrecognized (arguments : List String)
deriving DecidableEq, Repr

/-- The wording of a fault. -/
def UsageError.message : UsageError → String
  | .ambiguous argument names =>
    "ambiguous option: " ++ argument ++ " could match " ++ String.intercalate ", " names
  | .ignoredValue opt value =>
    "argument " ++ opt.title ++ ": ignored explicit argument " ++ Text.quoted value
  | .missingValue opt => "argument " ++ opt.title ++ ": expected one argument"
  | .badFormat value =>
    "argument " ++ Opt.format.title ++ ": invalid choice: " ++ Text.quoted value ++
      " (choose from 'txt', 'png')"
  | .missingInput => "the following arguments are required: input"
  | .unrecognized arguments =>
    "unrecognized arguments: " ++ String.intercalate " " arguments

/-- Why the arguments are not followed: help was asked for, or there is a
fault in them. -/
inductive Stop where
  | help
  | usage (error : UsageError)
deriving DecidableEq, Repr

/-! ## Telling arguments apart -/

/-- The two kinds of names. -/
inductive NameLength where
  | short
  | long
deriving DecidableEq, Repr

/-- An argument told apart. -/
inductive Token where
  | operand (text : String)
  /-- The argument that ends the options. -/
  | endOfOptions
  /-- An option, the kind of name it is called by, and what is attached to the
  name. -/
  | option (opt : Opt) (length : NameLength) (attached : Option (List Char))
  | unknown (text : String)
deriving DecidableEq, Repr

/-- The kind of a name: a long one starts with two dashes. -/
def NameLength.ofName (name : List Char) : NameLength :=
  if ['-', '-'].isPrefixOf name then .long else .short

/-- The option of an argument that calls it by `name`. -/
def Token.ofName (name : List Char) (opt : Opt) (attached : Option (List Char)) : Token :=
  .option opt (.ofName name) attached

/-- Drops the digits at the start of a text. -/
def dropDigits (cs : List Char) : List Char := cs.dropWhile Text.isDigit

/-- Whether a text ends, a single line feed apart. -/
def atEnd (cs : List Char) : Bool := cs = [] || cs = ['\n']

/-- Whether an argument is a negative number: a minus sign and digits, with
digits behind a point if there is one. -/
def isNegativeNumber : List Char → Bool
  | '-' :: rest =>
    let afterWhole := dropDigits rest
    (afterWhole ≠ rest && atEnd afterWhole) ||
      match afterWhole with
      | '.' :: fraction => dropDigits fraction ≠ fraction && atEnd (dropDigits fraction)
      | _ => false
  | _ => false

/-- The readings of an argument with two dashes as the beginning of a long
name. -/
def longReadings (cs : List Char) : List (String × Token) :=
  let (start, attached) := match Text.cutFirst? ['='] cs with
    | some (start, value) => (start, some value)
    | none => (cs, none)
  Opt.table.filterMap fun (name, opt) =>
    if start.isPrefixOf name.toList then some (name, .ofName name.toList opt attached) else none

/-- The readings of an argument with one dash as a short name with something
attached to it. -/
def shortReadings (cs : List Char) : List (String × Token) :=
  Opt.table.filterMap fun (name, opt) =>
    if name.toList = cs.take 2 then some (name, .ofName name.toList opt (some (cs.drop 2)))
    else none

/-- An argument with dashes that is not an option's name in full. -/
def classifyPartial (text : String) : Except UsageError Token :=
  let cs := text.toList
  let readings := if ['-', '-'].isPrefixOf cs then longReadings cs else shortReadings cs
  match readings with
  | [(_, token)] => .ok token
  | _ :: _ :: _ => .error (.ambiguous text (readings.map (·.1)))
  | [] =>
    if isNegativeNumber cs || ' ' ∈ cs then .ok (.operand text) else .ok (.unknown text)

/-- Tells one argument apart. -/
def classify (text : String) : Except UsageError Token :=
  match text.toList with
  | [] => .ok (.operand text)
  | ['-'] => .ok (.operand text)
  | '-' :: _ =>
    match Opt.ofName? text with
    | some opt => .ok (.ofName text.toList opt none)
    | none =>
      match Text.cutFirst? ['='] text.toList with
      | none => classifyPartial text
      | some (name, value) =>
        match Opt.ofName? (String.ofList name) with
        | some opt => .ok (.ofName name opt (some value))
        | none => classifyPartial text
  | _ => .ok (.operand text)

/-- Tells arguments apart, up to the end of the options and beyond it. -/
def classifyAll : List String → Except UsageError (List Token)
  | [] => .ok []
  | text :: rest =>
    if text = "--" then .ok (.endOfOptions :: rest.map .operand)
    else
      match classify text with
      | .error e => .error e
      | .ok token => (classifyAll rest).map (token :: ·)

/-! ## Attached values and options -/

/-- What an option is given. -/
inductive Value where
  | text (s : String)
  /-- No text, not even an empty one. -/
  | nothing
deriving DecidableEq, Repr

/-- The value attached to an option; `--` is none. -/
def Value.ofAttached (cs : List Char) : Value :=
  if cs = ['-', '-'] then .nothing else .text (String.ofList cs)

/-- What an argument with options asks for: options with what they are given,
and an option that waits for the next argument. -/
structure Expansion where
  given : List (Opt × Value) := []
  waiting : Option Opt := none
deriving DecidableEq, Repr

/-- An option without anything attached: its value comes next, if it has
one. -/
def expandBare (opt : Opt) : Expansion :=
  if opt.takesValue then { waiting := some opt } else { given := [(opt, .nothing)] }

/-- An option called by its long name with something attached, which must be
its value. -/
def expandLong (opt : Opt) (attached : List Char) : Except UsageError Expansion :=
  if opt.takesValue then .ok { given := [(opt, .ofAttached attached)] }
  else .error (.ignoredValue opt (String.ofList attached))

/-- An option called by its short name with something attached: its value, or
further short names. -/
def expandShort : Opt → List Char → Except UsageError Expansion
  | opt, [] => expandLong opt []
  | opt, c :: rest =>
    if opt.takesValue then expandLong opt (c :: rest)
    else
      match Opt.ofName? (String.ofList ['-', c]) with
      | none => .error (.ignoredValue opt (String.ofList (c :: rest)))
      | some next =>
        (if rest = [] then .ok (expandBare next) else expandShort next rest).map fun e =>
          { e with given := (opt, .nothing) :: e.given }

/-- What an option with its attachment asks for. -/
def expand (opt : Opt) : NameLength → Option (List Char) → Except UsageError Expansion
  | _, none => .ok (expandBare opt)
  | .long, some attached => expandLong opt attached
  | .short, some attached => expandShort opt attached

/-! ## Settings -/

/-- The formats of a diagram. -/
inductive Format where
  | txt
  | png
deriving DecidableEq, Repr

/-- The format with a name. -/
def Format.ofName? (name : String) : Option Format :=
  if name = "txt" then some .txt else if name = "png" then some .png else none

/-- The output that the options name. -/
inductive Output where
  | unnamed
  | file (path : Path)
  /-- An output was asked for with an empty value. -/
  | emptied
deriving DecidableEq, Repr

/-- What the options ask for. -/
structure Settings where
  output : Output := .unnamed
  format : Option Format := none
  font : Option String := none
  noShadow : Bool := false
  check : Bool := false
  verbose : Bool := false
deriving DecidableEq, Repr

/-- Takes one option; an option given again replaces what it was before. A
format or a font with an empty value is as good as none. -/
def Settings.take (s : Settings) : Opt → Value → Except Stop Settings
  | .help, _ => .error .help
  | .output, .text path => .ok { s with output := .file (Path.ofString path) }
  | .output, .nothing => .ok { s with output := .emptied }
  | .format, .text name =>
    match Format.ofName? name with
    | some f => .ok { s with format := some f }
    | none => .error (.usage (.badFormat name))
  | .format, .nothing => .ok { s with format := none }
  | .font, .text name => .ok { s with font := some name }
  | .font, .nothing => .ok { s with font := none }
  | .noShadow, _ => .ok { s with noShadow := true }
  | .check, _ => .ok { s with check := true }
  | .verbose, _ => .ok { s with verbose := true }

/-- Takes options in order. -/
def Settings.takeAll (s : Settings) : List (Opt × Value) → Except Stop Settings
  | [] => .ok s
  | (opt, value) :: rest =>
    match s.take opt value with
    | .error stop => .error stop
    | .ok next => next.takeAll rest

/-- What the arguments taken so far ask for: the input, the settings, and the
arguments that are not understood. -/
structure Taken where
  input : Option String := none
  settings : Settings := {}
  extras : List String := []
deriving DecidableEq, Repr

/-- Takes the options of one argument. -/
def Taken.options (t : Taken) (given : List (Opt × Value)) : Except Stop Taken :=
  (t.settings.takeAll given).map fun s => { t with settings := s }

/-- Takes arguments in order. The first operand is the input; the argument
that ends the options goes with it if it stands beside it. -/
def takeTokens : Taken → List Token → Except Stop Taken
  | t, [] => .ok t
  | t, .operand text :: .endOfOptions :: rest =>
    if t.input.isNone then takeTokens { t with input := some text } rest
    else takeTokens { t with extras := t.extras ++ [text, "--"] } rest
  | t, .operand text :: rest =>
    if t.input.isNone then takeTokens { t with input := some text } rest
    else takeTokens { t with extras := t.extras ++ [text] } rest
  | t, .endOfOptions :: .operand text :: rest =>
    if t.input.isNone then takeTokens { t with input := some text } rest
    else takeTokens { t with extras := t.extras ++ ["--", text] } rest
  | t, .endOfOptions :: rest => takeTokens { t with extras := t.extras ++ ["--"] } rest
  | t, .unknown text :: rest => takeTokens { t with extras := t.extras ++ [text] } rest
  | t, .option opt length attached :: rest =>
    match expand opt length attached with
    | .error e => .error (.usage e)
    | .ok e =>
      match e.waiting with
      | none =>
        match t.options e.given with
        | .error stop => .error stop
        | .ok next => takeTokens next rest
      | some waiting =>
        match rest with
        | .operand value :: more =>
          match t.options (e.given ++ [(waiting, .text value)]) with
          | .error stop => .error stop
          | .ok next => takeTokens next more
        | _ => .error (.usage (.missingValue waiting))

/-- The input and the settings that the arguments ask for. -/
def parse (arguments : List String) : Except Stop (String × Settings) :=
  match classifyAll arguments with
  | .error e => .error (.usage e)
  | .ok tokens =>
    match takeTokens {} tokens with
    | .error stop => .error stop
    | .ok t =>
      match t.input, t.extras with
      | none, _ => .error (.usage .missingInput)
      | some input, [] => .ok (input, t.settings)
      | some _, extras => .error (.usage (.unrecognized extras))

end Storyboard.Command
