import DocLint.Command.Usage
import DocLint.Text.Digit

/-!
# Arguments

A command line is read in two passes. The first decides of each argument alone whether it is an option:
it starts with a hyphen, and is neither a hyphen alone, nor a negative number, nor a text with a space.
Long options may be shortened as long as only one fits, and a value may follow an equals sign. Behind two
hyphens nothing is an option.

The second pass goes through the arguments in order. An option takes the next argument as its value if it
needs one. The first unbroken run of other arguments is the paths; every later run fits nowhere. Two hyphens
right behind the equals sign of an option are dropped like any others: the option is given, but without a
value, which takes back an earlier one.
-/

namespace DocLint

/-- A command line, read. -/
structure Arguments where
  /-- The files and directories to scan. -/
  paths : List Text := []
  /-- The settings file. -/
  config : Option Text := none
  /-- The extensions, as they were given. -/
  extensions : Option Text := none
  /-- The patterns of paths to leave out; `none` for each one that was dropped. -/
  exclude : List (Option Text) := []
  /-- The codes of findings to drop; `none` for each one that was dropped. -/
  ignoreCodes : List (Option Text) := []
  /-- The report. -/
  report : Option ReportStyle := none
  /-- Are warnings dropped? -/
  noWarnings : Bool := false
  /-- Is each scanned file named? -/
  verbose : Bool := false
  /-- Are the tokens listed? -/
  debug : Bool := false

/-- Why a command line gives no arguments. -/
inductive ArgumentStop where
  /-- The help was asked for. -/
  | help
  /-- Something is wrong with it. -/
  | fault (fault : UsageFault)

/-! ## The first pass -/

/-- An argument on its own. -/
inductive Argument where
  /-- No option. -/
  | plain (text : Text)
  /-- The two hyphens behind which nothing is an option. -/
  | dashes
  /-- An option, as it is spelled, perhaps with a value. -/
  | option (option : CommandOption) (spelling : Text) (value : Option Text)
  /-- It looks like an option, but there is none like it. -/
  | unknown (text : Text)

namespace Argument

/-- May the argument be a path? -/
def isPath : Argument → Bool
  | plain _ | dashes => true
  | option .. | unknown _ => false

/-- Is the argument no option and not the two hyphens? -/
def isPlain : Argument → Bool
  | plain _ => true
  | _ => false

/-- The text of an argument that may be a path. -/
def text : Argument → Text
  | plain text | unknown text => text
  | dashes => "--".toList
  | option _ spelling _ => spelling

/-- Decimal digits only, and at least one. -/
def isDigits (text : Text) : Bool := !text.isEmpty && text.all Text.isDecimal

/-- Is the argument a negative number? A line end behind it does not count. -/
def isNegative (argument : Text) : Bool :=
  let number := match argument.getLast? with
    | some '\n' => argument.dropLast
    | _ => argument
  match number with
  | '-' :: number =>
    isDigits number ||
      (let fraction := number.dropWhile (· != '.')
       (number.takeWhile (· != '.')).all Text.isDecimal &&
         fraction.head? == some '.' && isDigits fraction.tail)
  | _ => false

/-- An argument with its value behind an equals sign. -/
def assignment? (argument : Text) : Option (Text × Text) :=
  match argument.dropWhile (· != '=') with
  | [] => none
  | _ :: value => some (argument.takeWhile (· != '='), value)

/-- The options that an argument may be short for, with their spellings and the value in it. -/
def candidates (argument : Text) : List (CommandOption × Text × Option Text) :=
  if "--".toList.isPrefixOf argument then
    let (start, value) := match assignment? argument with
      | some (start, value) => (start, some value)
      | none => (argument, none)
    (CommandOption.table.filter (start.isPrefixOf ·.1)).map fun (spelling, known) =>
      (known, spelling, value)
  else
    CommandOption.table.filterMap fun (spelling, known) =>
      if spelling == argument.take 2 then some (known, spelling, some (argument.drop 2))
      else if argument.isPrefixOf spelling then some (known, spelling, none)
      else none

/-- An argument that may be an option. -/
def ofText (argument : Text) : Except UsageFault Argument :=
  if argument.head? != some '-' then .ok (plain argument)
  else if let some known := CommandOption.ofSpelling? argument then
    .ok (option known argument none)
  else if argument.length = 1 then .ok (plain argument)
  else
    let assigned? := (assignment? argument).bind fun (spelling, value) =>
      (CommandOption.ofSpelling? spelling).map fun known => option known spelling (some value)
    match assigned?, candidates argument with
    | some exact, _ => .ok exact
    | none, [(known, spelling, value)] => .ok (option known spelling value)
    | none, [] =>
      if isNegative argument || argument.contains ' ' then .ok (plain argument)
      else .ok (unknown argument)
    | none, many => .error (.ambiguous argument (many.map fun (_, spelling, _) => spelling))

/-- The first pass. -/
def readAll : List Text → Except UsageFault (List Argument)
  | [] => .ok []
  | argument :: rest =>
    if argument = "--".toList then .ok (dashes :: rest.map plain)
    else do
      let first ← ofText argument
      return first :: (← readAll rest)

end Argument

/-! ## The second pass -/

/-- How far the second pass is. -/
structure ArgumentState where
  /-- What is read. -/
  arguments : Arguments := {}
  /-- Have the paths been read? -/
  hasPaths : Bool := false
  /-- What fits nowhere. -/
  extras : List Text := []

namespace ArgumentState

/-- Does what an option says. -/
def act (state : ArgumentState) (option : CommandOption) (value : Option Text) :
    Except ArgumentStop ArgumentState :=
  let arguments := state.arguments
  let set (arguments : Arguments) : Except ArgumentStop ArgumentState :=
    .ok { state with arguments }
  match option with
  | .help => .error .help
  | .config => set { arguments with config := value }
  | .extensions => set { arguments with extensions := value }
  | .exclude => set { arguments with exclude := arguments.exclude ++ [value] }
  | .ignoreCode => set { arguments with ignoreCodes := arguments.ignoreCodes ++ [value] }
  | .report =>
    match value with
    | none => set { arguments with report := none }
    | some name =>
      match ReportStyle.ofLabel? name with
      | some style => set { arguments with report := some style }
      | none => .error (.fault (.noReport name))
  | .noWarnings => set { arguments with noWarnings := true }
  | .verbose => set { arguments with verbose := true }
  | .debug => set { arguments with debug := true }

/-- Does what several options without a value say. -/
def actAll (state : ArgumentState) : List CommandOption → Except ArgumentStop ArgumentState
  | [] => .ok state
  | option :: rest => do (← state.act option none).actAll rest

/-- The options without a value that are written together behind one hyphen, from behind the letter of
`option` on. A letter that is no option is taken for a value of the option before it. -/
def together (option : CommandOption) : (letters : Text) → Except UsageFault (List CommandOption)
  | [] => .ok [option]
  | letter :: rest =>
    match CommandOption.ofSpelling? ['-', letter] with
    | none => .error (.spareValue option (letter :: rest))
    | some next => (option :: ·) <$> together next rest

/-- Reads an option with the value in its own argument. -/
def readWithin (state : ArgumentState) (option : CommandOption) (spelling value : Text) :
    Except ArgumentStop ArgumentState :=
  if option.takesValue then state.act option (if value = "--".toList then none else some value)
  else if "--".toList.isPrefixOf spelling || value.isEmpty then
    .error (.fault (.spareValue option value))
  else
    match together option value with
    | .error fault => .error (.fault fault)
    | .ok options => state.actAll options

/-- Reads an unbroken run of arguments that are no options. -/
def readRun (state : ArgumentState) (run : List Argument) : ArgumentState :=
  let texts := run.map (·.text)
  if !state.hasPaths && run.any (·.isPlain) then
    { state with
      hasPaths := true
      arguments := { state.arguments with paths := texts.erase "--".toList } }
  else { state with extras := state.extras ++ texts }

/-- The second pass. -/
def read (state : ArgumentState) : List Argument → Except ArgumentStop ArgumentState
  | [] => .ok state
  | .unknown text :: rest => read { state with extras := state.extras ++ [text] } rest
  | .option option spelling (some value) :: rest => do
    read (← state.readWithin option spelling value) rest
  | .option option _ none :: rest =>
    if option.takesValue then
      match rest with
      | .plain value :: rest => do read (← state.act option (some value)) rest
      | _ => .error (.fault (.noValue option))
    else do read (← state.act option none) rest
  | argument :: rest =>
    read (state.readRun (argument :: rest.takeWhile (·.isPath))) (rest.dropWhile (·.isPath))
termination_by arguments => arguments.length
decreasing_by
  all_goals simp only [List.length_cons]
  all_goals first
    | omega
    | exact Nat.lt_succ_of_le (List.dropWhile_suffix _).length_le

end ArgumentState

/-- Reads a command line. -/
def Arguments.ofTexts (texts : List Text) : Except ArgumentStop Arguments :=
  match Argument.readAll texts with
  | .error fault => .error (.fault fault)
  | .ok arguments => do
    let state ← ArgumentState.read {} arguments
    if !state.hasPaths then throw (.fault .noPaths)
    if !state.extras.isEmpty then throw (.fault (.unrecognized state.extras))
    return state.arguments

end DocLint
