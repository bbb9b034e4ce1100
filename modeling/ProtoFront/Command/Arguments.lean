import ProtoFront.Command.Basic

/-!
# Command lines

A command line names a command and what the command is about. Behind the name the options of that
command may stand anywhere, a letter after one dash or a word after two, and those that take a value
have it in the same argument or in the next. After two dashes alone nothing is an option. More
logging can be asked for on both sides of the name; what is asked for behind it then counts alone.
-/

namespace ProtoFront

/-- Which command there is to run. -/
inductive CommandName where
  | check
  | tree
  | resolve
  deriving DecidableEq, Repr, Inhabited

/-- The command of a name. -/
def CommandName.ofWord? : String → Option CommandName
  | "check" => some check
  | "tree" => some tree
  | "resolve" => some resolve
  | _ => none

/-- An option that takes a value. -/
inductive ValueOption where
  | format
  | includeDir
  deriving DecidableEq, Repr, Inhabited

/-- What stands behind the name of a command, sorted. -/
structure Arguments where
  name : CommandName
  /-- what is no option, in order -/
  paths : List Path
  /-- how often more logging is asked for -/
  verbosity : Nat
  plain : Bool
  showReferences : Bool
  format? : Option TreeFormat
  includeDirs : List Path
  /-- the option whose value is in the next argument -/
  pending? : Option ValueOption
  /-- whether options may still come -/
  optionsEnded : Bool
  deriving DecidableEq, Repr, Inhabited

namespace Arguments

/-- The name alone. -/
def start (name : CommandName) : Arguments := ⟨name, [], 0, false, false, none, [], none, false⟩

/-- A path has at least one character. -/
def path? (text : String) : Option Path := if text.isEmpty then none else some ⟨text⟩

/-- Adds an argument that is no option. -/
def addPath (arguments : Arguments) (text : String) : Option Arguments :=
  (path? text).map fun path => { arguments with paths := arguments.paths ++ [path] }

/-- Asks for more logging. -/
def addVerbosity (arguments : Arguments) : Arguments :=
  { arguments with verbosity := arguments.verbosity + 1 }

/-- Asks for short reports, which is done once at most. -/
def setPlain (arguments : Arguments) : Option Arguments :=
  if arguments.plain then none else some { arguments with plain := true }

/-- Asks for the references, which is done once at most. -/
def setShowReferences (arguments : Arguments) : Option Arguments :=
  if arguments.showReferences then none else some { arguments with showReferences := true }

/-- Chooses how the tree is shown, which is done once at most. -/
def setFormat (arguments : Arguments) (format : TreeFormat) : Option Arguments :=
  if arguments.format?.isSome then none else some { arguments with format? := some format }

/-- Gives an option its value. -/
def setOption (arguments : Arguments) (option : ValueOption) (value : String) :
    Option Arguments :=
  let arguments := { arguments with pending? := none }
  match option, value with
  | .format, "text" => arguments.setFormat .text
  | .format, "json" => arguments.setFormat .json
  | .format, _ => none
  | .includeDir, dir =>
    (path? dir).map fun dir => { arguments with includeDirs := arguments.includeDirs ++ [dir] }

/-- Gives an option the value that stands with it, or leaves it to the next argument. -/
def setOrAwait (arguments : Arguments) (option : ValueOption) (value? : Option String) :
    Option Arguments :=
  match value? with
  | some value => arguments.setOption option value
  | none => some { arguments with pending? := some option }

/-- Takes in an option that is a word; its value may follow an equals sign. -/
def addLongOption (arguments : Arguments) (text : List Char) : Option Arguments :=
  let word := String.ofList (text.takeWhile (· != '='))
  let value? := (text.dropWhile (· != '=')).tail?.map String.ofList
  match arguments.name, word, value? with
  | _, "verbose", none => some arguments.addVerbosity
  | .check, "plain", none => arguments.setPlain
  | .tree, "format", value? => arguments.setOrAwait .format value?
  | .resolve, "include", value? => arguments.setOrAwait .includeDir value?
  | .resolve, "references", none => arguments.setShowReferences
  | _, _, _ => none

/-- The value that follows a letter in the same argument, if any. -/
def attachedValue? : List Char → Option String
  | [] => none
  | '=' :: value => some (String.ofList value)
  | value => some (String.ofList value)

/-- Takes in options that are letters. -/
def addLetters (arguments : Arguments) : List Char → Option Arguments
  | [] => some arguments
  | letter :: rest =>
    match arguments.name, letter with
    | _, 'v' => arguments.addVerbosity.addLetters rest
    | .tree, 'f' => arguments.setOrAwait .format (attachedValue? rest)
    | .resolve, 'I' => arguments.setOrAwait .includeDir (attachedValue? rest)
    | _, _ => none

/-- Takes in an argument. A dash alone is a path, and no option can be the value of another. -/
def add (arguments : Arguments) (argument : String) : Option Arguments :=
  if arguments.optionsEnded then arguments.addPath argument
  else
    match arguments.pending?, argument.toList with
    | none, ['-', '-'] => some { arguments with optionsEnded := true }
    | none, '-' :: '-' :: option => arguments.addLongOption option
    | none, '-' :: letter :: letters => arguments.addLetters (letter :: letters)
    | none, _ => arguments.addPath argument
    | some _, '-' :: _ :: _ => none
    | some option, _ => arguments.setOption option argument

/-- The command that the arguments ask for. -/
def command? (arguments : Arguments) : Option Command :=
  match arguments.pending?, arguments.name, arguments.paths with
  | none, .check, input :: inputs => some (.check (input :: inputs) arguments.plain)
  | none, .tree, [file] => some (.tree file (arguments.format?.getD .text))
  | none, .resolve, [entry] =>
    some (.resolve entry arguments.includeDirs arguments.showReferences)
  | _, _, _ => none

end Arguments

namespace CommandLine

/-- How often an argument that stands before the command's name asks for more logging. -/
def verbosityOf? (argument : String) : Option Nat :=
  match argument.toList with
  | '-' :: 'v' :: letters => if letters.all (· == 'v') then some (letters.length + 1) else none
  | _ => if argument = "--verbose" then some 1 else none

/-- How often more logging is asked for before the command's name, the name, and what stands
behind it. -/
def splitAtName? : List String → Option (Nat × CommandName × List String)
  | [] => none
  | argument :: rest =>
    match verbosityOf? argument with
    | some count => (splitAtName? rest).map fun (verbosity, split) => (count + verbosity, split)
    | none => (CommandName.ofWord? argument).map fun name => (0, name, rest)

/-- How much logging is asked for: a wish behind the command's name replaces those before it. -/
def verbosity (before behind : Nat) : Nat := if behind = 0 then before else behind

/-- The command that a command line asks for, and how much logging. -/
def read (line : List String) : Option (Command × Nat) := do
  let (before, name, rest) ← splitAtName? line
  let arguments ← rest.foldlM Arguments.add (Arguments.start name)
  return (← arguments.command?, verbosity before arguments.verbosity)

end CommandLine

/-- The level of the log when more logging is asked for so often. -/
def LogLevel.ofVerbosity : Nat → LogLevel
  | 0 => warn
  | 1 => debug
  | _ => trace

end ProtoFront
