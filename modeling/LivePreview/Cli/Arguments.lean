/-
  LivePreview.Cli.Arguments
  ─────────────────────────
  **The arguments of the command line.**

  An option takes the argument behind it as its value, whatever that is; flags and
  options may stand anywhere, and an option given twice has its last value.  What is
  left are at most two positionals, the name of an action and a directory.
-/
namespace LivePreview.Cli

/-- What the program is asked to do with a directory. -/
inductive Action where
  | preview
  | snapshot
  deriving DecidableEq, Repr

/-- The name of an action. -/
def Action.name : Action → String
  | .preview => "preview"
  | .snapshot => "snapshot"

/-- The action with a name. -/
def Action.ofName? : String → Option Action
  | "preview" => some .preview
  | "snapshot" => some .snapshot
  | _ => none

/-- The options that take a value. -/
inductive Setting where
  | entry
  | out
  | title
  deriving DecidableEq, Repr

/-- The option with a name. -/
def Setting.ofName? : String → Option Setting
  | "--entry" => some .entry
  | "--out" => some .out
  | "--title" => some .title
  | _ => none

/-- What the arguments say. -/
structure Arguments where
  action? : Option Action := none
  directory? : Option String := none
  entryPath? : Option String := none
  outFile? : Option String := none
  title? : Option String := none
  showHelp : Bool := false
  showVersion : Bool := false
  deriving DecidableEq, Repr, Inhabited

/-- Why arguments are rejected. -/
inductive ArgumentFault where
  | missingValue (option : String)
  | unknownOption (argument : String)
  | unknownAction (argument : String)
  | surplus (argument : String)
  deriving DecidableEq, Repr

/-- The wording of a fault, in lines. -/
def ArgumentFault.message : ArgumentFault → String
  | .missingValue option => "Error: " ++ option ++ " requires a value\n"
  | .unknownOption argument => "Unknown option: " ++ argument ++ "\n" ++ hint
  | .unknownAction argument => "Unknown command: " ++ argument ++ "\n" ++ hint
  | .surplus argument => "Unexpected argument: " ++ argument ++ "\n"
where
  hint : String := "Run 'workbench --help' for usage.\n"

namespace Arguments

/-- Give an option a value. -/
def set (arguments : Arguments) (setting : Setting) (value : String) : Arguments :=
  match setting with
  | .entry => { arguments with entryPath? := some value }
  | .out => { arguments with outFile? := some value }
  | .title => { arguments with title? := some value }

/-- Take a positional. -/
def addPositional (arguments : Arguments) (argument : String) :
    Except ArgumentFault Arguments :=
  match arguments.action?, arguments.directory? with
  | none, _ =>
    match Action.ofName? argument with
    | some action => .ok { arguments with action? := some action }
    | none => .error (.unknownAction argument)
  | some _, none => .ok { arguments with directory? := some argument }
  | some _, some _ => .error (.surplus argument)

/-- Take an argument that is no option with a value. -/
def add (arguments : Arguments) (argument : String) : Except ArgumentFault Arguments :=
  if argument == "--help" || argument == "-h" then .ok { arguments with showHelp := true }
  else if argument == "--version" || argument == "-v" then
    .ok { arguments with showVersion := true }
  else if argument.toList.head? == some '-' then .error (.unknownOption argument)
  else arguments.addPositional argument

/-- Take arguments, from left to right. -/
def parseFrom (arguments : Arguments) : List String → Except ArgumentFault Arguments
  | [] => .ok arguments
  | argument :: rest =>
    match Setting.ofName? argument with
    | some setting =>
      match rest with
      | [] => .error (.missingValue argument)
      | value :: rest => parseFrom (arguments.set setting value) rest
    | none =>
      match arguments.add argument with
      | .ok arguments => parseFrom arguments rest
      | .error fault => .error fault

/-- Read the arguments of the command line. -/
def parse (argv : List String) : Except ArgumentFault Arguments :=
  parseFrom {} argv

end Arguments

end LivePreview.Cli
