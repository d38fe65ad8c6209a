import MbsClient.Command

/-!
# Command line — arguments and exit codes

    [-c FILE] [-e LEVEL] plan SCENARIO [--ack]
    [-c FILE] [-e LEVEL] diff OLD NEW [--kind session|subscription|media-component|qos]
    [-c FILE] [-e LEVEL] -V|--version

An option stands for itself only once. Its value is the next argument, or follows an equals sign;
behind the letter of a short option it may also follow directly. Behind `--` there are no options.
-/

namespace MbsClient

open Text

namespace CommandLine

/-- An option, by its letter or by its name. -/
structure OptionName where
  letter : Option Char := none
  name : String

/-- Whether an argument is no option, so that it can be a value. -/
def isOperand (arg : String) : Bool :=
  match arg.toList with
  | '-' :: _ :: _ => false
  | _ => true

/-- What an argument has to say about an option. -/
inductive Mention where
  /-- It is another one. -/
  | other
  /-- The value is the next argument. -/
  | bare
  | withValue (value : String)

/-- How an argument mentions an option that has a value. -/
def mention (o : OptionName) (arg : String) : Mention :=
  match afterStart? ("--" ++ o.name).toList arg.toList with
  | some [] => .bare
  | some ('=' :: value) => .withValue (String.ofList value)
  | _ =>
      match arg.toList with
      | '-' :: letter :: rest =>
          if o.letter = some letter then
            match rest with
            | [] => .bare
            | '=' :: value => .withValue (String.ofList value)
            | value => .withValue (String.ofList value)
          else .other
      | _ => .other

/-- Takes an option with its value off the arguments, if they begin with it. -/
def takeOption? (o : OptionName) (args : List String) : Option (Option String × List String) :=
  match args with
  | [] => some (none, [])
  | arg :: rest =>
      match mention o arg, rest with
      | .other, _ => some (none, args)
      | .withValue value, _ => some (some value, rest)
      | .bare, value :: rest => if isOperand value then some (some value, rest) else none
      | .bare, [] => none

/-! ## Subcommands -/

/-- What follows the name of a subcommand: its operands, in order, and its options. -/
structure Given where
  operands : List String := []
  kind : Option String := none
  acknowledge : Bool := false

/-- Reads what follows `plan`. -/
def readPlan? (optionsEnd : Bool) (g : Given) : List String → Option Given
  | [] => some g
  | arg :: rest =>
      if optionsEnd || isOperand arg then
        readPlan? optionsEnd { g with operands := g.operands ++ [arg] } rest
      else if arg = "--" then readPlan? true g rest
      else if arg = "--ack" && !g.acknowledge then
        readPlan? optionsEnd { g with acknowledge := true } rest
      else none

/-- Reads what follows `diff`. -/
def readDiff? (optionsEnd : Bool) (g : Given) : List String → Option Given
  | [] => some g
  | arg :: rest =>
      if optionsEnd || isOperand arg then
        readDiff? optionsEnd { g with operands := g.operands ++ [arg] } rest
      else if arg = "--" then readDiff? true g rest
      else
        match mention { name := "kind" } arg, g.kind, rest with
        | .withValue value, none, rest => readDiff? optionsEnd { g with kind := some value } rest
        | .bare, none, value :: rest =>
            if isOperand value then readDiff? optionsEnd { g with kind := some value } rest
            else none
        | _, _, _ => none

def kind? : Option String → Option DocumentKind
  | none => some .session
  | some name =>
      [("session", .session), ("subscription", .subscription),
        ("media-component", .mediaComponent), ("qos", .qos)].lookup name

/-- A path is not empty. -/
def path? (arg : String) : Option String := if arg.isEmpty then none else some arg

/-- Whether an argument asks for the version; what follows it does not matter. -/
def asksVersion (arg : String) : Bool :=
  arg = "--version" || (afterStart? "-V".toList arg.toList).isSome

/-- Reads the subcommand and what follows it. -/
def subcommand? (config : Option String) : List String → Option Command
  | "plan" :: rest => do
      let g ← readPlan? false {} rest
      match g.operands with
      | [scenario] => return .plan config (← path? scenario) g.acknowledge
      | _ => none
  | "diff" :: rest => do
      let g ← readDiff? false {} rest
      match g.operands with
      | [old, new] => return .diff (← kind? g.kind) (← path? old) (← path? new)
      | _ => none
  | arg :: _ => if asksVersion arg then some .version else none
  | [] => none

def configOption : OptionName := { letter := some 'c', name := "config" }

/-- How much is logged; no command prints anything of it. -/
def logLevelOption : OptionName := { letter := some 'e', name := "log-level" }

/-- Reads the options in front of the subcommand in any order, each at most once. -/
def parseWith? (config logLevel : Option String) (args : List String) :
    (fuel : Nat) → Option Command
  | 0 => subcommand? config args
  | fuel + 1 => do
      match ← takeOption? configOption args with
      | (some value, rest) =>
          if config.isSome then none
          parseWith? (some (← path? value)) logLevel rest fuel
      | (none, _) =>
          match ← takeOption? logLevelOption args with
          | (some value, rest) =>
              if logLevel.isSome then none
              parseWith? config (some value) rest fuel
          | (none, _) => subcommand? config args

/-- The command that arguments ask for; `none` is wrong usage. -/
def parse? (args : List String) : Option Command := parseWith? none none args 2

/-! ## Exit codes -/

inductive Exit where
  | success (output : List String)
  | failure (fault : CommandFault)
  | usage

namespace Exit

def code : Exit → UInt32
  | .success _ => 0
  | .failure _ => 1
  | .usage => 2

/-- What is printed on standard output. -/
def output : Exit → String
  | .success lines => String.join (lines.map (· ++ "\n"))
  | _ => ""

/-- What is printed on standard error. -/
def complaint? : Exit → Option String
  | .success _ => none
  | .failure fault => some ("Error: " ++ fault.message)
  | .usage => none

end Exit

/-- Runs the command line with a way to read files. -/
def run (read : String → Option String) (args : List String) : Exit :=
  match parse? args with
  | none => .usage
  | some command =>
      match command.run read with
      | .ok lines => .success lines
      | .error fault => .failure fault

end CommandLine

end MbsClient
