import EdnTokens.Command.Check
import EdnTokens.Command.Init
import EdnTokens.Command.Listing
import EdnTokens.CommandLine.Options

/-!
# Requests

What an argument list asks for. The options that all commands share may stand before or behind the
name of the command, and have variables of the environment that stand in for them.
-/

namespace EdnTokens.CommandLine

/-- The name of the program. -/
def programName : String := "ednt"

/-- The version of the program. -/
def programVersion : String := "0.1.0"

/-- The commands of the program, with the options of their own. -/
inductive Command
  | init (path : Option String) (force : Bool)
  | tokens (files : List String) (format : Option ListingFormat) (strict includeEof : Bool)
  | check (files : List String) (strict : Bool) (jobs : Option Nat)
  deriving DecidableEq, Repr

/-- A command with the options that all commands share. -/
structure Invocation where
  verbose : Bool
  config : Option String
  noColor : Bool
  command : Command
  deriving DecidableEq, Repr

/-- What an argument list asks for. -/
inductive Request
  /-- To run a command. -/
  | run (invocation : Invocation)
  /-- To print a text and stop. -/
  | print (t : Text)
  /-- Nothing that makes sense. -/
  | invalid
  deriving DecidableEq, Repr

/-! ### Values -/

/-- A number of workers: a decimal integer from 1 to 65535. -/
def jobs? (value : String) : Option Nat :=
  let digits :=
    match value.toList with
    | '+' :: t => t
    | t => t
  if digits ≠ [] ∧ digits.all Char.isDigit then
    let n := Text.valueIn 10 digits
    if 1 ≤ n ∧ n ≤ 65535 then some n else none
  else none

/-- Whether the value of an option makes sense. -/
def acceptsValue (name : OptionName) (value : String) : Bool :=
  match name with
  | .config | .path => value != ""
  | .format => (ListingFormat.ofName? value).isSome
  | .jobs => (jobs? value).isSome
  | _ => true

/-! ### Commands -/

/-- Options that all commands share. -/
def sharedOptions : List OptionName :=
  [.help, .version, .verbose, .config, .noColor]

/-- The names of the commands. -/
def commandNames : List String :=
  ["init", "tokens", "check"]

/-- What may stand before the name of a command. -/
def outerGrammar : Grammar where
  options := sharedOptions
  accepts := acceptsValue
  acceptsOperand _ := false
  commands := commandNames ++ ["help"]

/-- What may stand behind the name of a command. -/
def innerGrammar (command : String) : Grammar where
  options := sharedOptions ++
    if command == "init" then [.path, .force]
    else if command == "tokens" then [.format, .strictEscapes, .includeEof]
    else [.strictEscapes, .jobs]
  accepts := acceptsValue
  acceptsOperand operand := command != "init" && operand != ""

/-- The command that a name and what stands behind it denote. Commands on files need at least
one. -/
def command? (name : String) (given : Given) : Option Command :=
  if name == "init" then some (.init (given.value? .path) (given.has .force))
  else if given.operands = [] then none
  else if name == "tokens" then
    some (.tokens given.operands ((given.value? .format).bind ListingFormat.ofName?)
      (given.has .strictEscapes) (given.has .includeEof))
  else
    some (.check given.operands (given.has .strictEscapes) ((given.value? .jobs).bind jobs?))

/-! ### Shared options -/

/-- The truth value that a variable of the environment denotes. -/
def truth? (value : String) : Option Bool :=
  if value == "true" then some true else if value == "false" then some false else none

/-- Whether a shared option without value is on. Where it is not given, before or behind the name
of the command, its variable is looked at, and must then make sense. -/
def sharedFlag? (env : Environment) (key : String) (name : OptionName)
    (outer inner : Given) : Option Bool :=
  let given := outer.has name || inner.has name
  if outer.has name && inner.has name then some true
  else
    match env.valueOf? key with
    | none => some given
    | some value => (truth? value).map (given || ·)

/-- The value of the configuration option: what stands behind the name of the command goes before
what stands in front of it, and both go before the variable. -/
def sharedConfig? (env : Environment) (outer inner : Given) : Option (Option String) :=
  let given := inner.value? .config <|> outer.value? .config
  if outer.has .config && inner.has .config then some given
  else
    match env.valueOf? "EDNT_CONFIG" with
    | none => some given
    | some value => if value == "" then none else some (given <|> some value)

/-! ### Requests -/

/-- The line that tells the version of the program or of one of its commands. -/
def versionLine (command : Option String) : Text :=
  Text.line ((programName ++ (command.elim "" ("-" ++ ·)) ++ " " ++ programVersion).toList)

/-- A reminder of what can be asked for. -/
def helpText : Text :=
  ("Inspect and check EDN token streams\n\nUsage: ednt [OPTIONS] <COMMAND>\n\nCommands:\n" ++
    "  init    Write a default ednt.toml\n" ++
    "  tokens  Print the token stream of EDN files\n" ++
    "  check   Report lex errors in EDN files\n").toList

/-- What a reading that stopped early asks for. -/
def Stop.request (command : Option String) : Stop → Request
  | usage => .invalid
  | help => .print helpText
  | version => .print (versionLine command)

/-- What the name of a command and the arguments behind it ask for, given what stood in front. An
option that is still pending there counts only after all of them have been read. -/
def Request.ofCommand (env : Environment) (front : Reading) (name : String)
    (arguments : List String) : Request :=
  match (innerGrammar name).read {} .nothing arguments with
  | .error stop => stop.request (some name)
  | .ok reading =>
    let inner := reading.given
    let invocation : Option Invocation := do
      let command ← command? name inner
      let outer ← (outerGrammar.settle front.given front.pending).toOption
      let verbose ← sharedFlag? env "EDNT_VERBOSE" .verbose outer inner
      let noColor ← sharedFlag? env "EDNT_NO_COLOR" .noColor outer inner
      let config ← sharedConfig? env outer inner
      return { verbose, config, noColor, command }
    invocation.elim .invalid .run

/-- What a word behind `help` asks for. -/
def Request.ofHelp : List String → Request
  | [] => .print helpText
  | [name] => if outerGrammar.commands.contains name then .print helpText else .invalid
  | _ => .invalid

/-- What an argument list asks for. -/
def Request.ofArguments (env : Environment) (arguments : List String) : Request :=
  match outerGrammar.read {} .nothing arguments with
  | .error stop => stop.request none
  | .ok front =>
    match front.command with
    | none => .invalid
    | some (name, rest) =>
      if name == "help" then ofHelp rest else ofCommand env front name rest

end EdnTokens.CommandLine
