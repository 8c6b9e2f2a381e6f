/-!
# Command line options

The options that a command line may hold, and the splitting of arguments into options, values and
operands.

An argument that begins with two hyphens is a long option, with a value behind an equals sign if it
takes one. An argument that begins with one hyphen is a cluster of short options, the last of which
may have its value attached. A value that stands as an argument of its own must not look like an
option. After a bare pair of hyphens everything is an operand. No option may be given twice.

An option whose value is an argument of its own is recorded, and found wrong, when the reading goes
on to the next option or operand or comes to its end. The name of a command ends the reading before
that, so the option is then still pending while the arguments of the command are read.
-/

namespace EdnTokens.CommandLine

/-- The options of all commands. -/
inductive OptionName
  | help
  | version
  | verbose
  | config
  | noColor
  | path
  | force
  | format
  | strictEscapes
  | includeEof
  | jobs
  deriving DecidableEq, Repr

namespace OptionName

/-- The long name of an option. -/
def long : OptionName → String
  | help => "help"
  | version => "version"
  | verbose => "verbose"
  | config => "config"
  | noColor => "no-color"
  | path => "path"
  | force => "force"
  | format => "format"
  | strictEscapes => "strict-escapes"
  | includeEof => "include-eof"
  | jobs => "jobs"

/-- The short name of an option. -/
def short? : OptionName → Option Char
  | help => some 'h'
  | version => some 'V'
  | verbose => some 'v'
  | config => some 'c'
  | path => some 'p'
  | force => some 'f'
  | format => some 'F'
  | jobs => some 'j'
  | noColor | strictEscapes | includeEof => none

/-- Whether an option has a value. -/
def takesValue : OptionName → Bool
  | config | path | format | jobs => true
  | _ => false

end OptionName

/-- Why an argument list is not a request to run a command. -/
inductive Stop
  /-- The arguments are wrong. -/
  | usage
  /-- Help was asked for. -/
  | help
  /-- The version was asked for. -/
  | version
  deriving DecidableEq, Repr

/-- The options and operands given so far. -/
structure Given where
  /-- Options in order, those without a value with the empty value. -/
  options : List (OptionName × String) := []
  operands : List String := []
  deriving DecidableEq, Repr

namespace Given

/-- Whether an option was given. -/
def has (g : Given) (name : OptionName) : Bool :=
  g.options.any fun o => o.1 == name

/-- The value of an option. -/
def value? (g : Given) (name : OptionName) : Option String :=
  (g.options.find? fun o => o.1 == name).map Prod.snd

/-- Records an option. Help and version stop the reading at once. -/
def add (g : Given) (name : OptionName) (value : String) : Except Stop Given :=
  match name with
  | .help => .error .help
  | .version => .error .version
  | _ =>
    if g.has name then .error .usage
    else .ok { g with options := g.options ++ [(name, value)] }

end Given

/-- What a command accepts. -/
structure Grammar where
  options : List OptionName
  /-- Checks the value of an option. -/
  accepts : OptionName → String → Bool
  /-- Checks an operand. -/
  acceptsOperand : String → Bool
  /-- The words that end the reading of options and name what follows. -/
  commands : List String := []

/-- What an argument leaves open for the next one. -/
inductive Pending
  | nothing
  /-- An option that waits for its value. -/
  | option (name : OptionName)
  /-- An option with its value, neither of which has been looked at. -/
  | value (name : OptionName) (value : String)
  deriving DecidableEq, Repr

/-- The result of reading arguments up to their end or to the name of a command. -/
structure Reading where
  given : Given
  pending : Pending := .nothing
  /-- The name of the command with the arguments behind it. -/
  command : Option (String × List String) := none
  deriving DecidableEq, Repr

namespace Grammar

/-- Records an option after checking its value. -/
def addValue (g : Grammar) (given : Given) (name : OptionName) (value : String) :
    Except Stop Given :=
  if g.accepts name value then given.add name value else .error .usage

/-- Records what is pending. -/
def settle (g : Grammar) (given : Given) : Pending → Except Stop Given
  | .nothing => .ok given
  | .option _ => .error .usage
  | .value name value => g.addValue given name value

/-- Reads a cluster of short options. -/
def readCluster (g : Grammar) (given : Given) : List Char → Except Stop (Given × Pending)
  | [] => .ok (given, .nothing)
  | c :: rest =>
    match g.options.find? fun o => o.short? == some c with
    | none => .error .usage
    | some name =>
      if name.takesValue then
        -- what is left of the cluster is the value, with or without an equals sign
        match rest with
        | [] => .ok (given, .option name)
        | '=' :: value =>
          (g.addValue given name (String.ofList value)).map fun given => (given, .nothing)
        | value => (g.addValue given name (String.ofList value)).map fun given => (given, .nothing)
      else
        match given.add name "" with
        | .error stop => .error stop
        | .ok given => g.readCluster given rest

/-- Reads a long option without its hyphens. -/
def readLong (g : Grammar) (given : Given) (argument : List Char) :
    Except Stop (Given × Pending) :=
  let long := String.ofList (argument.takeWhile (· != '='))
  match g.options.find? fun o => o.long == long, argument.dropWhile (· != '=') with
  | none, _ => .error .usage
  | some name, [] =>
    if name.takesValue then .ok (given, .option name)
    else (given.add name "").map fun given => (given, .nothing)
  | some name, _ :: value =>
    if name.takesValue then
      (g.addValue given name (String.ofList value)).map fun given => (given, .nothing)
    else .error .usage

/-- Adds operands. -/
def addOperands (g : Grammar) (given : Given) (operands : List String) : Except Stop Given :=
  if operands.all g.acceptsOperand then
    .ok { given with operands := given.operands ++ operands }
  else .error .usage

/-- Reads arguments up to the word that names a command. -/
def read (g : Grammar) (given : Given) (pending : Pending) :
    List String → Except Stop Reading
  | [] => (g.settle given pending).map fun given => { given }
  | argument :: rest =>
    match pending, argument.toList with
    | .option name, letters =>
      -- a value that looks like an option is none; a single hyphen is a value
      if letters.head? == some '-' && letters != ['-'] then .error .usage
      else g.read given (.value name argument) rest
    -- whatever follows is an operand, also the name of a command
    | pending, ['-', '-'] =>
      match g.settle given pending with
      | .error stop => .error stop
      | .ok given => (g.addOperands given rest).map fun given => { given }
    | pending, '-' :: '-' :: long =>
      match g.settle given pending with
      | .error stop => .error stop
      | .ok given =>
        match g.readLong given long with
        | .error stop => .error stop
        | .ok (given, pending) => g.read given pending rest
    | pending, '-' :: c :: cluster =>
      match g.settle given pending with
      | .error stop => .error stop
      | .ok given =>
        match g.readCluster given (c :: cluster) with
        | .error stop => .error stop
        | .ok (given, pending) => g.read given pending rest
    | pending, _ =>
      if g.commands.contains argument then
        .ok { given, pending, command := some (argument, rest) }
      else
        match g.settle given pending with
        | .error stop => .error stop
        | .ok given =>
          match g.addOperands given [argument] with
          | .error stop => .error stop
          | .ok given => g.read given .nothing rest

end Grammar

end EdnTokens.CommandLine
