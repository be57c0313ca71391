/-!
The arguments of the command line. Options stand before or behind a command; letters of short
options can share one argument, and a value follows its option in the same argument or in the next
one. Behind a double dash nothing is an option.
-/

namespace VBed.CommandLine

inductive Request where
  | banner
  | version
  | help
  | misuse
  | info (machine : Option String)
  | run (program : String) (machine : Option String)
deriving DecidableEq, Repr

inductive Level where
  | top
  | help
  | info
  | run
deriving DecidableEq, Repr

structure Given where
  level : Level
  verbose : Bool
  machine : Option String
  program : Option String
  awaitsMachine : Bool
  /-- A double dash has been given. -/
  escaped : Bool
deriving DecidableEq, Repr

namespace Given

def start (level : Level) : Given :=
  ⟨level, false, none, none, false, false⟩

def beVerbose (given : Given) : Except Request Given :=
  if given.verbose then .error .misuse else .ok { given with verbose := true }

def takesMachine (given : Given) : Bool :=
  given.level = .info || given.level = .run

def nameMachine (given : Given) (name : String) : Except Request Given :=
  if given.machine.isSome || name.isEmpty then .error .misuse
  else .ok { given with machine := some name, awaitsMachine := false }

def awaitMachine (given : Given) : Except Request Given :=
  if given.takesMachine then .ok { given with awaitsMachine := true } else .error .misuse

def place (given : Given) (text : String) : Except Request Given :=
  match given.level with
  | .top =>
      if given.escaped then .error .misuse
      else if text = "info" then .ok (.start .info)
      else if text = "run" then .ok (.start .run)
      else if text = "help" then .ok (.start .help)
      else .error .misuse
  | .run =>
      if given.program.isSome || text.isEmpty then .error .misuse
      else .ok { given with program := some text }
  | _ => .error .misuse

/-- An argument behind the command `help`, which can name one command. -/
def placeHelp (given : Given) (text : String) : Except Request Given :=
  if given.program.isNone && ["info", "run", "help"].contains text then
    .ok { given with program := some text }
  else .error .misuse

def letters (given : Given) : List Char → Except Request Given
  | [] => .ok given
  | 'v' :: rest => do (← given.beVerbose).letters rest
  | 'h' :: _ => .error .help
  | 'V' :: _ => .error (if given.level = .top then .version else .misuse)
  | ['m'] => given.awaitMachine
  | 'm' :: '=' :: value => do (← given.awaitMachine).nameMachine (String.ofList value)
  | 'm' :: value => do (← given.awaitMachine).nameMachine (String.ofList value)
  | _ => .error .misuse

def longOption (given : Given) (name : String) : Except Request Given :=
  match name with
  | "verbose" => given.beVerbose
  | "help" => .error .help
  | "version" => .error (if given.level = .top then .version else .misuse)
  | "machine" => given.awaitMachine
  | _ => .error .misuse

def longValue (given : Given) (name value : String) : Except Request Given :=
  match name with
  | "machine" => do (← given.awaitMachine).nameMachine value
  | _ => .error .misuse

def long (given : Given) (text : List Char) : Except Request Given :=
  match text.span (· != '=') with
  | (name, _ :: value) => given.longValue (String.ofList name) (String.ofList value)
  | (name, []) => given.longOption (String.ofList name)

def option (given : Given) (argument : String) : Except Request Given :=
  match argument.toList with
  | ['-', '-'] => .ok { given with escaped := true }
  | '-' :: '-' :: rest => given.long rest
  | '-' :: letter :: rest => given.letters (letter :: rest)
  | _ => given.place argument

def isOption (argument : String) : Bool :=
  match argument.toList with
  | '-' :: _ :: _ => true
  | _ => false

def take (given : Given) (argument : String) : Except Request Given :=
  if given.level = .help then given.placeHelp argument
  else if given.awaitsMachine then
    if isOption argument then .error .misuse else given.nameMachine argument
  else if given.escaped then given.place argument
  else given.option argument

def request (given : Given) : Request :=
  if given.awaitsMachine then .misuse
  else match given.level, given.program with
    | .top, _ => .banner
    | .help, _ => .help
    | .info, _ => .info given.machine
    | .run, some program => .run program given.machine
    | .run, none => .misuse

end Given

def Request.ofArguments (arguments : List String) : Request :=
  match arguments.foldlM Given.take (.start .top) with
  | .ok given => given.request
  | .error request => request

end VBed.CommandLine
