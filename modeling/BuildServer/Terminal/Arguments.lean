import BuildServer.Server.Messages
import BuildServer.Text.Digits
/-!
# Arguments

What is typed behind the name of the program: options of the program, then a group and a task of it,
then the options and operands of the task in any order. An option has a long name, and perhaps a
letter; its value stands behind an equals sign, directly behind the letter, or in the next argument,
which must not look like an option then. Two hyphens alone end the options. No option may be given
twice. These are the rules of the `clap` library.
-/

set_option autoImplicit false

namespace BuildServer.Terminal

/-- What the program is to do (`Commands`). -/
inductive Task where
  | createPipeline (file : String) (name : Option String)
  | listPipelines
  | pipeline (name : String)
  | queue (name : String)
  | materials (name : String)
  | schedule (name : String) (run : RunRequest)
  | waiting
  | job (id : String)
  | reschedule (id : String)
  | cancel (id : String)
  | status (pipeline stage job : String)
  | listAgents
  | notifyGit (url : String)
  deriving DecidableEq, Repr

/-- Why there is nothing to do. -/
inductive Usage where
  /-- Help was asked for. -/
  | help
  /-- The arguments make no sense. -/
  | wrong
  deriving DecidableEq, Repr

/-- The number of a run: digits, with a sign if need be, in 64 bits. -/
def counter? (s : String) : Option Int :=
  match s.toList with
  | '-' :: digits =>
    if digits.head? == some '+' then none
    else (Text.decimalBelow? (Nat.pow 2 63 + 1) (String.ofList digits)).map fun n => -(n : Int)
  | _ => (Text.decimalBelow? (Nat.pow 2 63) s).map Int.ofNat

/-- An option with a value, which may have to be the number of a run. -/
structure Flag where
  long : String
  short : Option Char := none
  isCounter : Bool := false
  deriving DecidableEq, Repr

/-- The option may have the value. -/
def Flag.admits (flag : Flag) (value : String) : Bool :=
  !flag.isCounter || (counter? value).isSome

/-- What a task takes: options, and so many operands at most. -/
structure Shape where
  flags : List Flag := []
  operands : Nat := 0
  deriving DecidableEq, Repr

/-- The options and operands that were given. -/
structure Given where
  options : List (String × String) := []
  operands : List String := []
  deriving DecidableEq, Repr

namespace Given

def addOption (g : Given) (flag : Flag) (value : String) : Except Usage Given :=
  if (g.options.lookup flag.long).isSome || !flag.admits value then .error .wrong
  else .ok { g with options := g.options ++ [(flag.long, value)] }

def addOperands (g : Given) (limit : Nat) (operands : List String) : Except Usage Given :=
  if limit < g.operands.length + operands.length then .error .wrong
  else .ok { g with operands := g.operands ++ operands }

def value? (g : Given) (long : String) : Option String := g.options.lookup long

/-- The value of an option that must be given. -/
def value (g : Given) (long : String) : Except Usage String :=
  match g.value? long with
  | some value => .ok value
  | none => .error .wrong

end Given

/-- How an argument is to be taken. -/
inductive Argument where
  | operand (s : String)
  /-- Two hyphens alone. -/
  | endOfOptions
  | help
  /-- An option, with its value if that is part of the argument. -/
  | option (flag : Flag) (value : Option String)
  | unknown

namespace Argument

/-- An argument that begins with two hyphens, the rest of which is `cs`. -/
def ofLong (flags : List Flag) (cs : List Char) : Argument :=
  let name := String.ofList (cs.takeWhile (· != '='))
  let value := match cs.dropWhile (· != '=') with
    | [] => none
    | _ :: value => some (String.ofList value)
  if name = "help" && value.isNone then .help
  else
    match flags.find? (·.long == name) with
    | some flag => .option flag value
    | none => .unknown

/-- An argument that begins with a hyphen and a letter, behind which is `cs`. -/
def ofShort (flags : List Flag) (letter : Char) (cs : List Char) : Argument :=
  let value := match cs with
    | [] => none
    | '=' :: value => some (String.ofList value)
    | value => some (String.ofList value)
  match flags.find? (·.short == some letter) with
  | some flag => .option flag value
  | none => if letter = 'h' then .help else .unknown

/-- Takes an argument where the options are known. -/
def of (flags : List Flag) (s : String) : Argument :=
  match s.toList with
  | ['-', '-'] => .endOfOptions
  | '-' :: '-' :: cs => ofLong flags cs
  | '-' :: letter :: cs => ofShort flags letter cs
  | _ => .operand s

end Argument

/-- The argument can be the value of the option before it. -/
def isValue (s : String) : Bool :=
  match s.toList with
  | '-' :: _ :: _ => false
  | _ => true

/-- Reads the arguments of a task. -/
def readGiven (shape : Shape) (g : Given) : List String → Except Usage Given
  | [] => .ok g
  | s :: rest =>
    match Argument.of shape.flags s with
    | .operand s => do readGiven shape (← g.addOperands shape.operands [s]) rest
    | .endOfOptions => g.addOperands shape.operands rest
    | .help => .error .help
    | .unknown => .error .wrong
    | .option flag (some value) => do readGiven shape (← g.addOption flag value) rest
    | .option flag none =>
      match rest with
      | value :: rest =>
        if isValue value then do readGiven shape (← g.addOption flag value) rest
        else .error .wrong
      | [] => .error .wrong

namespace Task

/-- The tasks of each group, with what they take. -/
def groups : List (String × List (String × Shape)) :=
  [("pipeline",
      [("create", ⟨[⟨"file", some 'f', false⟩, ⟨"name", some 'n', false⟩], 0⟩), ("list", {}),
        ("get", ⟨[], 1⟩), ("queue", ⟨[], 1⟩), ("materials", ⟨[], 1⟩),
        ("schedule", ⟨[⟨"counter", some 'c', true⟩, ⟨"label", some 'l', false⟩,
          ⟨"stage", some 's', false⟩], 1⟩)]),
    ("job", [("scheduled", {}), ("get", ⟨[], 1⟩), ("reschedule", ⟨[], 1⟩), ("cancel", ⟨[], 1⟩),
      ("status", ⟨[], 3⟩)]),
    ("agent", [("list", {})]),
    ("material", [("notify", { flags := [{ long := "git" }] })])]

/-- The task of a group with the name, from what was given to it. -/
def ofGiven (group name : String) (g : Given) : Except Usage Task :=
  match group, name, g.operands with
  | "pipeline", "create", [] => return .createPipeline (← g.value "file") (g.value? "name")
  | "pipeline", "list", [] => return .listPipelines
  | "pipeline", "get", [name] => return .pipeline name
  | "pipeline", "queue", [name] => return .queue name
  | "pipeline", "materials", [name] => return .materials name
  | "pipeline", "schedule", [name] => do
    match counter? (← g.value "counter") with
    | some counter => return .schedule name ⟨counter, g.value? "label", g.value? "stage"⟩
    | none => throw .wrong
  | "job", "scheduled", [] => return .waiting
  | "job", "get", [id] => return .job id
  | "job", "reschedule", [id] => return .reschedule id
  | "job", "cancel", [id] => return .cancel id
  | "job", "status", [first, second, third] => return .status first second third
  | "agent", "list", [] => return .listAgents
  | "material", "notify", [] => return .notifyGit (← g.value "git")
  | _, _, _ => throw .wrong

/-- What is left when help on a group, or on the task of it that is named, is asked for. -/
def helpOn (tasks : List String) : List String → Usage
  | [] => .help
  | [name] => if name = "help" || tasks.contains name then .help else .wrong
  | _ => .wrong

/-- Reads a task of a group. -/
def ofGroup (group : String) (tasks : List (String × Shape)) : List String → Except Usage Task
  | [] => .error .wrong
  | name :: rest =>
    match Argument.of [] name with
    | .operand name =>
      match tasks.lookup name with
      | some shape => do ofGiven group name (← readGiven shape {} rest)
      | none => .error (if name = "help" then helpOn (tasks.map (·.1)) rest else .wrong)
    | .help => .error .help
    | _ => .error .wrong

end Task

/-- What is asked of the program: a task, and the server if it is named. -/
structure Invocation where
  url : Option String
  task : Task
  deriving DecidableEq, Repr

namespace Invocation

/-- The option that names the server. -/
def urlFlag : Flag := { long := "orchestrator-url" }

/-- What is left when help is asked for by names: those of a group and perhaps of a task of it. -/
def helpOn : List String → Usage
  | [] => .help
  | group :: rest =>
    match Task.groups.lookup group with
    | some tasks => Task.helpOn (tasks.map (·.1)) rest
    | none => if group = "help" && rest.isEmpty then .help else .wrong

/-- Reads arguments, where `url` names the server if it has been named. -/
def read (url : Option String) : List String → Except Usage Invocation
  | [] => .error .wrong
  | s :: rest =>
    match Argument.of [urlFlag] s, rest with
    | .operand group, rest =>
      match Task.groups.lookup group with
      | some tasks => do return ⟨url, ← Task.ofGroup group tasks rest⟩
      | none => .error (if group = "help" then helpOn rest else .wrong)
    | .help, _ => .error .help
    | .option _ (some value), rest => if url.isSome then .error .wrong else read (some value) rest
    | .option _ none, value :: rest =>
      if url.isNone && isValue value then read (some value) rest else .error .wrong
    | _, _ => .error .wrong

/-- Reads the arguments of the program. -/
def ofArguments (arguments : List String) : Except Usage Invocation := read none arguments

end Invocation

end BuildServer.Terminal
