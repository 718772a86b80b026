import MgRobot.Lib.Runs
import MgRobot.Lib.Words
import Std.Data.String.ToInt

/-!
# The arguments of the scenario CLI

The parser that `main` of `cli.py` builds for `run` and `run-all`, as `argparse` runs it on
the words of a command line: a word that starts with `-` is an option, the others are
positional. An option may be shortened and may carry its value after `=`. What `argparse`
answers with a usage error or with the help is `none`.
-/

namespace MgRobot.Scenario

set_option autoImplicit false

open MgRobot.Lib MgRobot.Lib.Runs

/-- `timeout` is the text of the number. -/
structure RunArgs where
  command : String
  files : List String := []
  profile : String := ""
  scenarioDir : List String := []
  gui : Bool := false
  attach : Bool := false
  remoteStack : String := ""
  resultsDir : String := ""
  timeout : String := "1800.0"
  tags : String := ""
  excludeTags : String := ""
  repeats : Int := 1
  infraRetries : Int := 1
  seed : Option Int := none
  deriving DecidableEq, Repr

inductive RunOption where
  | help
  | gui
  | attach
  | profile
  | scenarioDir
  | remoteStack
  | resultsDir
  | timeout
  | tags
  | excludeTags
  | repeats
  | infraRetries
  | seed
  deriving DecidableEq, Repr

def optionStrings : List (String × RunOption) :=
  [("-h", .help), ("--help", .help), ("--profile", .profile), ("--scenario-dir", .scenarioDir),
    ("--gui", .gui), ("--attach", .attach), ("--remote-stack", .remoteStack),
    ("--results-dir", .resultsDir), ("--timeout", .timeout), ("--tags", .tags),
    ("--exclude-tags", .excludeTags), ("--repeat", .repeats), ("--infra-retries", .infraRetries),
    ("--seed", .seed)]

def RunOption.takesValue : RunOption → Bool
  | .help | .gui | .attach => false
  | _ => true

def isOption (word : String) : Bool := word.toList.head? = some '-'

/-- `int` of a word. -/
def pyInt (word : String) : Option Int :=
  match word.toList with
  | '+' :: digits => (String.ofList digits).toNat?.map Int.ofNat
  | _ => word.toInt?

/-- The option that a key stands for: that of the name, or the only one with a longer name. -/
def lookupOption (key : String) : Option RunOption :=
  match optionStrings.find? fun o => o.1 = key with
  | some o => some o.2
  | none =>
      match optionStrings.filter fun o => "--".toList <+: key.toList ∧ key.toList <+: o.1.toList with
      | [o] => some o.2
      | _ => none

/-- The option of a word, and the value after its first `=`. -/
def splitOption (word : String) : Option (RunOption × Option String) :=
  match word.toList.dropWhile fun c => c ≠ '=' with
  | [] => (lookupOption word).map fun o => (o, none)
  | _ :: value =>
      (lookupOption (String.ofList (word.toList.takeWhile fun c => c ≠ '='))).map fun o =>
        (o, some (String.ofList value))

namespace RunArgs

variable (isFloat : String → Bool) (args : RunArgs)

/-- An option without a value; the help is printed instead of a run. -/
def setFlag : RunOption → Option RunArgs
  | .gui => some { args with gui := true }
  | .attach => some { args with attach := true }
  | _ => none

def setValue (value : String) : RunOption → Option RunArgs
  | .profile => some { args with profile := value }
  | .scenarioDir => some { args with scenarioDir := args.scenarioDir ++ [value] }
  | .remoteStack => some { args with remoteStack := value }
  | .resultsDir => some { args with resultsDir := value }
  | .timeout => if isFloat value then some { args with timeout := value } else none
  | .tags => some { args with tags := value }
  | .excludeTags => some { args with excludeTags := value }
  | .repeats => (pyInt value).map fun n => { args with repeats := n }
  | .infraRetries => (pyInt value).map fun n => { args with infraRetries := n }
  | .seed => (pyInt value).map fun n => { args with seed := some n }
  | .help | .gui | .attach => none

end RunArgs

/-- Whether the positional words have begun, and whether an option has ended them. -/
inductive Positionals where
  | awaited
  | taking
  | taken
  deriving DecidableEq, Repr

def Positionals.afterOption : Positionals → Positionals
  | .awaited => .awaited
  | .taking | .taken => .taken

/-- The parser between two words; an option may still wait for its value. -/
structure Parser where
  args : RunArgs
  positionals : Positionals := .awaited
  pending : Option RunOption := none
  deriving DecidableEq, Repr

namespace Parser

variable (isFloat : String → Bool) (p : Parser)

def onPositional (word : String) : Option Parser :=
  match p.pending with
  | some option =>
      (p.args.setValue isFloat word option).map fun args => { p with args := args, pending := none }
  | none =>
      if p.positionals = .taken then none
      else some { p with
        args := { p.args with files := p.args.files ++ [word] }
        positionals := .taking }

def onOption (word : String) : Option Parser :=
  if p.pending.isSome then none
  else
    let p := { p with positionals := p.positionals.afterOption }
    match splitOption word with
    | none => none
    | some (option, some value) =>
        if option.takesValue then
          (p.args.setValue isFloat value option).map fun args => { p with args := args }
        else none
    | some (option, none) =>
        if option.takesValue then some { p with pending := some option }
        else (p.args.setFlag option).map fun args => { p with args := args }

def onWord (word : String) : Option Parser :=
  if isOption word then p.onOption isFloat word else p.onPositional isFloat word

/-- The arguments, if nothing is missing. -/
def finish : Option RunArgs :=
  if p.pending = none ∧ p.positionals ≠ .awaited then some p.args else none

end Parser

/-- The commands `run` and `run-all`. -/
def parseArgs (isFloat : String → Bool) : List String → Option RunArgs
  | [] => none
  | command :: rest =>
      if command = "run" ∨ command = "run-all" then
        (exec (Parser.onWord isFloat) ⟨{ command := command }, .awaited, none⟩ rest).bind Parser.finish
      else none

/-- Where the shell splits an unquoted variable. -/
def isBlank (c : Char) : Bool := c = ' ' || c = '\t' || c = '\n'

def splitWords (text : String) : List String := (words isBlank text.toList).map String.ofList

example : parseArgs (fun _ => true) ["run-all", "door", "lift", "--att", "--profile=mg01"] =
    some { command := "run-all", files := ["door", "lift"], profile := "mg01", attach := true } := by
  decide

end MgRobot.Scenario
