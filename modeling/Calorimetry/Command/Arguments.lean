import Calorimetry.Decimal.Text

/-! The arguments of the program. Options come before what they belong to: those of the program
before the name of the task, those of a task after it. -/

namespace Calorimetry.Command

/-- Times (ms) that take the place of those of the configuration. -/
structure Overrides where
  baselineMs : Option Nat := none
  heaterMs : Option Nat := none
  cooloffMs : Option Nat := none
  deriving DecidableEq

inductive Task where
  | measure (seconds : Float)
  | calibrate (save : Option String) (overrides : Overrides)
  | selfCheck

/-- `calibration` names a table that is used in place of the points of the configuration. -/
structure Invocation where
  config : String
  calibration : Option String
  json : Bool
  task : Task

inductive Request where
  | run (i : Invocation)
  | help
  | version

inductive UsageFault where
  | unknown (argument : String)
  | repeated (option : String)
  | valueMissing (option : String)
  | valueUnexpected (option : String)
  | valueInvalid (option value : String)
  | taskMissing
  deriving DecidableEq

def UsageFault.message : UsageFault → String
  | unknown argument => s!"unexpected argument '{argument}'"
  | repeated option => s!"{option} is given more than once"
  | valueMissing option => s!"{option} needs a value"
  | valueUnexpected option => s!"{option} takes no value"
  | valueInvalid option value => s!"invalid value '{value}' for {option}"
  | taskMissing => "one of measure, calibrate and self-check is needed"

/-- Options that take a value, those that do not, and those after which nothing is looked at. -/
structure OptionNames where
  valued : List String := []
  flags : List String := []
  final : List String := ["-h", "--help"]

abbrev Given := String × Option String

/-- The options at the front, in their order, and the arguments from the first other one on. -/
structure Scanned where
  options : List Given
  rest : List String

def isDashed (argument : String) : Bool :=
  match argument.toList with
  | '-' :: _ :: _ => true
  | _ => false

def endOfOptions : String := "--"

/-- The option in an argument, and its value if that stands behind an equals sign. Of letters behind
one dash the first counts: no option of one letter lets another follow. -/
def splitValue (argument : String) : Given :=
  match argument.toList with
  | '-' :: '-' :: cs =>
    let option := String.ofList ('-' :: '-' :: cs.takeWhile (· ≠ '='))
    match cs.dropWhile (· ≠ '=') with
    | [] => (option, none)
    | _ :: value => (option, some (String.ofList value))
  | cs => (String.ofList (cs.take 2), none)

/-- `given` are the options so far, and `pending` is one that still needs its value. -/
def scanFrom (names : OptionNames) (given : List Given) :
    Option String → List String → Except UsageFault Scanned
  | none, [] => .ok ⟨given, []⟩
  | some option, [] => .error (.valueMissing option)
  | some option, value :: rest =>
    if isDashed value then .error (.valueMissing option)
    else scanFrom names (given ++ [(option, some value)]) none rest
  | none, argument :: rest =>
    if !isDashed argument || argument = endOfOptions then .ok ⟨given, argument :: rest⟩
    else
      let (option, attached) := splitValue argument
      if given.any (·.1 = option) then .error (.repeated option)
      else if names.valued.contains option then
        match attached with
        | some value => scanFrom names (given ++ [(option, some value)]) none rest
        | none => scanFrom names given (some option) rest
      else if !(names.flags ++ names.final).contains option then .error (.unknown argument)
      else if attached.isSome then .error (.valueUnexpected option)
      else if names.final.contains option then .ok ⟨given ++ [(option, none)], []⟩
      else scanFrom names (given ++ [(option, none)]) none rest

def scan (names : OptionNames) (arguments : List String) : Except UsageFault Scanned :=
  scanFrom names [] none arguments

def Scanned.has (s : Scanned) (option : String) : Bool := s.options.any (·.1 = option)

def Scanned.asksHelp (s : Scanned) : Bool := s.has "-h" || s.has "--help"

def Scanned.value? {β : Type} (s : Scanned) (option : String) (read? : String → Option β) :
    Except UsageFault (Option β) :=
  match s.options.find? (·.1 = option) with
  | some (_, some text) =>
    match read? text with
    | some v => .ok (some v)
    | none => .error (.valueInvalid option text)
  | _ => .ok none

def path? (text : String) : Option String := if text.isEmpty then none else some text

/-- A whole number below `2 ^ 64`; a plus may stand before it. -/
def count? (text : String) : Option Nat :=
  let digits := match text.toList with
    | '+' :: rest => rest
    | cs => cs
  if digits.isEmpty || !digits.all Char.isDigit then none
  else
    let n := Decimal.valueOf digits
    if n < Nat.pow 2 64 then some n else none

def number? (text : String) : Option Float := Decimal.read? text.toList

def taskOptions? : String → Option OptionNames
  | "measure" => some { valued := ["--seconds"] }
  | "calibrate" => some { valued := ["--save", "--baseline-ms", "--heater-ms", "--cooloff-ms"] }
  | "self-check" => some {}
  | _ => none

/-- A task with the values of its options. Without a time a measurement takes half a minute. -/
def Task.ofOptions (name : String) (s : Scanned) : Except UsageFault Task := do
  match name with
  | "measure" => return .measure ((← s.value? "--seconds" number?).getD 30.0)
  | "calibrate" =>
    return .calibrate (← s.value? "--save" path?) {
      baselineMs := ← s.value? "--baseline-ms" count?
      heaterMs := ← s.value? "--heater-ms" count?
      cooloffMs := ← s.value? "--cooloff-ms" count? }
  | _ => return .selfCheck

/-- What is wrong with the topic on which help is asked for: there is help on each task and on
help. -/
def topicFault? : List String → Option UsageFault
  | [] => none
  | topic :: more =>
    if topic = "help" || (taskOptions? topic).isSome then more.head?.map .unknown
    else some (.unknown topic)

def Task.ofArguments? : List String → Except UsageFault (Option Task)
  | [] => .error .taskMissing
  | "help" :: topic =>
    match topicFault? topic with
    | some fault => .error fault
    | none => .ok none
  | name :: arguments => do
    let some names := taskOptions? name | throw (.unknown name)
    let s ← scan names arguments
    let task ← Task.ofOptions name s
    if s.asksHelp then return none
    match s.rest with
    | [] => return some task
    | extra :: more =>
      if extra = endOfOptions && more.isEmpty then return some task else throw (.unknown extra)

def programOptions : OptionNames where
  valued := ["--config", "--calibration", "--log-level"]
  flags := ["--json"]
  final := ["-h", "--help", "-V", "--version"]

def Request.ofArguments (arguments : List String) : Except UsageFault Request := do
  let s ← scan programOptions arguments
  let config ← s.value? "--config" path?
  let calibration ← s.value? "--calibration" path?
  if s.asksHelp then return .help
  if s.has "-V" || s.has "--version" then return .version
  match ← Task.ofArguments? s.rest with
  | none => return .help
  | some task => return .run {
      config := config.getD "etc/lpm.toml"
      calibration := calibration
      json := s.has "--json"
      task := task }

end Calorimetry.Command
