/-!
# Command lines

A command line names a command, with options before it or after it.  An option stands in one
argument, or its value in the next one; short options may be joined.  A value that begins with a
dash is taken for an option, unless it is a dash alone.  After two dashes nothing is an option any
more.  Every option is given at most once per level; of the options that may stand before and after
the command the one after it counts.
-/

namespace WireSchema
namespace Generator

inductive Command where
  | compile (sourceDir outDir : Option String) (files : List String) (compact : Bool)
  | check (sourceDir : Option String) (files : List String)
  | sample (output : String)
  deriving DecidableEq, Repr

structure Arguments where
  config : Option String
  logLevel : Option String
  command : Command
  deriving DecidableEq, Repr

/-- What a command line asks for. -/
inductive Request where
  | run (arguments : Arguments)
  | version
  | help
  /-- The command line has no meaning. -/
  | misuse
  deriving DecidableEq, Repr

/-- The options of all levels. -/
inductive Switch where
  | config
  | logLevel
  | compact
  | output
  | help
  | version
  deriving DecidableEq, Repr

namespace Switch

def long : Switch → String
  | .config => "config"
  | .logLevel => "log-level"
  | .compact => "compact"
  | .output => "output"
  | .help => "help"
  | .version => "version"

def short? : Switch → Option Char
  | .config => some 'c'
  | .output => some 'o'
  | .help => some 'h'
  | .version => some 'V'
  | .logLevel | .compact => none

def takesValue : Switch → Bool
  | .config | .logLevel | .output => true
  | .compact | .help | .version => false

/-- A path may not be empty. -/
def admits : Switch → String → Bool
  | .config, value => !value.isEmpty
  | .output, value => !value.isEmpty
  | _, _ => true

end Switch

/-- Where on a command line an argument stands: before the command, or after it. -/
inductive Level where
  | root
  | compile
  | check
  | sample
  deriving DecidableEq, Repr

namespace Level

def switches : Level → List Switch
  | .root => [.config, .logLevel, .help, .version]
  | .compile => [.config, .logLevel, .compact, .help]
  | .check => [.config, .logLevel, .help]
  | .sample => [.config, .logLevel, .output, .help]

/-- Whether one more argument that is no option may follow so many others. -/
def admitsOperand : Level → (before : Nat) → String → Bool
  | .root, _, _ => false
  | .compile, before, value => 2 ≤ before || !value.isEmpty
  | .check, before, value => 1 ≤ before || !value.isEmpty
  | .sample, _, _ => false

def ofCommand? (name : String) : Option Level :=
  if name = "compile" then some .compile
  else if name = "check" then some .check
  else if name = "gen-config" then some .sample
  else none

end Level

/-- What was found at one level: options with their values, and the other arguments. -/
structure Found where
  options : List (Switch × String)
  operands : List String
  deriving DecidableEq, Repr

namespace Found

def none : Found := ⟨[], []⟩

def has (found : Found) (switch : Switch) : Bool := found.options.any (·.1 == switch)

def value? (found : Found) (switch : Switch) : Option String :=
  (found.options.find? (·.1 == switch)).map (·.2)

/-- Adds an option that was not given before. -/
def addOption? (found : Found) (switch : Switch) (value : String) : Option Found :=
  if found.has switch || !switch.admits value then Option.none
  else some { found with options := found.options ++ [(switch, value)] }

def addOperand? (found : Found) (level : Level) (value : String) : Option Found :=
  if level.admitsOperand found.operands.length value then
    some { found with operands := found.operands ++ [value] }
  else Option.none

def addOperands? (found : Found) (level : Level) (values : List String) : Option Found :=
  values.foldlM (fun found value => found.addOperand? level value) found

end Found

/-- How the arguments of a level end. -/
inductive Scan where
  | done (found : Found)
  /-- A command follows, with arguments of its own. -/
  | command (found : Found) (name : String) (rest : List String)
  | version
  | help
  | misuse

/-- Whether an argument can only be an option. -/
def looksLikeOption (argument : String) : Bool :=
  argument.toList.head? == some '-' && argument != "-"

/-- What is left to do after an argument with short options. -/
inductive Cluster where
  | done (found : Found)
  /-- The last option still needs its value. -/
  | pending (found : Found) (switch : Switch)
  | stop (scan : Scan)

def scanCluster (level : Level) (found : Found) : List Char → Cluster
  | [] => .done found
  | c :: rest =>
    match level.switches.find? fun switch => switch.short? == some c with
    | none => .stop .misuse
    | some switch =>
      if switch.takesValue then
        match rest with
        | [] => .pending found switch
        | '=' :: value => attached switch value
        | value => attached switch value
      else
        match switch with
        | .help => .stop .help
        | .version => .stop .version
        | _ =>
          match found.addOption? switch "" with
          | some found => scanCluster level found rest
          | none => .stop .misuse
where
  attached (switch : Switch) (value : List Char) : Cluster :=
    match found.addOption? switch (String.ofList value) with
    | some found => .done found
    | none => .stop .misuse

/-- The name of a long option and the value attached to it. -/
def splitLong (text : List Char) : String × Option String :=
  match text.dropWhile (· ≠ '=') with
  | '=' :: value => (String.ofList (text.takeWhile (· ≠ '=')), some (String.ofList value))
  | _ => (String.ofList text, none)

def scanLong (level : Level) (found : Found) (text : List Char) : Cluster :=
  let (name, attached) := splitLong text
  match level.switches.find? fun switch => switch.long == name with
  | none => .stop .misuse
  | some switch =>
    match switch.takesValue, attached with
    | true, some value =>
      match found.addOption? switch value with
      | some found => .done found
      | none => .stop .misuse
    | true, none => .pending found switch
    | false, some _ => .stop .misuse
    | false, none =>
      match switch with
      | .help => .stop .help
      | .version => .stop .version
      | _ =>
        match found.addOption? switch "" with
        | some found => .done found
        | none => .stop .misuse

/-- Reads the arguments of a level.  `pending` is an option whose value comes next. -/
def scan (level : Level) (found : Found) (pending : Option Switch) : List String → Scan
  | [] => if pending.isSome then .misuse else .done found
  | argument :: rest =>
    match pending with
    | some switch =>
      if looksLikeOption argument then .misuse
      else
        match found.addOption? switch argument with
        | some found => scan level found none rest
        | none => .misuse
    | none =>
      if argument = "--" then
        match found.addOperands? level rest with
        | some found => .done found
        | none => .misuse
      else if looksLikeOption argument then
        let cluster :=
          match argument.toList with
          | '-' :: '-' :: text => scanLong level found text
          | _ => scanCluster level found (argument.toList.drop 1)
        match cluster with
        | .done found => scan level found none rest
        | .pending found switch => scan level found (some switch) rest
        | .stop scan => scan
      else if level = .root then .command found argument rest
      else
        match found.addOperand? level argument with
        | some found => scan level found none rest
        | none => .misuse

def sampleFile : String := "packme.toml"

def Level.command? (level : Level) (found : Found) : Option Command :=
  match level with
  | .root => none
  | .compile =>
    some (.compile found.operands[0]? found.operands[1]? (found.operands.drop 2)
      (found.has .compact))
  | .check => some (.check found.operands[0]? (found.operands.drop 1))
  | .sample => some (.sample ((found.value? .output).getD sampleFile))

/-- What is asked for by asking for help on commands. -/
def helpRequest : List String → Request
  | [] => .help
  | [name] => if name = "help" || (Level.ofCommand? name).isSome then .help else .misuse
  | _ => .misuse

/-- What a command with its arguments asks for, after options before the command. -/
def commandRequest (before : Found) (name : String) (rest : List String) : Request :=
  match Level.ofCommand? name with
  | none => if name = "help" then helpRequest rest else .misuse
  | some level =>
    match scan level .none none rest with
    | .done found =>
      let option (switch : Switch) : Option String := found.value? switch <|> before.value? switch
      match level.command? found with
      | some command => .run ⟨option .config, option .logLevel, command⟩
      | none => .misuse
    | .command _ _ _ => .misuse
    | .version => .version
    | .help => .help
    | .misuse => .misuse

def Request.ofArguments (arguments : List String) : Request :=
  match scan .root .none none arguments with
  | .command before name rest => commandRequest before name rest
  | .done _ => .misuse
  | .version => .version
  | .help => .help
  | .misuse => .misuse

end Generator
end WireSchema
