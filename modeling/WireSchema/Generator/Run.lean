import WireSchema.Generator.Arguments
import WireSchema.Generator.Compile

/-!
# Running commands

A command ends with an exit code and with what it prints: results on the output, and on a failure
one line that says what was tried and why it failed.
-/

namespace WireSchema
namespace Generator

structure Outcome where
  exitCode : UInt32
  output : String
  failure : Option String
  deriving DecidableEq, Repr

namespace Outcome

def success (output : String) : Outcome := ⟨0, output, none⟩

def failed (reason : String) : Outcome := ⟨1, "", some ("error: " ++ reason)⟩

/-- The outcome of a command line without meaning. -/
def misuse : Outcome := ⟨2, "", none⟩

end Outcome

def versionText : String := "packme-gen 0.1.0"

variable {m : Type → Type} [Monad m] [FileAccess m]

/-- A configuration with what a command line says in its place. -/
def Config.amended (config : Config) (sourceDir : Option String) (files : List String) : Config :=
  { config with
    sourceDir := sourceDir.getD config.sourceDir
    files := if files.isEmpty then config.files else files }

def outputLines (lines : List String) : String := String.join (lines.map (· ++ "\n"))

def summaryLines (summaries : List Summary) : List String :=
  summaries.map fun summary => "  " ++ summary.text

def runCompile (config : Config) : m Outcome := do
  match ← (compile (m := m) config).run with
  | .error error =>
    return .failed ("compilation of " ++ config.sourceDir ++ " failed: " ++ error.message)
  | .ok summaries =>
    let written := (summaries.filter (·.contract.isSome)).length
    return .success (outputLines (summaryLines summaries ++
      ["Wrote " ++ toString written ++ " contract(s) to " ++ config.outDir]))

def runCheck (config : Config) : m Outcome := do
  match ← (check (m := m) config).run with
  | .error error =>
    return .failed ("check of " ++ config.sourceDir ++ " failed: " ++ error.message)
  | .ok (graph, summaries) =>
    return .success (outputLines (summaryLines summaries ++
      ["Schema valid: " ++ toString summaries.length ++ " namespace(s), " ++
        toString graph.allFactoryIds.length ++ " wire id(s)"]))

def runSample (output : String) : m Outcome := do
  if ← FileAccess.write (m := m) output (Text.utf8 Config.sample) then
    return .success (outputLines ["Generated configuration file: " ++ output])
  else return .failed ("failed to write " ++ output)

def runCommand (config : Config) : Command → m Outcome
  | .compile sourceDir outDir files compact =>
    let config := config.amended sourceDir files
    runCompile
      { config with
        outDir := outDir.getD config.outDir
        pretty := config.pretty && !compact }
  | .check sourceDir files => runCheck (config.amended sourceDir files)
  | .sample output => runSample output

/-- The configuration that a command line starts from. -/
def startingConfig (arguments : Arguments) : ExceptT ConfigError m Config := do
  let config ←
    match arguments.config with
    | some path => Config.load path
    | none => pure Config.standard
  return { config with logLevel := arguments.logLevel.getD config.logLevel }

def runArguments (arguments : Arguments) : m Outcome := do
  match ← (startingConfig (m := m) arguments).run with
  | .error error =>
    return .failed ("failed to load " ++ arguments.config.getD "" ++ ": " ++ error.message)
  | .ok config => runCommand config arguments.command

def run (arguments : List String) : m Outcome :=
  match Request.ofArguments arguments with
  | .run arguments => runArguments arguments
  | .version => pure (.success (outputLines [versionText]))
  | .help => pure (.success "")
  | .misuse => pure .misuse

end Generator
end WireSchema
