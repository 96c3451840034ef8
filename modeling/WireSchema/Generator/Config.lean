import WireSchema.Files.Access
import WireSchema.Files.Path
import WireSchema.Text.Blank
import WireSchema.Text.Quoted
import WireSchema.Text.Units
import WireSchema.Toml.Reader

/-!
# Configuration of the generator

A configuration says which documents are compiled and where the contracts go.  A configuration
file is a TOML text; keys that it leaves out have their defaults, and keys it does not know are
passed over.  Before use a configuration is validated.
-/

namespace WireSchema
namespace Generator

structure Config where
  sourceDir : String
  outDir : String
  /-- Names of the documents to compile; none stands for all. -/
  files : List String
  logLevel : String
  /-- Whether contracts are spread over lines. -/
  pretty : Bool
  deriving DecidableEq, Repr, Inhabited

/-- What makes a configuration invalid. -/
inductive ConfigFault where
  | emptySourceDir
  | emptyOutDir
  | sameDirectories (path : String)
  | emptyFile (index : Nat)
  | unknownLogLevel (level : String)
  deriving DecidableEq, Repr

inductive ConfigError where
  | unreadable
  | malformed
  | invalid (fault : ConfigFault)
  deriving DecidableEq, Repr

def logLevels : List String := ["trace", "debug", "info", "warn", "error", "off"]

def ConfigFault.message : ConfigFault → String
  | .emptySourceDir => "src_dir is empty"
  | .emptyOutDir => "out_dir is empty"
  | .sameDirectories path => "src_dir and out_dir are both " ++ path
  | .emptyFile index => "files[" ++ toString index ++ "] is empty"
  | .unknownLogLevel level =>
    "Unknown log level " ++ Text.quoted level ++ " (expected one of " ++
      String.intercalate ", " logLevels ++ ")"

def ConfigError.message : ConfigError → String
  | .unreadable => "I/O error"
  | .malformed => "TOML parse error"
  | .invalid fault => "Invalid configuration: " ++ fault.message

namespace Config

def standard : Config := ⟨"packme", "generated", [], "info", true⟩

def fault? (config : Config) : Option ConfigFault :=
  if config.sourceDir.isEmpty then some .emptySourceDir
  else if config.outDir.isEmpty then some .emptyOutDir
  else if Files.samePath config.sourceDir config.outDir then
    some (.sameDirectories config.sourceDir)
  else
    match config.files.findIdx? Text.isBlankText with
    | some index => some (.emptyFile index)
    | none =>
      if logLevels.contains config.logLevel then none
      else some (.unknownLogLevel config.logLevel)

def validate (config : Config) : Except ConfigError Unit :=
  match config.fault? with
  | some fault => .error (.invalid fault)
  | none => .ok ()

/-! ## From configuration files -/

/-- The value of a key, or a default if the key is missing; `none` if it has another form. -/
def entryOr {α : Type} (table : Toml.Table) (key : String) (read : Toml.Value → Option α)
    (default : α) : Option α :=
  match table.find? key with
  | some value => read value
  | none => some default

def text? : Toml.Value → Option String
  | .string text => some text
  | _ => none

def texts? : Toml.Value → Option (List String)
  | .array items => items.mapM text?
  | _ => none

def flag? : Toml.Value → Option Bool
  | .boolean value => some value
  | _ => none

def ofTable? (table : Toml.Table) : Option Config := do
  let sourceDir ← entryOr table "src_dir" text? standard.sourceDir
  let outDir ← entryOr table "out_dir" text? standard.outDir
  let files ← entryOr table "files" texts? standard.files
  let logLevel ← entryOr table "log_level" text? standard.logLevel
  let pretty ← entryOr table "pretty" flag? standard.pretty
  return ⟨sourceDir, outDir, files, logLevel, pretty⟩

def ofText (text : String) : Except ConfigError Config :=
  match (Toml.Table.ofText? text).bind ofTable? with
  | none => .error .malformed
  | some config => config.validate.map fun () => config

def load {m : Type → Type} [Monad m] [FileAccess m] (path : String) :
    ExceptT ConfigError m Config := do
  match (← FileAccess.read? (m := m) path).bind Text.ofUtf8? with
  | some text => ExceptT.mk (pure (ofText text))
  | none => throw .unreadable

/-! ## The sample file -/

/-- A configuration as the lines of a file.  Names need no escapes here. -/
def lines (config : Config) : List String :=
  let text (value : String) : String := "\"" ++ value ++ "\""
  ["src_dir = " ++ text config.sourceDir, "out_dir = " ++ text config.outDir, "files = ["] ++
    config.files.map (fun name => "    " ++ text name ++ ",") ++
    ["]", "log_level = " ++ text config.logLevel, "pretty = " ++ toString config.pretty]

def sample : String :=
  let shown : Config := { standard with files := ["shop", "pings"] }
  String.intercalate "\n"
    (["# PackMe generator configuration", "# Generated by packme-gen gen-config", ""] ++
      shown.lines) ++ "\n"

end Config
end Generator
end WireSchema
