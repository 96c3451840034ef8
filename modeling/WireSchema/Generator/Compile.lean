import WireSchema.Contract
import WireSchema.Files.Load
import WireSchema.Generator.Config
import WireSchema.Schema.Resolve

/-!
# Compiling to files

Checking loads and resolves the documents of a configuration.  Compiling writes, besides, the
contract of every namespace.  Nothing is written before all contracts are there.
-/

namespace WireSchema
namespace Generator

inductive GenerationError where
  | config (error : ConfigError)
  | schema (error : SchemaError)
  | unwritable (path : String)
  deriving DecidableEq, Repr

def GenerationError.message : GenerationError → String
  | .config error => error.message
  | .schema error => error.message
  | .unwritable path => "unable to write " ++ path

/-- The declarations of a namespace in numbers, and the path of its contract once written. -/
structure Summary where
  space : String
  enums : Nat
  objects : Nat
  messages : Nat
  requests : Nat
  contract : Option String
  deriving DecidableEq, Repr

def Summary.ofNamespace (space : Namespace) : Summary :=
  ⟨space.name, space.enums.length, space.objects.length, space.messages.length,
    space.requests.length, none⟩

def Summary.text (summary : Summary) : String :=
  summary.space ++ ": " ++ toString summary.enums ++ " enum(s), " ++ toString summary.objects ++
    " object(s), " ++ toString summary.messages ++ " message(s), " ++ toString summary.requests ++
    " request(s)"

def contractSuffix : String := ".contract.json"

variable {m : Type → Type} [Monad m] [FileAccess m]

def resolve (config : Config) : ExceptT GenerationError m Graph := do
  match config.validate with
  | .error error => throw (.config error)
  | .ok () =>
    match ← (Files.loadDirectory (m := m) config.sourceDir config.files).run with
    | .error error => throw (.schema error)
    | .ok documents =>
      match Graph.compile documents with
      | .error error => throw (.schema error)
      | .ok graph => return graph

def summaries (graph : Graph) : List Summary := graph.namespaces.map Summary.ofNamespace

def check (config : Config) : ExceptT GenerationError m (Graph × List Summary) := do
  let graph ← resolve config
  return (graph, summaries graph)

/-- The summaries of a graph, each with the text of its contract. -/
def contracts (config : Config) (graph : Graph) : List (Summary × Option String) :=
  (summaries graph).map fun summary =>
    (summary, (Contract.ofGraph? graph summary.space).map (·.text config.pretty))

/-- The file that holds the contract of a namespace. -/
def contractName (space : String) : String := space ++ contractSuffix

def contractPath (outDir space : String) : String := Files.join outDir (contractName space)

/-- Writes contracts one after another, each followed by a line end. -/
def writeContracts (outDir : String) :
    List (Summary × Option String) → ExceptT GenerationError m (List Summary)
  | [] => return []
  | (summary, none) :: rest => return summary :: (← writeContracts outDir rest)
  | (summary, some text) :: rest => do
    let path := contractPath outDir summary.space
    if ← FileAccess.write (m := m) path (Text.utf8 (text ++ "\n")) then
      return { summary with contract := some path } :: (← writeContracts outDir rest)
    else throw (.unwritable path)

def compile (config : Config) : ExceptT GenerationError m (List Summary) := do
  let graph ← resolve config
  let planned := contracts config graph
  if ← FileAccess.makeDirectories (m := m) config.outDir then
    writeContracts config.outDir planned
  else throw (.unwritable config.outDir)

end Generator
end WireSchema
