import WireSchema.Log
import WireSchema.Schema.Resolve

/-!
# Records of a compilation

Compiling a batch records every document as it is read, and at last the whole graph.
-/

namespace WireSchema

def Outline.logRecord (outline : Outline) : LogRecord :=
  .outlined outline.space outline.enums.length outline.objects.length

def Graph.logRecord (graph : Graph) : LogRecord :=
  .resolved graph.namespaces.length graph.enums.size graph.objects.size graph.wireIds.size
    graph.tables.length

/-- Compiles a batch of documents, with the records of it. -/
def Graph.compileLogged (documents : List Document) :
    Except SchemaError (Graph × List LogRecord) := do
  let outlines ← documents.mapM Outline.ofDocument
  let graph ← Graph.resolve outlines
  return (graph, outlines.map Outline.logRecord ++ [graph.logRecord])

end WireSchema
