/-!
# Reserved words

Words that no generated name may equal, since they are keywords or members of generated message
classes.
-/

namespace WireSchema
namespace Naming

def reservedWords : List String :=
  ["assert", "bool", "break", "case", "catch", "class", "const", "continue", "covariant",
   "DateTime", "default", "deferred", "do", "double", "else", "enum", "export", "extends",
   "extension", "external", "factory", "false", "final", "finally", "for", "if", "in", "int",
   "is", "Iterable", "List", "Map", "new", "Null", "null", "PackMe", "PackMeMessage", "rethrow",
   "return", "Set", "super", "switch", "this", "throw", "true", "try", "values", "var", "void",
   "while", "with", "hashCode", "noSuchMethod", "runtimeType", "String", "toString", "Uint8List"]

def isReserved (name : String) : Bool := reservedWords.contains name

end Naming
end WireSchema
