import WireSchema.Number.BinaryFloat

/-!
# Values of configuration texts

A configuration text in TOML is a table of named values.  A table knows how it came about, since
that decides which later lines may still add to it: a table made on the way to another one is
implicit, and so is one made by a dotted key, which only other dotted keys extend.
-/

namespace WireSchema
namespace Toml

mutual

inductive Value where
  | string (text : String)
  | integer (value : Int)
  | real (value : Number.Binary64)
  | boolean (value : Bool)
  /-- A date, a time or both, as written. -/
  | datetime (text : String)
  | array (items : List Value)
  /-- A table within braces, which no later line extends. -/
  | inlineTable (table : Table)
  | table (table : Table)
  /-- An array of tables of which the last one is still extended. -/
  | tables (before : List Table) (last : Table)

structure Table where
  isImplicit : Bool
  isDotted : Bool
  entries : List (String × Value)

end

instance : Inhabited Table := ⟨⟨false, false, []⟩⟩

namespace Table

/-- A table that a header or a text stands for. -/
def empty : Table := ⟨false, false, []⟩

/-- A table made on the way to another one. -/
def implicit (isDotted : Bool) : Table := ⟨true, isDotted, []⟩

def find? (table : Table) (key : String) : Option Value :=
  (table.entries.find? (·.1 == key)).map (·.2)

/-- The entries with one of them set: at its place if the key is taken, at the end if not. -/
def setEntry (key : String) (value : Value) : List (String × Value) → List (String × Value)
  | [] => [(key, value)]
  | (other, held) :: rest =>
    if other = key then (other, value) :: rest else (other, held) :: setEntry key value rest

def set (table : Table) (key : String) (value : Value) : Table :=
  { table with entries := setEntry key value table.entries }

/-- Adds an entry under a key that is not taken. -/
def insertNew? (table : Table) (key : String) (value : Value) : Option Table :=
  match table.find? key with
  | some _ => none
  | none => some (table.set key value)

/-- Changes the table at the end of a path of keys.  Missing tables are made on the way.  By dotted
keys only implicit tables are entered. -/
def update? (dotted : Bool) (change : Table → Option Table) : List String → Table → Option Table
  | [], table => change table
  | key :: rest, table =>
    match table.find? key with
    | none => (update? dotted change rest (.implicit dotted)).map fun inner =>
        table.set key (.table inner)
    | some (.table inner) =>
      if dotted && !inner.isImplicit then none
      else (update? dotted change rest inner).map fun inner => table.set key (.table inner)
    | some (.tables before last) =>
      (update? dotted change rest last).map fun last => table.set key (.tables before last)
    | some _ => none

/-- Adds an entry under a dotted key.  The table it ends in must have been made by dotted keys. -/
def insertDotted? (path : List String) (key : String) (value : Value) (table : Table) :
    Option Table :=
  table.update? true (fun inner =>
    if path.isEmpty || inner.isDotted then inner.insertNew? key value else none) path

/-- Makes the table of a header.  A table that was only implicit becomes explicit. -/
def openTable? (key : String) (table : Table) : Option Table :=
  match table.find? key with
  | none => some (table.set key (.table .empty))
  | some (.table inner) =>
    if inner.isImplicit && !inner.isDotted then
      some (table.set key (.table { inner with isImplicit := false }))
    else none
  | some _ => none

/-- Adds a table to an array of tables. -/
def appendTable? (key : String) (table : Table) : Option Table :=
  match table.find? key with
  | none => some (table.set key (.tables [] .empty))
  | some (.tables before last) => some (table.set key (.tables (before ++ [last]) .empty))
  | some _ => none

def ofPairs? (pairs : List (List String × Value)) : Option Table :=
  pairs.foldlM (fun table (path, value) =>
    match path.getLast? with
    | some key => insertDotted? path.dropLast key value table
    | none => none) .empty

end Table

/-- A line of a text that says something. -/
inductive Line where
  | pair (path : List String) (value : Value)
  | header (path : List String)
  | tablesHeader (path : List String)

/-- The table so far, with the keys of the header that the next lines belong to. -/
structure Assembly where
  root : Table
  current : List String

namespace Assembly

def start : Assembly := ⟨.empty, []⟩

def add? (assembly : Assembly) : Line → Option Assembly
  | .pair path value => do
    let key ← path.getLast?
    let root ← assembly.root.update? false (Table.insertDotted? path.dropLast key value)
      assembly.current
    return { assembly with root := root }
  | .header path => do
    let key ← path.getLast?
    let root ← assembly.root.update? false (Table.openTable? key) path.dropLast
    return ⟨root, path⟩
  | .tablesHeader path => do
    let key ← path.getLast?
    let root ← assembly.root.update? false (Table.appendTable? key) path.dropLast
    return ⟨root, path⟩

end Assembly

def Table.ofLines? (lines : List Line) : Option Table :=
  (lines.foldlM Assembly.add? Assembly.start).map Assembly.root

end Toml
end WireSchema
