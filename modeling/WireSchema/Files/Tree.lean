import WireSchema.Files.Access
import WireSchema.Files.Path
import WireSchema.Text.Units

/-!
# Trees of files

A file tree holds the directories and files below a root.  A path leads from the root if it begins
with a slash, and else from the place at which the tree is looked at.  There are no links, so that
two places never hold one file.  Any access may be refused at any place, and a request that fails
at a file leaves the file as it is.
-/

namespace WireSchema

open Files

/-- The longest name, in bytes. -/
def nameLimit : Nat := 255

/-- Whether bytes can stand for an entry of a directory.  Zero and the slash end a name. -/
def isEntryName (bytes : List UInt8) : Bool :=
  !bytes.isEmpty && bytes.length ≤ nameLimit && !bytes.contains 0 && !bytes.contains 0x2f &&
    bytes != Text.utf8 currentDirectory && bytes != Text.utf8 parentDirectory

/-- The name of an entry of a directory.  It may be no text. -/
structure FileName where
  bytes : List UInt8
  isEntry : isEntryName bytes = true
  deriving DecidableEq, Repr

def FileName.of? (text : String) : Option FileName :=
  if h : isEntryName (Text.utf8 text) = true then some ⟨Text.utf8 text, h⟩ else none

/-- The names that lead from the root to a directory or file. -/
abbrev Place := List FileName

/-- The place of names that are texts; others are passed over. -/
def placeOf (names : List String) : Place := names.filterMap FileName.of?

/-- What there is at a place. -/
inductive FileNode where
  | directory
  | file (bytes : List UInt8)
  deriving DecidableEq, Repr

def FileNode.isFile : FileNode → Bool
  | .directory => false
  | .file _ => true

/-- What can be refused at a place: to go on from a directory, to list its names, to read a file,
and to change what a file or directory holds. -/
inductive Access where
  | enter
  | list
  | read
  | change
  deriving DecidableEq, Repr

/-- The directories and files below a root, each place once, in the order in which directories list
them. -/
structure FileTree where
  nodes : List (Place × FileNode)
  distinct : (nodes.map (·.1)).Nodup
  /-- Where paths start that do not start at the root. -/
  start : Place
  refused : List (Access × Place)
  deriving DecidableEq, Repr

/-- Why a path leads nowhere: something on the way is missing, or no way leads on. -/
inductive PathFault where
  | missing
  | obstructed
  deriving DecidableEq, Repr

namespace FileTree

def empty : FileTree := ⟨[], List.nodup_nil, [], []⟩

instance : Inhabited FileTree := ⟨empty⟩

/-! ## Places -/

def node? (tree : FileTree) (place : Place) : Option FileNode :=
  if place.isEmpty then some .directory else (tree.nodes.find? (·.1 == place)).map (·.2)

def allows (tree : FileTree) (access : Access) (place : Place) : Bool :=
  !tree.refused.contains (access, place)

def setNode (place : Place) (node : FileNode) :
    List (Place × FileNode) → List (Place × FileNode)
  | [] => [(place, node)]
  | (other, held) :: rest =>
    if other = place then (place, node) :: rest else (other, held) :: setNode place node rest

theorem map_fst_setNode (place : Place) (node : FileNode) (nodes : List (Place × FileNode)) :
    (setNode place node nodes).map (·.1) =
      if place ∈ nodes.map (·.1) then nodes.map (·.1) else nodes.map (·.1) ++ [place] := by
  induction nodes with
  | nil => rfl
  | cons first rest ih =>
      rw [setNode]
      split
      next hsame => simp [hsame]
      next hother =>
        have hmem : place ∈ (first :: rest).map (·.1) ↔ place ∈ rest.map (·.1) := by
          rw [List.map_cons, List.mem_cons, or_iff_right (Ne.symm hother)]
        simp only [List.map_cons, ih, ← hmem]
        split <;> rfl

theorem nodup_setNode {place : Place} {node : FileNode} {nodes : List (Place × FileNode)}
    (hdistinct : (nodes.map (·.1)).Nodup) : ((setNode place node nodes).map (·.1)).Nodup := by
  rw [map_fst_setNode]
  split
  · exact hdistinct
  next hnew =>
    refine List.nodup_append.mpr ⟨hdistinct, by simp, ?_⟩
    intro other hother one hone
    rw [List.mem_singleton] at hone
    rintro rfl
    exact hnew (hone ▸ hother)

/-- A tree with one node more, or another one in its place. -/
def put (tree : FileTree) (place : Place) (node : FileNode) : FileTree :=
  { tree with
    nodes := setNode place node tree.nodes
    distinct := nodup_setNode tree.distinct }

/-- A tree with one node more, and the directories on the way to it. -/
def plant (tree : FileTree) (place : Place) (node : FileNode) : FileTree :=
  let outer := (List.range place.length).map place.take
  let grown := outer.foldl (fun tree above =>
    if (tree.node? above).isSome then tree else tree.put above .directory) tree
  grown.put place node

/-- Whether an entry can be added at a place. -/
def mayAdd (tree : FileTree) (place : Place) : Bool :=
  tree.node? place.dropLast == some .directory && tree.allows .change place.dropLast &&
    tree.allows .change place

/-! ## Paths -/

/-- One step of a path, from a place that must be a directory. -/
def step (tree : FileTree) (place : Place) (part : String) : Except PathFault Place :=
  match tree.node? place with
  | none => .error .missing
  | some (.file _) => .error .obstructed
  | some .directory =>
    if part.isEmpty then .ok place
    else if !tree.allows .enter place then .error .obstructed
    else if part = currentDirectory then .ok place
    else if part = parentDirectory then .ok place.dropLast
    else
      match FileName.of? part with
      | some name => .ok (place ++ [name])
      | none => .error .obstructed

/-- The longest path, in bytes. -/
def pathLimit : Nat := 4095

def isPath (path : String) : Bool :=
  path.utf8ByteSize ≤ pathLimit && !path.toList.contains '\x00'

/-- Where the parts of a path lead to.  A part that is empty and comes first stands for the root. -/
def locateParts (tree : FileTree) : List String → Except PathFault Place
  | [] => .error .missing
  | first :: rest =>
    if first.isEmpty then rest.foldlM tree.step [] else (first :: rest).foldlM tree.step tree.start

/-- The place that a path leads to, at which there may be nothing. -/
def locate (tree : FileTree) (path : String) : Except PathFault Place :=
  if path.isEmpty then .error .missing
  else if isPath path then tree.locateParts (pathParts path)
  else .error .obstructed

/-- What there is at the end of a path. -/
def find? (tree : FileTree) (path : String) : Option FileNode :=
  match tree.locate path with
  | .ok place => tree.node? place
  | .error _ => none

def isDirectory (tree : FileTree) (path : String) : Bool := tree.find? path == some .directory

def isFile (tree : FileTree) (path : String) : Bool := (tree.find? path).any (·.isFile)

/-! ## Reading -/

def read? (tree : FileTree) (path : String) : Option (List UInt8) :=
  match tree.locate path with
  | .ok place =>
    match tree.node? place with
    | some (.file bytes) => if tree.allows .read place then some bytes else none
    | _ => none
  | .error _ => none

/-- The name of an entry within a directory. -/
def childName? (directory place : Place) : Option FileName :=
  match place.getLast? with
  | some name => if place.dropLast = directory then some name else none
  | none => none

def childNames (tree : FileTree) (directory : Place) : List FileName :=
  (tree.nodes.map (·.1)).filterMap (childName? directory)

def names? (tree : FileTree) (path : String) : Option (List FileName) :=
  match tree.locate path with
  | .ok place =>
    if tree.node? place == some .directory && tree.allows .list place then
      some (tree.childNames place)
    else none
  | .error _ => none

/-! ## Writing -/

def write? (tree : FileTree) (path : String) (bytes : List UInt8) : Option FileTree :=
  match tree.locate path with
  | .ok place =>
    let isOpen : Bool :=
      match tree.node? place with
      | some .directory => false
      | some (.file _) => tree.allows .change place
      | none => tree.mayAdd place
    if isOpen then some (tree.put place (.file bytes)) else none
  | .error _ => none

def withoutEndingSlashes (path : String) : String :=
  String.ofList (path.toList.reverse.dropWhile (· = '/')).reverse

/-- Makes one directory, whose parent must be there. -/
def makeDirectory (tree : FileTree) (path : String) : Except PathFault FileTree :=
  if isPath path then
    match tree.locate (withoutEndingSlashes path) with
    | .error fault => .error fault
    | .ok place =>
      if tree.node? place = none && tree.mayAdd place then .ok (tree.put place .directory)
      else .error .obstructed
  else .error .obstructed

def ensureDirectory (tree : FileTree) (path : String) : Bool × FileTree :=
  match tree.makeDirectory path with
  | .ok made => (true, made)
  | .error _ => (tree.isDirectory path, tree)

/-- Makes directories one after another, up to the first that cannot be made. -/
def ensureDirectories (tree : FileTree) : List String → Bool × FileTree
  | [] => (true, tree)
  | path :: rest =>
    match tree.ensureDirectory path with
    | (true, tree) => tree.ensureDirectories rest
    | (false, tree) => (false, tree)

/-- Makes a directory and those above it that are missing. -/
def makeDirectories (tree : FileTree) (path : String) : Bool × FileTree :=
  if path.isEmpty then (true, tree)
  else
    match tree.makeDirectory path with
    | .error .missing => tree.ensureDirectories (outerDirectories path ++ [path])
    | _ => tree.ensureDirectory path

instance : FileAccess (StateM FileTree) where
  isDirectory path := do return (← get).isDirectory path
  isFile path := do return (← get).isFile path
  names? path := do return ((← get).names? path).map (·.map (·.bytes))
  read? path := do return (← get).read? path
  makeDirectories path := modifyGet fun tree => tree.makeDirectories path
  write path bytes :=
    modifyGet fun tree =>
      match tree.write? path bytes with
      | some written => (true, written)
      | none => (false, tree)

end FileTree
end WireSchema
