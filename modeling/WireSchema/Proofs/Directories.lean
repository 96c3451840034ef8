import WireSchema.Proofs.Loading
import WireSchema.Proofs.Trees

/-!
# Directories of a tree

Loading only asks, so that a tree is left as it is.  A directory of a tree answers like the list of
its entries, and what is loaded from it is what that list says: the documents in the files that are
asked for.
-/

namespace WireSchema

open Files

namespace FileTree

/-- The result of an action on a tree, and the tree that it leaves. -/
def perform {ε α : Type} (tree : FileTree) (action : ExceptT ε (StateM FileTree) α) :
    Except ε α × FileTree :=
  action.run.run tree

/-- The documents that are loaded from a directory. -/
def load (tree : FileTree) (directory : String) (files : List String) :
    Except SchemaError (List Document) :=
  (tree.perform (loadDirectory directory files)).1

variable {tree : FileTree} {directory name : String} {place : Place} {files : List String}

/-! ## The list of a directory -/

/-- An entry of a directory as the paths below the directory show it. -/
def entry (tree : FileTree) (directory : String) (name : FileName) : Entry :=
  match Text.ofUtf8? name.bytes with
  | some text => ⟨name.bytes, tree.isFile (join directory text), tree.read? (join directory text)⟩
  | none => ⟨name.bytes, false, none⟩

theorem name_entry (directory : String) (name : FileName) :
    (tree.entry directory name).name = name.bytes := by
  unfold entry
  split <;> rfl

def listing (tree : FileTree) (directory : String) (place : Place) : Listing where
  path := directory
  entries := (tree.childNames place).map (tree.entry directory)
  distinct := by
    rw [List.map_map]
    refine nodup_childNames.map ?_
    intro one another hsame
    rw [Function.comp_apply, Function.comp_apply, name_entry, name_entry] at hsame
    cases one
    cases another
    cases hsame
    rfl
  plain := by
    intro entry hentry text htext
    obtain ⟨inner, -, rfl⟩ := List.mem_map.mp hentry
    rw [name_entry, ← FileName.of?_eq_some_iff_ofUtf8?] at htext
    exact FileName.isPlain_of_of? htext

theorem path_listing : (tree.listing directory place).path = directory := rfl

theorem entryAt?_listing {inner : FileName} (hinner : inner ∈ tree.childNames place)
    (hname : Text.ofUtf8? inner.bytes = some name) :
    (tree.listing directory place).entryAt? (join directory name) =
      some ⟨inner.bytes, tree.isFile (join directory name),
        tree.read? (join directory name)⟩ := by
  have hentry : tree.entry directory inner =
      ⟨inner.bytes, tree.isFile (join directory name), tree.read? (join directory name)⟩ := by
    rw [entry, hname]
  have hmem : tree.entry directory inner ∈ (tree.listing directory place).entries :=
    List.mem_map_of_mem hinner
  rw [← hentry]
  exact Listing.entryAt?_of_mem hmem (by rw [name_entry, hname])

/-! ## Actions that only ask -/

/-- An action gives on a tree what another one gives on a list, and leaves the tree as it is. -/
def Agrees {ε α : Type} (tree : FileTree) (listing : Listing)
    (action : ExceptT ε (StateM FileTree) α) (other : ExceptT ε (ReaderM Listing) α) : Prop :=
  tree.perform action = (listing.answer other, tree)

section Agreement

variable {ε α β : Type} {listing : Listing}

theorem perform_bind (action : ExceptT ε (StateM FileTree) α)
    (next : α → ExceptT ε (StateM FileTree) β) :
    tree.perform (action >>= next) =
      match tree.perform action with
      | (.ok value, after) => after.perform (next value)
      | (.error fault, after) => (.error fault, after) := by
  change (match action.run.run tree with
    | (result, after) => (match result with
      | .ok value => (next value).run
      | .error fault => pure (.error fault) : StateM FileTree (Except ε β)).run after) = _
  unfold perform
  rcases action.run.run tree with ⟨result, after⟩
  cases result <;> rfl

theorem perform_liftM (request : StateM FileTree α) :
    tree.perform (ε := ε) (liftM request) = (.ok (request.run tree).1, (request.run tree).2) := rfl

theorem perform_run {δ : Type} (action : ExceptT δ (StateM FileTree) α) :
    tree.perform (ε := ε) (liftM action.run) =
      (.ok (tree.perform action).1, (tree.perform action).2) := rfl

theorem perform_isDirectory (path : String) :
    tree.perform (ε := ε) (liftM (FileAccess.isDirectory (m := StateM FileTree) path)) =
      (.ok (tree.isDirectory path), tree) := rfl

theorem perform_names? (path : String) :
    tree.perform (ε := ε) (liftM (FileAccess.names? (m := StateM FileTree) path)) =
      (.ok ((tree.names? path).map (·.map (·.bytes))), tree) := rfl

theorem perform_read? (path : String) :
    tree.perform (ε := ε) (liftM (FileAccess.read? (m := StateM FileTree) path)) =
      (.ok (tree.read? path), tree) := rfl

theorem perform_makeDirectories (path : String) :
    tree.perform (ε := ε) (liftM (FileAccess.makeDirectories (m := StateM FileTree) path)) =
      (.ok (tree.makeDirectories path).1, (tree.makeDirectories path).2) := rfl

theorem perform_write_of_some {path : String} {bytes : List UInt8} {next : FileTree}
    (hwrite : tree.write? path bytes = some next) :
    tree.perform (ε := ε) (liftM (FileAccess.write (m := StateM FileTree) path bytes)) =
      (.ok true, next) := by
  rw [perform_liftM, FileAccess.write, instFileAccessStateM, StateT.run_modifyGet, hwrite]
  rfl

theorem perform_write_of_none {path : String} {bytes : List UInt8}
    (hwrite : tree.write? path bytes = none) :
    tree.perform (ε := ε) (liftM (FileAccess.write (m := StateM FileTree) path bytes)) =
      (.ok false, tree) := by
  rw [perform_liftM, FileAccess.write, instFileAccessStateM, StateT.run_modifyGet, hwrite]
  rfl

theorem Agrees.bind {action : ExceptT ε (StateM FileTree) α}
    {other : ExceptT ε (ReaderM Listing) α} {next : α → ExceptT ε (StateM FileTree) β}
    {next' : α → ExceptT ε (ReaderM Listing) β} (haction : tree.Agrees listing action other)
    (hnext : ∀ value, listing.answer other = .ok value →
      tree.Agrees listing (next value) (next' value)) :
    tree.Agrees listing (action >>= next) (other >>= next') := by
  rw [Agrees, perform_bind, haction, Listing.answer_bind]
  cases hvalue : listing.answer other with
  | error fault => rfl
  | ok value => exact hnext value hvalue

theorem Agrees.pure (value : α) :
    tree.Agrees (ε := ε) listing (Pure.pure value) (Pure.pure value) := rfl

theorem Agrees.throw (fault : ε) :
    tree.Agrees listing (throw fault : ExceptT ε (StateM FileTree) α) (throw fault) := rfl

/-- A question that is answered alike. -/
theorem Agrees.ask {question : StateM FileTree α} {question' : ReaderM Listing α}
    (hanswer : question.run tree = (question'.run listing, tree)) :
    tree.Agrees (ε := ε) listing (liftM question) (liftM question') := by
  rw [Agrees, perform_liftM, hanswer]
  rfl

theorem Agrees.filterAuxM {keep : α → StateM FileTree Bool} {keep' : α → ReaderM Listing Bool}
    {items : List α}
    (hkeep : ∀ item ∈ items, (keep item).run tree = ((keep' item).run listing, tree))
    (kept : List α) :
    tree.Agrees (ε := ε) listing (List.filterAuxM (fun item => liftM (keep item)) items kept)
      (List.filterAuxM (fun item => liftM (keep' item)) items kept) := by
  induction items generalizing kept with
  | nil => exact .pure kept
  | cons item rest ih =>
      rw [List.forall_mem_cons] at hkeep
      exact (Agrees.ask hkeep.1).bind fun value _ => ih hkeep.2 (cond value (item :: kept) kept)

theorem Agrees.filterM {keep : α → StateM FileTree Bool} {keep' : α → ReaderM Listing Bool}
    {items : List α}
    (hkeep : ∀ item ∈ items, (keep item).run tree = ((keep' item).run listing, tree)) :
    tree.Agrees (ε := ε) listing (items.filterM fun item => liftM (keep item))
      (items.filterM fun item => liftM (keep' item)) :=
  (Agrees.filterAuxM hkeep []).bind fun kept _ => .pure kept.reverse

theorem Agrees.mapM {action : α → ExceptT ε (StateM FileTree) β}
    {other : α → ExceptT ε (ReaderM Listing) β} {items : List α}
    (haction : ∀ item ∈ items, tree.Agrees listing (action item) (other item)) :
    tree.Agrees listing (items.mapM action) (items.mapM other) := by
  induction items with
  | nil => exact .pure []
  | cons item rest ih =>
      rw [List.forall_mem_cons] at haction
      rw [List.mapM_cons, List.mapM_cons]
      exact haction.1.bind fun value _ =>
        (ih haction.2).bind fun values _ => .pure (value :: values)

end Agreement

/-! ## Loading -/

theorem names?_eq_some_iff {names : List FileName} : tree.names? directory = some names ↔
    ∃ place, tree.locate directory = .ok place ∧ tree.node? place = some .directory ∧
      tree.allows .list place = true ∧ names = tree.childNames place := by
  unfold names?
  cases hplace : tree.locate directory with
  | error fault => simp
  | ok place =>
      constructor
      · intro hnames
        dsimp only at hnames
        split at hnames
        next hopen =>
          simp only [Bool.and_eq_true, beq_iff_eq] at hopen
          exact ⟨place, rfl, hopen.1, hopen.2, (Option.some.inj hnames).symm⟩
        next => cases hnames
      · rintro ⟨other, hother, hdirectory, hlist, rfl⟩
        cases hother
        simp [hdirectory, hlist]

theorem isSome_names?_iff : (tree.names? directory).isSome = true ↔
    ∃ place, tree.locate directory = .ok place ∧ tree.node? place = some .directory ∧
      tree.allows .list place = true := by
  constructor
  · intro hnames
    obtain ⟨names, hnames⟩ := Option.isSome_iff_exists.mp hnames
    obtain ⟨place, hplace, hdirectory, hlist, -⟩ := names?_eq_some_iff.mp hnames
    exact ⟨place, hplace, hdirectory, hlist⟩
  · rintro ⟨place, hplace, hdirectory, hlist⟩
    rw [names?_eq_some_iff.mpr ⟨place, hplace, hdirectory, hlist, rfl⟩]
    rfl

/-- A path leads to no directory, to one that cannot be listed, or to one that can. -/
theorem directory_cases (tree : FileTree) (directory : String) :
    tree.isDirectory directory = false ∨
      (tree.isDirectory directory = true ∧ tree.names? directory = none) ∨
        ∃ place, tree.locate directory = .ok place ∧ tree.node? place = some .directory ∧
          tree.allows .list place = true := by
  cases hdirectory : tree.isDirectory directory with
  | false => exact .inl rfl
  | true =>
      cases hnames : tree.names? directory with
      | none => exact .inr (.inl ⟨rfl, rfl⟩)
      | some names => exact .inr (.inr (isSome_names?_iff.mp (by rw [hnames]; rfl)))

/-- A name among those that a directory lists. -/
theorem mem_texts : name ∈ ((tree.childNames place).map (·.bytes)).filterMap Text.ofUtf8? ↔
    ∃ inner ∈ tree.childNames place, Text.ofUtf8? inner.bytes = some name := by
  simp only [List.mem_filterMap, List.mem_map, exists_exists_and_eq_and]

theorem run_isWanted {inner : FileName} (hinner : inner ∈ tree.childNames place)
    (hname : Text.ofUtf8? inner.bytes = some name) (wanted : List String) :
    (isWanted (m := StateM FileTree) directory wanted name).run tree =
      ((isWanted (m := ReaderM Listing) directory wanted name).run (tree.listing directory place),
        tree) := by
  have hrun := @Listing.run_isWanted (tree.listing directory place) name wanted
  rw [path_listing] at hrun
  have hfile : ((tree.listing directory place).entryAt? (join directory name)).any (·.isFile) =
      tree.isFile (join directory name) := by
    rw [entryAt?_listing hinner hname]
    rfl
  rw [hrun, hfile]
  change (if ((tree.isFile (join directory name) &&
      extension? name = some documentExtension) : Bool) = true then
    (pure (wanted.isEmpty || wanted.contains name) : StateM FileTree Bool)
      else pure false).run tree = _
  split
  next hwanted =>
    rw [hwanted]
    rfl
  next hother =>
    rw [Bool.not_eq_true] at hother
    rw [hother]
    rfl

theorem agrees_loadDocument {inner : FileName} (hinner : inner ∈ tree.childNames place)
    (hname : Text.ofUtf8? inner.bytes = some name) :
    tree.Agrees (tree.listing directory place) (loadDocument directory name)
      (loadDocument directory name) := by
  refine Agrees.bind (Agrees.ask ?_) ?_
  · change (tree.read? (join directory name), tree) =
      (((tree.listing directory place).entryAt? (join directory name)).bind (·.bytes?), tree)
    rw [entryAt?_listing hinner hname]
    rfl
  · intro held _
    split
    · rfl
    · rfl

/-- A directory that can be listed is loaded like the list of its entries. -/
theorem agrees_loadDirectory (hplace : tree.locate directory = .ok place)
    (hdirectory : tree.node? place = some .directory) (hlist : tree.allows .list place = true)
    (files : List String) :
    tree.Agrees (tree.listing directory place) (loadDirectory directory files)
      (loadDirectory directory files) := by
  refine Agrees.bind (Agrees.ask ?_) ?_
  · change (tree.isDirectory directory, tree) = (directory == directory, tree)
    rw [isDirectory_iff.mpr ⟨place, hplace, hdirectory⟩, beq_self_eq_true]
  intro isDirectory hanswer
  obtain rfl : true = isDirectory := by
    rw [← Except.ok.inj hanswer]
    exact (beq_self_eq_true directory).symm
  dsimp only
  rw [if_neg (by simp), if_neg (by simp)]
  have hnames : tree.names? directory = some (tree.childNames place) :=
    names?_eq_some_iff.mpr ⟨place, hplace, hdirectory, hlist, rfl⟩
  have hlisted : (tree.listing directory place).entries.map (·.name) =
      (tree.childNames place).map (·.bytes) := by
    rw [listing, List.map_map]
    exact List.map_congr_left fun inner _ => name_entry directory inner
  refine Agrees.bind (Agrees.ask ?_) ?_
  · change ((tree.names? directory).map (·.map (·.bytes)), tree) =
      (if directory = directory then
        some ((tree.listing directory place).entries.map (·.name)) else none, tree)
    rw [hnames, if_pos rfl, hlisted]
    rfl
  intro listed hanswer
  obtain rfl : some ((tree.childNames place).map (·.bytes)) = listed := by
    rw [← Except.ok.inj hanswer, ← hlisted]
    exact (if_pos rfl).symm
  dsimp only
  refine Agrees.bind (Agrees.filterM ?_) ?_
  · intro name hname
    obtain ⟨inner, hinner, htext⟩ := mem_texts.mp hname
    exact run_isWanted hinner htext _
  intro found hfound
  split
  · exact .throw _
  · split
    · exact .throw _
    · refine Agrees.bind (Agrees.mapM ?_) fun documents _ => .pure _
      intro name hname
      rw [Listing.answer_filterM, Except.ok.injEq] at hfound
      rw [← hfound, List.mem_filter] at hname
      obtain ⟨inner, hinner, htext⟩ := mem_texts.mp hname.1
      exact agrees_loadDocument hinner htext

theorem perform_loadDirectory_of_not_isDirectory
    (hdirectory : tree.isDirectory directory = false) :
    tree.perform (loadDirectory directory files) =
      (.error (.directoryNotFound directory), tree) := by
  rw [loadDirectory, perform_bind, perform_isDirectory]
  dsimp only
  rw [hdirectory, if_pos (by rfl)]
  rfl

theorem perform_loadDirectory_of_names?_eq_none (hdirectory : tree.isDirectory directory = true)
    (hnames : tree.names? directory = none) :
    tree.perform (loadDirectory directory files) = (.error (.unreadable directory), tree) := by
  rw [loadDirectory, perform_bind, perform_isDirectory]
  dsimp only
  rw [hdirectory, if_neg (by simp), perform_bind, perform_names?, hnames]
  rfl

/-- A directory is loaded from the list of its entries, if it can be listed. -/
theorem load_eq_listing (hplace : tree.locate directory = .ok place)
    (hdirectory : tree.node? place = some .directory) (hlist : tree.allows .list place = true) :
    tree.load directory files = (tree.listing directory place).load files :=
  congrArg Prod.fst (agrees_loadDirectory hplace hdirectory hlist files)

/-- Loading leaves a tree as it is. -/
theorem perform_loadDirectory (tree : FileTree) (directory : String) (files : List String) :
    tree.perform (loadDirectory directory files) = (tree.load directory files, tree) := by
  suffices hleft : (tree.perform (loadDirectory directory files)).2 = tree by
    rw [load, ← Prod.eta (tree.perform _), hleft]
  rcases tree.directory_cases directory with
    hdirectory | ⟨hdirectory, hnames⟩ | ⟨place, hplace, hdirectory, hlist⟩
  · rw [perform_loadDirectory_of_not_isDirectory hdirectory]
  · rw [perform_loadDirectory_of_names?_eq_none hdirectory hnames]
  · rw [agrees_loadDirectory hplace hdirectory hlist]

theorem exists_listing_of_load {documents : List Document}
    (hload : tree.load directory files = .ok documents) :
    ∃ place, tree.locate directory = .ok place ∧ tree.node? place = some .directory ∧
      tree.allows .list place = true ∧
        (tree.listing directory place).load files = .ok documents := by
  rcases tree.directory_cases directory with
    hdirectory | ⟨hdirectory, hnames⟩ | ⟨place, hplace, hdirectory, hlist⟩
  · rw [load, perform_loadDirectory_of_not_isDirectory hdirectory] at hload
    cases hload
  · rw [load, perform_loadDirectory_of_names?_eq_none hdirectory hnames] at hload
    cases hload
  · exact ⟨place, hplace, hdirectory, hlist, load_eq_listing hplace hdirectory hlist ▸ hload⟩

/-! ## Files that are loaded -/

/-- A file of a directory that a list of names asks for. -/
structure IsLoaded (tree : FileTree) (directory : String) (files : List String) (name : String) :
    Prop where
  isEntry : (FileName.of? name).isSome = true
  isFile : tree.isFile (join directory name) = true
  extension : extension? name = some documentExtension
  wanted : files = [] ∨ name ∈ files.map documentFile

instance : Decidable (tree.IsLoaded directory files name) :=
  decidable_of_iff ((FileName.of? name).isSome = true ∧ tree.isFile (join directory name) = true ∧
      extension? name = some documentExtension ∧ (files = [] ∨ name ∈ files.map documentFile))
    ⟨fun ⟨hentry, hfile, hextension, hwanted⟩ => ⟨hentry, hfile, hextension, hwanted⟩,
      fun ⟨hentry, hfile, hextension, hwanted⟩ => ⟨hentry, hfile, hextension, hwanted⟩⟩

/-- The document in a file of a directory. -/
def document (tree : FileTree) (directory name : String) : Except SchemaError Document :=
  match (tree.read? (join directory name)).bind Text.ofUtf8? with
  | some text => Document.ofText (stem name) text
  | none => .error (.unreadable (join directory name))

theorem IsLoaded.isPlain (hloaded : tree.IsLoaded directory files name) : IsPlain name := by
  obtain ⟨inner, hinner⟩ := Option.isSome_iff_exists.mp hloaded.isEntry
  exact FileName.isPlain_of_of? hinner

theorem isFile_iff {path : String} : tree.isFile path = true ↔
    ∃ place bytes, tree.locate path = .ok place ∧ tree.node? place = some (.file bytes) := by
  unfold isFile find?
  cases tree.locate path with
  | error fault => simp
  | ok place =>
      cases hnode : tree.node? place with
      | none => simp [hnode]
      | some node => cases node <;> simp [hnode, FileNode.isFile]

theorem holds_entry_iff {inner : FileName} {document : Document}
    (htext : Text.ofUtf8? inner.bytes = some name) :
    (tree.entry directory inner).Holds name document ↔
      tree.document directory name = .ok document := by
  rw [Entry.Holds, entry, htext, FileTree.document]
  dsimp only
  cases tree.read? (join directory name) with
  | none => simp
  | some bytes => cases htext : Text.ofUtf8? bytes <;> simp [htext]

section Located

variable (hplace : tree.locate directory = .ok place)

include hplace

theorem directory_ne_empty : directory ≠ "" := by
  rintro rfl
  cases hplace

/-- A name is that of a file in a directory exactly if there is a file below the directory. -/
theorem isFile_join_iff (hdirectory : tree.node? place = some .directory) {inner : FileName}
    (hinner : FileName.of? name = some inner) :
    tree.isFile (join directory name) = true ↔ isPath (join directory name) = true ∧
      tree.allows .enter place = true ∧
        ∃ bytes, tree.node? (place ++ [inner]) = some (.file bytes) := by
  rw [isFile_iff]
  simp only [locate_join_eq_ok_iff (directory_ne_empty hplace) (FileName.isPlain_of_of? hinner),
    hplace, hinner, Except.ok.injEq, Option.some.injEq]
  constructor
  · rintro ⟨_, bytes, ⟨hpath, _, rfl, -, henter, _, rfl, rfl⟩, hbytes⟩
    exact ⟨hpath, henter, bytes, hbytes⟩
  · rintro ⟨hpath, henter, bytes, hbytes⟩
    exact ⟨_, bytes, ⟨hpath, place, rfl, hdirectory, henter, inner, rfl, rfl⟩, hbytes⟩

variable (hdirectory : tree.node? place = some .directory)

include hdirectory

theorem exists_file_of_isLoaded (hloaded : tree.IsLoaded directory files name) :
    ∃ inner, FileName.of? name = some inner ∧ isPath (join directory name) = true ∧
      tree.allows .enter place = true ∧
        ∃ bytes, tree.node? (place ++ [inner]) = some (.file bytes) := by
  obtain ⟨inner, hinner⟩ := Option.isSome_iff_exists.mp hloaded.isEntry
  exact ⟨inner, hinner, (isFile_join_iff hplace hdirectory hinner).mp hloaded.isFile⟩

theorem exists_entry_of_isLoaded (hloaded : tree.IsLoaded directory files name) :
    ∃ inner ∈ tree.childNames place, Text.ofUtf8? inner.bytes = some name ∧
      tree.entry directory inner ∈ (tree.listing directory place).entries ∧
      (tree.entry directory inner).IsWanted files name := by
  obtain ⟨inner, hinner, -, -, bytes, hbytes⟩ :=
    exists_file_of_isLoaded hplace hdirectory hloaded
  have hmem : inner ∈ tree.childNames place := mem_childNames.mpr (by simp [hbytes])
  have htext := FileName.of?_eq_some_iff_ofUtf8?.mp hinner
  refine ⟨inner, hmem, htext, List.mem_map_of_mem hmem, ?_, ?_, hloaded.extension, ?_⟩
  · rw [entry, htext]
    exact hloaded.isFile
  · rw [name_entry, htext]
  · rw [← mem_documentFiles_iff hloaded.extension]
    exact hloaded.wanted

omit hplace hdirectory in
theorem isLoaded_of_isWanted {entry : Entry}
    (hentry : entry ∈ (tree.listing directory place).entries)
    (hwanted : entry.IsWanted files name) : tree.IsLoaded directory files name := by
  obtain ⟨inner, -, rfl⟩ := List.mem_map.mp hentry
  have htext := hwanted.name_eq
  have hfile := hwanted.isFile
  rw [name_entry] at htext
  rw [FileTree.entry, htext] at hfile
  refine ⟨?_, hfile, hwanted.extension, ?_⟩
  · rw [FileName.of?_eq_some_iff_ofUtf8?.mpr htext]
    rfl
  · rw [mem_documentFiles_iff hwanted.extension]
    exact hwanted.wanted

theorem exists_isWanted_iff :
    (∃ entry ∈ (tree.listing directory place).entries, entry.IsWanted files name) ↔
      tree.IsLoaded directory files name := by
  constructor
  · rintro ⟨entry, hentry, hwanted⟩
    exact isLoaded_of_isWanted hentry hwanted
  · intro hloaded
    obtain ⟨inner, -, -, hentry, hwanted⟩ := exists_entry_of_isLoaded hplace hdirectory hloaded
    exact ⟨_, hentry, hwanted⟩

theorem reads_iff {document : Document} :
    (tree.listing directory place).Reads files name document ↔
      tree.IsLoaded directory files name ∧ tree.document directory name = .ok document := by
  constructor
  · rintro ⟨entry, hentry, hwanted, hholds⟩
    obtain ⟨inner, -, rfl⟩ := List.mem_map.mp hentry
    have htext := hwanted.name_eq
    rw [name_entry] at htext
    exact ⟨isLoaded_of_isWanted hentry hwanted, (holds_entry_iff htext).mp hholds⟩
  · rintro ⟨hloaded, hdocument⟩
    obtain ⟨inner, -, htext, hentry, hwanted⟩ :=
      exists_entry_of_isLoaded hplace hdirectory hloaded
    exact ⟨_, hentry, hwanted, (holds_entry_iff htext).mpr hdocument⟩

end Located

/-- What a directory holds that can be loaded: the documents in the files that are asked for, in
ascending order, with no name missing that is asked for. -/
structure Loads (tree : FileTree) (directory : String) (files : List String)
    (documents : List Document) : Prop where
  ne_nil : documents ≠ []
  ascending : documents.Pairwise (·.space < ·.space)
  one_each : ∃ found : List String, found.Nodup ∧
    (∀ name, name ∈ found ↔ tree.IsLoaded directory files name) ∧
    List.Forall₂ (fun name document => tree.document directory name = .ok document) found documents
  present : ∀ given ∈ files, tree.IsLoaded directory files (documentFile given)

theorem loads_listing_iff {documents : List Document} (hplace : tree.locate directory = .ok place)
    (hdirectory : tree.node? place = some .directory) :
    (tree.listing directory place).Loads files documents ↔
      tree.Loads directory files documents := by
  have hwanted (name : String) : (∃ entry ∈ (tree.listing directory place).entries,
      entry.IsWanted files name) ↔ tree.IsLoaded directory files name :=
    exists_isWanted_iff hplace hdirectory
  constructor
  · rintro ⟨hne, hascending, ⟨found, hnodup, hfound, hreads⟩, hpresent⟩
    simp only [hwanted] at hfound hpresent
    exact ⟨hne, hascending, ⟨found, hnodup, hfound, hreads.imp fun _ _ hread =>
      ((reads_iff hplace hdirectory).mp hread).2⟩, hpresent⟩
  · rintro ⟨hne, hascending, ⟨found, hnodup, hfound, hdocuments⟩, hpresent⟩
    refine ⟨hne, hascending, ⟨found, hnodup, ?_, ?_⟩, ?_⟩
    · simpa only [hwanted] using hfound
    · refine (Outcome.forall₂_mem hdocuments).imp ?_
      rintro name document ⟨hname, -, hdocument⟩
      exact (reads_iff hplace hdirectory).mpr ⟨(hfound name).mp hname, hdocument⟩
    · simpa only [hwanted] using hpresent

/-- A directory is loaded if it can be listed and all that is asked for is there and can be read. -/
theorem load_eq_ok_iff {documents : List Document} :
    tree.load directory files = .ok documents ↔
      (tree.names? directory).isSome = true ∧ tree.Loads directory files documents := by
  constructor
  · intro hload
    obtain ⟨place, hplace, hdirectory, hlist, hlisting⟩ := exists_listing_of_load hload
    rw [Listing.load_eq_ok_iff_loads, loads_listing_iff hplace hdirectory] at hlisting
    exact ⟨isSome_names?_iff.mpr ⟨place, hplace, hdirectory, hlist⟩, hlisting⟩
  · rintro ⟨hnames, hloads⟩
    obtain ⟨place, hplace, hdirectory, hlist⟩ := isSome_names?_iff.mp hnames
    rw [load_eq_listing hplace hdirectory hlist, Listing.load_eq_ok_iff_loads,
      loads_listing_iff hplace hdirectory]
    exact hloads

theorem space_of_document {document : Document}
    (hdocument : tree.document directory name = .ok document) : document.space = stem name := by
  unfold FileTree.document Document.ofText at hdocument
  split at hdocument
  · split at hdocument
    · cases hdocument
      rfl
    · cases hdocument
  · cases hdocument

theorem Loads.exists_name {documents : List Document}
    (hloads : tree.Loads directory files documents) {document : Document}
    (hdocument : document ∈ documents) :
    ∃ name, tree.IsLoaded directory files name ∧ document.space = stem name := by
  obtain ⟨found, -, hfound, hdocuments⟩ := hloads.one_each
  obtain ⟨name, hname, hread⟩ := Outcome.exists_mem_of_forall₂ hdocuments.flip hdocument
  exact ⟨name, (hfound name).mp hname, space_of_document hread⟩

/-! ## Failures -/

/-- Why a directory is not loaded. -/
inductive CannotLoad (tree : FileTree) (directory : String) (files : List String) :
    SchemaError → Prop where
  | absent : tree.isDirectory directory = false →
      tree.CannotLoad directory files (.directoryNotFound directory)
  | unlisted : tree.isDirectory directory = true → tree.names? directory = none →
      tree.CannotLoad directory files (.unreadable directory)
  | missing (given : String) : given ∈ files →
      ¬ tree.IsLoaded directory files (documentFile given) →
        tree.CannotLoad directory files (.fileNotFound (documentFile given))
  | empty : (∀ name, ¬ tree.IsLoaded directory files name) →
      tree.CannotLoad directory files (.noDocuments directory)
  | document (name : String) (error : SchemaError) : tree.IsLoaded directory files name →
      tree.document directory name = .error error → tree.CannotLoad directory files error

theorem perform_loadDocument :
    tree.perform (loadDocument directory name) = (tree.document directory name, tree) := by
  rw [loadDocument, perform_bind, perform_read?]
  dsimp only
  unfold FileTree.document
  cases (tree.read? (join directory name)).bind Text.ofUtf8? <;> rfl

/-- A directory fails to be loaded for one of these reasons only. -/
theorem cannotLoad_of_load {error : SchemaError}
    (hload : tree.load directory files = .error error) :
    tree.CannotLoad directory files error := by
  rcases tree.directory_cases directory with
    habsent | ⟨hdirectory, hnames⟩ | ⟨place, hplace, hdirectory, hlist⟩
  · rw [load, perform_loadDirectory_of_not_isDirectory habsent] at hload
    cases hload
    exact .absent habsent
  · rw [load, perform_loadDirectory_of_names?_eq_none hdirectory hnames] at hload
    cases hload
    exact .unlisted hdirectory hnames
  have hmem (name : String) : name ∈ (tree.listing directory place).found files ↔
      tree.IsLoaded directory files name := by
    rw [Listing.mem_found, exists_isWanted_iff hplace hdirectory]
  rw [load_eq_listing hplace hdirectory hlist, Listing.load_eq] at hload
  split at hload
  next missing hmissing =>
    have hasked := List.mem_of_find?_eq_some hmissing
    have habsent := List.find?_some hmissing
    rw [mem_sortedNames, List.mem_map] at hasked
    obtain ⟨given, hgiven, rfl⟩ := hasked
    cases hload
    refine .missing given hgiven ?_
    rw [← hmem]
    simpa using habsent
  next =>
    split at hload
    next hempty =>
      cases hload
      rw [List.isEmpty_iff] at hempty
      refine .empty fun name hname => ?_
      rw [← hmem, hempty] at hname
      cases hname
    next =>
      obtain ⟨name, hname, hdocument⟩ :=
        Outcome.exists_of_mapM_eq_error (Outcome.map_eq_error hload)
      rw [hmem] at hname
      obtain ⟨inner, hinner, htext, -⟩ := exists_entry_of_isLoaded hplace hdirectory hname
      refine .document name error hname ?_
      have hagrees : tree.Agrees (tree.listing directory place) (loadDocument directory name)
          (loadDocument directory name) := agrees_loadDocument hinner htext
      rw [Agrees, perform_loadDocument] at hagrees
      rw [(Prod.mk.inj hagrees).1]
      exact hdocument

/-- Whichever of these reasons there is, a directory is not loaded. -/
theorem exists_error_of_cannotLoad {fault : SchemaError}
    (hfault : tree.CannotLoad directory files fault) :
    ∃ error, tree.load directory files = .error error := by
  cases hload : tree.load directory files with
  | error error => exact ⟨error, rfl⟩
  | ok documents =>
      exfalso
      obtain ⟨hnames, hloads⟩ := load_eq_ok_iff.mp hload
      obtain ⟨found, -, hfound, hdocuments⟩ := hloads.one_each
      cases hfault with
      | absent habsent =>
          obtain ⟨place, hplace, hdirectory, -⟩ := isSome_names?_iff.mp hnames
          rw [isDirectory_iff.mpr ⟨place, hplace, hdirectory⟩] at habsent
          cases habsent
      | unlisted _ hnone =>
          rw [hnone] at hnames
          cases hnames
      | missing given hgiven hmissing => exact hmissing (hloads.present given hgiven)
      | empty hempty =>
          obtain ⟨document, hdocument⟩ := List.exists_mem_of_ne_nil _ hloads.ne_nil
          obtain ⟨name, hname, -⟩ := hloads.exists_name hdocument
          exact hempty name hname
      | document name _ hname herror =>
          obtain ⟨document, -, hdocument⟩ :=
            Outcome.exists_mem_of_forall₂ hdocuments ((hfound name).mpr hname)
          rw [hdocument] at herror
          cases herror

end FileTree
end WireSchema
