import WireSchema.Proofs.Faults
import WireSchema.Proofs.FileNames
import WireSchema.Proofs.Members
import WireSchema.Proofs.Scalars

/-!
# Loading a directory

A directory lists its entries in an order of its own, which says nothing about the documents: they
are loaded from each regular file that is asked for, one of each, and come in ascending order of
their namespaces.  A name that is asked for and missing, and a file that cannot be read, fail the
directory as a whole.
-/

namespace WireSchema
namespace Files

/-- What a directory holds under a name.  A name is bytes, and an entry may be no regular file. -/
structure Entry where
  name : List UInt8
  isFile : Bool
  bytes? : Option (List UInt8)
  deriving DecidableEq, Repr

/-- A directory, with its entries in the order in which it lists them. -/
structure Listing where
  path : String
  entries : List Entry
  distinct : (entries.map (·.name)).Nodup
  plain : ∀ entry ∈ entries, ∀ name, Text.ofUtf8? entry.name = some name → IsPlain name

namespace Entry

/-- A regular file with the extension of documents that a list asks for, by its name or by its name
without the extension.  An empty list asks for all of them. -/
structure IsWanted (entry : Entry) (files : List String) (name : String) : Prop where
  isFile : entry.isFile = true
  name_eq : Text.ofUtf8? entry.name = some name
  extension : extension? name = some documentExtension
  wanted : files = [] ∨ name ∈ files ∨
    ∃ given ∈ files, extension? given ≠ some documentExtension ∧
      name = given ++ "." ++ documentExtension

instance (entry : Entry) (files : List String) (name : String) :
    Decidable (entry.IsWanted files name) :=
  decidable_of_iff (entry.isFile = true ∧ Text.ofUtf8? entry.name = some name ∧
      extension? name = some documentExtension ∧ (files = [] ∨ name ∈ files ∨
        ∃ given ∈ files, extension? given ≠ some documentExtension ∧
          name = given ++ "." ++ documentExtension))
    ⟨fun ⟨hfile, hname, hextension, hwanted⟩ => ⟨hfile, hname, hextension, hwanted⟩,
      fun ⟨hfile, hname, hextension, hwanted⟩ => ⟨hfile, hname, hextension, hwanted⟩⟩

def Holds (entry : Entry) (name : String) (document : Document) : Prop :=
  ∃ bytes text, entry.bytes? = some bytes ∧ Text.ofUtf8? bytes = some text ∧
    Document.ofText (stem name) text = .ok document

theorem Holds.space_eq {entry : Entry} {name : String} {document : Document}
    (hholds : entry.Holds name document) : document.space = stem name := by
  rcases hholds with ⟨bytes, text, -, -, hdocument⟩
  unfold Document.ofText at hdocument
  split at hdocument
  · cases hdocument
    rfl
  · cases hdocument

end Entry

namespace Listing

/-- The entry that a path leads to. -/
def entryAt? (listing : Listing) (path : String) : Option Entry :=
  listing.entries.find? fun entry =>
    (Text.ofUtf8? entry.name).any fun name => join listing.path name == path

instance : FileAccess (ReaderM Listing) where
  isDirectory path := do return path == (← read).path
  isFile path := do return ((← read).entryAt? path).any (·.isFile)
  names? path := do
    let listing ← read
    return if path = listing.path then some (listing.entries.map (·.name)) else none
  read? path := do return ((← read).entryAt? path).bind (·.bytes?)
  makeDirectories _ := return false
  write _ _ := return false

/-- What comes of an action on a directory. -/
def answer {ε α : Type} (listing : Listing) (action : ExceptT ε (ReaderM Listing) α) :
    Except ε α :=
  action.run.run listing

def load (listing : Listing) (files : List String) : Except SchemaError (List Document) :=
  listing.answer (loadDirectory listing.path files)

/-- Documents in ascending order of their namespaces. -/
def sortedBySpace (documents : List Document) : List Document :=
  documents.mergeSort fun a b => !decide (b.space < a.space)

/-- A file that is asked for, and the document in it. -/
def Reads (listing : Listing) (files : List String) (name : String) (document : Document) : Prop :=
  ∃ entry ∈ listing.entries, entry.IsWanted files name ∧ entry.Holds name document

/-- The documents of a directory that a list of names asks for: one of each file that is asked
for, in ascending order, and none of the names missing. -/
structure Loads (listing : Listing) (files : List String) (documents : List Document) : Prop where
  ne_nil : documents ≠ []
  ascending : documents.Pairwise (·.space < ·.space)
  one_each : ∃ found : List String, found.Nodup ∧
    (∀ name, name ∈ found ↔ ∃ entry ∈ listing.entries, entry.IsWanted files name) ∧
    List.Forall₂ (listing.Reads files) found documents
  present : ∀ given ∈ files, ∃ entry ∈ listing.entries, entry.IsWanted files (documentFile given)

/-! ## Actions on a directory -/

section Answers

variable {ε α β : Type} (listing : Listing)

theorem answer_bind (action : ExceptT ε (ReaderM Listing) α)
    (next : α → ExceptT ε (ReaderM Listing) β) :
    listing.answer (action >>= next) =
      (listing.answer action >>= fun value => listing.answer (next value)) := by
  change (match action.run.run listing with
    | .ok value => (next value).run
    | .error fault => pure (.error fault) : ReaderM Listing (Except ε β)).run listing = _
  unfold answer
  cases action.run.run listing <;> rfl

variable {listing} in
theorem answer_bind_of_ok {action : ExceptT ε (ReaderM Listing) α}
    {next : α → ExceptT ε (ReaderM Listing) β} {value : α}
    (haction : listing.answer action = .ok value) :
    listing.answer (action >>= next) = listing.answer (next value) := by
  rw [answer_bind, haction]
  rfl

theorem answer_liftM (action : ReaderM Listing α) :
    listing.answer (ε := ε) (liftM action) = .ok (action.run listing) := rfl

theorem answer_filterAuxM (keep : α → ReaderM Listing Bool) (items kept : List α) :
    listing.answer (ε := ε) (List.filterAuxM (fun item => liftM (keep item)) items kept) =
      .ok ((items.filter fun item => (keep item).run listing).reverse ++ kept) := by
  induction items generalizing kept with
  | nil => rfl
  | cons item rest ih =>
      rw [List.filterAuxM, answer_bind]
      change listing.answer (List.filterAuxM _ rest
        (cond ((keep item).run listing) (item :: kept) kept)) = _
      rw [ih]
      cases hkeep : (keep item).run listing <;> simp [hkeep]

theorem answer_filterM (keep : α → ReaderM Listing Bool) (items : List α) :
    listing.answer (ε := ε) (items.filterM fun item => liftM (keep item)) =
      .ok (items.filter fun item => (keep item).run listing) := by
  rw [List.filterM, answer_bind, answer_filterAuxM]
  change Except.ok (_ ++ []).reverse = _
  rw [List.append_nil, List.reverse_reverse]

theorem answer_mapM (action : α → ExceptT ε (ReaderM Listing) β) (items : List α) :
    listing.answer (items.mapM action) = items.mapM fun item => listing.answer (action item) := by
  induction items with
  | nil => rfl
  | cons item rest ih =>
      rw [List.mapM_cons, List.mapM_cons, answer_bind]
      simp only [answer_bind, ih]
      rfl

end Answers

/-! ## What a directory answers -/

variable {listing : Listing} {files : List String} {name : String}

theorem entryAt?_of_mem {entry : Entry} (hentry : entry ∈ listing.entries)
    (hname : Text.ofUtf8? entry.name = some name) :
    listing.entryAt? (join listing.path name) = some entry := by
  cases hfound : listing.entryAt? (join listing.path name) with
  | none =>
      have hnone := List.find?_eq_none.mp hfound entry hentry
      simp [hname] at hnone
  | some other =>
      have hother := List.mem_of_find?_eq_some hfound
      have hsame := List.find?_some hfound
      rw [Option.any_eq_true] at hsame
      rcases hsame with ⟨name', hname', hjoin⟩
      have hnames : name' = name := join_inj (by simpa using hjoin)
      rw [hnames] at hname'
      rw [Option.some_inj]
      apply List.inj_on_of_nodup_map listing.distinct hother hentry
      rw [← Text.utf8_of_ofUtf8? hname', Text.utf8_of_ofUtf8? hname]

/-- The files that are asked for, as the directory lists them. -/
def found (listing : Listing) (files : List String) : List String :=
  ((listing.entries.map (·.name)).filterMap Text.ofUtf8?).filter fun name =>
    (isWanted (m := ReaderM Listing) listing.path (sortedNames (files.map documentFile)) name).run
      listing

/-- The document in a file. -/
def document (listing : Listing) (name : String) : Except SchemaError Document :=
  listing.answer (loadDocument listing.path name)

theorem run_isWanted (wanted : List String) :
    (isWanted (m := ReaderM Listing) listing.path wanted name).run listing =
      (((listing.entryAt? (join listing.path name)).any (·.isFile) &&
        extension? name = some documentExtension) && (wanted.isEmpty || wanted.contains name)) := by
  change (if (((listing.entryAt? (join listing.path name)).any (·.isFile) &&
      extension? name = some documentExtension) : Bool) = true
    then (pure (wanted.isEmpty || wanted.contains name) : ReaderM Listing Bool)
    else pure false).run listing = _
  split
  next hfile =>
    rw [hfile]
    rfl
  next hother =>
    rw [Bool.not_eq_true] at hother
    rw [hother]
    rfl

theorem load_eq : listing.load files =
    match (sortedNames (files.map documentFile)).find? fun name =>
        !(listing.found files).contains name with
    | some name => .error (.fileNotFound name)
    | none =>
      if (listing.found files).isEmpty then .error (.noDocuments listing.path)
      else
        ((listing.found files).mapM listing.document).map sortedBySpace := by
  have hdirectory : listing.answer (ε := SchemaError)
      (liftM (FileAccess.isDirectory (m := ReaderM Listing) listing.path)) = .ok true := by
    rw [answer_liftM]
    exact congrArg Except.ok (beq_self_eq_true listing.path)
  have hnames : listing.answer (ε := SchemaError)
      (liftM (FileAccess.names? (m := ReaderM Listing) listing.path)) =
        .ok (some (listing.entries.map (·.name))) := by
    rw [answer_liftM]
    exact congrArg Except.ok (if_pos rfl)
  rw [load, loadDirectory, answer_bind_of_ok hdirectory]
  dsimp only
  rw [if_neg (by simp), answer_bind_of_ok hnames]
  dsimp only
  rw [answer_bind_of_ok (answer_filterM ..)]
  change listing.answer (match (sortedNames (files.map documentFile)).find? fun name =>
    !(listing.found files).contains name with | some name => _ | none => _) = _
  split
  · rfl
  · change listing.answer (if (listing.found files).isEmpty then _ else _) = _
    split
    · rfl
    · rw [answer_bind, answer_mapM]
      change (listing.found files).mapM listing.document >>= _ = _
      cases (listing.found files).mapM listing.document <;> rfl

theorem mem_found : name ∈ listing.found files ↔
    ∃ entry ∈ listing.entries, entry.IsWanted files name := by
  have hwanted : (sortedNames (files.map documentFile)).isEmpty = files.isEmpty := by
    rw [Bool.eq_iff_iff, List.isEmpty_iff, List.isEmpty_iff, List.eq_nil_iff_forall_not_mem]
    simp only [mem_sortedNames]
    rw [← List.eq_nil_iff_forall_not_mem, List.map_eq_nil_iff]
  rw [found, List.mem_filter, List.mem_filterMap, run_isWanted, hwanted]
  constructor
  · rintro ⟨⟨bytes, hbytes, hname⟩, hkeep⟩
    rcases List.mem_map.mp hbytes with ⟨entry, hentry, rfl⟩
    rw [entryAt?_of_mem hentry hname] at hkeep
    simp only [Option.any_some, Bool.and_eq_true, decide_eq_true_eq, Bool.or_eq_true,
      List.isEmpty_iff, List.contains_iff_mem, mem_sortedNames] at hkeep
    rcases hkeep with ⟨⟨hfile, hextension⟩, hasked⟩
    rw [mem_documentFiles_iff hextension] at hasked
    exact ⟨entry, hentry, hfile, hname, hextension, hasked⟩
  · rintro ⟨entry, hentry, hwanted⟩
    refine ⟨⟨entry.name, List.mem_map.mpr ⟨entry, hentry, rfl⟩, hwanted.name_eq⟩, ?_⟩
    rw [entryAt?_of_mem hentry hwanted.name_eq]
    simp only [Option.any_some, Bool.and_eq_true, decide_eq_true_eq, Bool.or_eq_true,
      List.isEmpty_iff, List.contains_iff_mem, mem_sortedNames]
    rw [mem_documentFiles_iff hwanted.extension]
    exact ⟨⟨hwanted.isFile, hwanted.extension⟩, hwanted.wanted⟩

theorem nodup_found : (listing.found files).Nodup := by
  apply List.Nodup.filter
  refine listing.distinct.filterMap ?_
  intro bytes other name hname hother
  rw [← Text.utf8_of_ofUtf8? hname, Text.utf8_of_ofUtf8? hother]

theorem document_eq_ok_iff {entry : Entry} {document : Document} (hentry : entry ∈ listing.entries)
    (hname : Text.ofUtf8? entry.name = some name) :
    listing.document name = .ok document ↔ entry.Holds name document := by
  have hdocument : listing.document name =
      match entry.bytes?.bind Text.ofUtf8? with
      | some text => Document.ofText (stem name) text
      | none => .error (.unreadable (join listing.path name)) := by
    rw [Listing.document, loadDocument]
    rw [answer_bind, answer_liftM]
    change listing.answer (match ((listing.entryAt? (join listing.path name)).bind
      (·.bytes?)).bind Text.ofUtf8? with | some text => _ | none => _) = _
    rw [entryAt?_of_mem hentry hname, Option.bind_some]
    cases entry.bytes?.bind Text.ofUtf8? <;> rfl
  rw [hdocument]
  unfold Entry.Holds
  cases hbytes : entry.bytes? with
  | none => simp
  | some bytes =>
      cases htext : Text.ofUtf8? bytes with
      | none => simp [htext]
      | some text => simp [htext]

/-- A directory is loaded if all names are present, at least one is, and each file is read. -/
theorem load_eq_ok_iff {documents : List Document} :
    listing.load files = .ok documents ↔
      (∀ given ∈ files, documentFile given ∈ listing.found files) ∧ listing.found files ≠ [] ∧
        ∃ loaded, (listing.found files).mapM listing.document = .ok loaded ∧
          sortedBySpace loaded = documents := by
  rw [load_eq]
  split
  next missing hmissing =>
    have hasked := List.mem_of_find?_eq_some hmissing
    rw [mem_sortedNames, List.mem_map] at hasked
    rcases hasked with ⟨given, hgiven, rfl⟩
    have habsent := List.find?_some hmissing
    simp only [Bool.not_eq_true', List.contains_iff_mem, ← Bool.not_eq_true] at habsent
    constructor
    · intro hrun
      cases hrun
    · rintro ⟨hpresent, -⟩
      exact absurd (hpresent given hgiven) habsent
  next hnone =>
    have hpresent : ∀ given ∈ files, documentFile given ∈ listing.found files := by
      intro given hgiven
      have hfound := List.find?_eq_none.mp hnone (documentFile given)
        (mem_sortedNames.mpr (List.mem_map.mpr ⟨given, hgiven, rfl⟩))
      simpa using hfound
    split
    next hempty =>
      rw [List.isEmpty_iff] at hempty
      simp [hempty]
    next hfound =>
      rw [List.isEmpty_iff] at hfound
      constructor
      · intro hrun
        exact ⟨hpresent, hfound, Outcome.map_eq_ok hrun⟩
      · rintro ⟨-, -, loaded, hloaded, rfl⟩
        rw [hloaded]
        rfl

/-! ## Documents of a directory -/

variable {found : List String} {documents : List Document}

/-- Different files are of different namespaces. -/
theorem nodup_spaces (hnodup : found.Nodup)
    (hreads : List.Forall₂ (listing.Reads files) found documents) :
    (documents.map (·.space)).Nodup := by
  have hspaces : found.map stem = documents.map (·.space) := by
    apply Outcome.map_eq_of_forall₂ hreads
    rintro name document ⟨entry, -, -, hholds⟩
    exact hholds.space_eq.symm
  rw [← hspaces]
  apply hnodup.map_on
  intro name hname other hother hstem
  rcases Outcome.exists_mem_of_forall₂ hreads hname with ⟨-, -, entry, hentry, hwanted, -⟩
  rcases Outcome.exists_mem_of_forall₂ hreads hother with ⟨-, -, entry', hentry', hwanted', -⟩
  exact eq_of_stem (listing.plain entry hentry name hwanted.name_eq)
    (listing.plain entry' hentry' other hwanted'.name_eq) hwanted.extension hwanted'.extension hstem

theorem forall₂_reads_iff :
    List.Forall₂ (listing.Reads files) (listing.found files) documents ↔
      (listing.found files).mapM listing.document = .ok documents := by
  constructor
  · intro hreads
    apply Outcome.mapM_of_forall₂
    refine hreads.imp ?_
    rintro name document ⟨entry, hentry, hwanted, hholds⟩
    exact (document_eq_ok_iff hentry hwanted.name_eq).mpr hholds
  · intro hrun
    refine (Outcome.forall₂_mem (Outcome.forall₂_of_mapM hrun)).imp ?_
    rintro name document ⟨hname, -, hdocument⟩
    rcases mem_found.mp hname with ⟨entry, hentry, hwanted⟩
    exact ⟨entry, hentry, hwanted, (document_eq_ok_iff hentry hwanted.name_eq).mp hdocument⟩

theorem perm_sortedBySpace (documents : List Document) :
    (sortedBySpace documents).Perm documents :=
  documents.mergeSort_perm _

theorem pairwise_sortedBySpace (documents : List Document) :
    (sortedBySpace documents).Pairwise (·.space ≤ ·.space) :=
  pairwise_mergeSort_of_key (·.space) documents

/-- Documents of different namespaces have one ascending order. -/
theorem sortedBySpace_eq_of_perm {loaded : List Document} (hperm : loaded.Perm documents)
    (hascending : documents.Pairwise (·.space < ·.space))
    (hspaces : (documents.map (·.space)).Nodup) : sortedBySpace loaded = documents := by
  have hsorted := (perm_sortedBySpace loaded).trans hperm
  refine List.Perm.eq_of_pairwise ?_ (pairwise_sortedBySpace loaded)
    (hascending.imp fun hlt => String.not_lt.mp (String.lt_asymm hlt)) hsorted
  intro first second hfirst hsecond hle hge
  exact List.inj_on_of_nodup_map hspaces (hsorted.mem_iff.mp hfirst) hsecond
    (String.le_antisymm hle hge)

theorem load_eq_ok_iff_loads :
    listing.load files = .ok documents ↔ listing.Loads files documents := by
  rw [load_eq_ok_iff]
  constructor
  · rintro ⟨hpresent, hne, loaded, hloaded, rfl⟩
    have hcomp : Relation.Comp (List.Forall₂ (listing.Reads files)) List.Perm
        (listing.found files) (sortedBySpace loaded) :=
      ⟨loaded, forall₂_reads_iff.mpr hloaded, (perm_sortedBySpace loaded).symm⟩
    rw [List.forall₂_comp_perm_eq_perm_comp_forall₂] at hcomp
    rcases hcomp with ⟨found, hfound, hreads⟩
    have hnodup : found.Nodup := hfound.nodup_iff.mp nodup_found
    refine ⟨?_, ?_, ⟨found, hnodup, ?_, hreads⟩, ?_⟩
    · intro hempty
      rw [hempty] at hreads
      cases hreads
      exact hne hfound.eq_nil
    · have hspaces := List.pairwise_map.mp (nodup_spaces hnodup hreads)
      refine ((pairwise_sortedBySpace loaded).and hspaces).imp ?_
      rintro first second ⟨hle, hspace⟩
      exact Decidable.byContradiction fun hnot =>
        hspace (String.le_antisymm hle (String.not_lt.mp hnot))
    · intro name
      rw [← hfound.mem_iff, mem_found]
    · intro given hgiven
      exact mem_found.mp (hpresent given hgiven)
  · rintro ⟨hne, hascending, ⟨found, hnodup, hmem, hreads⟩, hpresent⟩
    have hperm : found.Perm (listing.found files) := by
      rw [List.perm_ext_iff_of_nodup hnodup nodup_found]
      intro name
      rw [hmem, mem_found]
    have hcomp : Relation.Comp List.Perm (List.Forall₂ (listing.Reads files))
        (listing.found files) documents := ⟨found, hperm.symm, hreads⟩
    rw [← List.forall₂_comp_perm_eq_perm_comp_forall₂] at hcomp
    rcases hcomp with ⟨loaded, hloaded, hmoved⟩
    refine ⟨fun given hgiven => mem_found.mpr (hpresent given hgiven), ?_, loaded,
      forall₂_reads_iff.mp hloaded, ?_⟩
    · intro hempty
      rw [hempty] at hperm
      rw [hperm.eq_nil] at hreads
      cases hreads
      exact hne rfl
    · exact sortedBySpace_eq_of_perm hmoved hascending (nodup_spaces hnodup hreads)

theorem mem_iff_of_perm {other : Listing} (hentries : other.entries.Perm listing.entries)
    {goal : Entry → Prop} :
    (∃ entry ∈ other.entries, goal entry) ↔ ∃ entry ∈ listing.entries, goal entry :=
  exists_congr fun _ => and_congr_left' hentries.mem_iff

theorem Loads.of_perm {other : Listing} (hentries : other.entries.Perm listing.entries)
    (hloads : other.Loads files documents) : listing.Loads files documents := by
  have hreads : other.Reads files = listing.Reads files := by
    funext name document
    exact propext (mem_iff_of_perm hentries)
  rcases hloads with ⟨hne, hascending, ⟨found, hnodup, hmem, hfound⟩, hpresent⟩
  refine ⟨hne, hascending, ⟨found, hnodup, ?_, hreads ▸ hfound⟩, ?_⟩
  · intro name
    rw [hmem, mem_iff_of_perm hentries]
  · intro given hgiven
    exact (mem_iff_of_perm hentries).mp (hpresent given hgiven)

theorem load_congr {others : List String} (hsame : ∀ name, name ∈ others ↔ name ∈ files) :
    listing.load others = listing.load files := by
  have hwanted : sortedNames (others.map documentFile) = sortedNames (files.map documentFile) := by
    apply sortedNames_congr
    intro name
    simp only [List.mem_map, hsame]
  rw [load, load, loadDirectory, loadDirectory, hwanted]

end Listing
end Files

theorem Graph.compile_ne_duplicateNamespace {documents : List Document}
    (hspaces : (documents.map (·.space)).Nodup) (space : String) :
    compile documents ≠ .error (.duplicateNamespace space) := by
  intro hrun
  have hstage : (SchemaError.duplicateNamespace space).stage = .namespaces := rfl
  rcases Outcome.bind_eq_error_iff.mp hrun with hread | ⟨outlines, hread, -⟩
  · have hreading := Batch.stage_of_mapM (fun _ _ => Outline.stage_of_ofDocument) hread
    rw [hstage] at hreading
    cases hreading
  have hdistinct : SpacesDistinct outlines := by
    have hsame := Outcome.map_eq_of_forall₂ (f := (·.space)) (g := (·.space))
      (Outcome.forall₂_of_mapM hread) fun _ _ hdocument => (Outline.space_ofDocument hdocument).symm
    rw [SpacesDistinct, ← hsame]
    exact hspaces
  rcases Batch.exists_ofOutlines_iff.mpr hdistinct with ⟨batch, hbatch⟩
  rw [compile_eq_error_iff_examine hread hbatch] at hrun
  have hfails := Batch.failsAt_of_examine hrun
  rw [hstage] at hfails
  cases hfails

namespace Files
namespace Listing

/-- Loading succeeds exactly with one document of each file that is asked for.  Neither the order
of the directory nor that of the list matters, nor how often a name is in the list, and the
documents are of different namespaces. -/
theorem loads_exactly (listing : Listing) (files : List String) :
    (∀ documents, listing.load files = .ok documents ↔ listing.Loads files documents) ∧
    (∀ other : Listing, other.entries.Perm listing.entries → ∀ documents,
      other.load files = .ok documents ↔ listing.load files = .ok documents) ∧
    (∀ others : List String, (∀ name, name ∈ others ↔ name ∈ files) →
      listing.load others = listing.load files) ∧
    ∀ documents, listing.load files = .ok documents →
      ∀ space, Graph.compile documents ≠ .error (.duplicateNamespace space) := by
  refine ⟨fun _ => load_eq_ok_iff_loads, ?_, fun _ => load_congr, ?_⟩
  · intro other hentries documents
    rw [load_eq_ok_iff_loads, load_eq_ok_iff_loads]
    exact ⟨.of_perm hentries, .of_perm hentries.symm⟩
  · intro documents hrun
    rcases (load_eq_ok_iff_loads.mp hrun).one_each with ⟨found, hnodup, -, hreads⟩
    exact Graph.compile_ne_duplicateNamespace (nodup_spaces hnodup hreads)

end Listing
end Files

namespace Sample

open Files

/-- Two documents among entries that are none: a name that is no text, an extension in capital
letters, a name without an extension and a directory. -/
def archiveEntries : List Entry :=
  [⟨Text.utf8 "zeta.json", true, some (Text.utf8 "{}")⟩,
    ⟨0xff :: Text.utf8 ".json", true, some (Text.utf8 "{}")⟩,
    ⟨Text.utf8 "NOTES.JSON", true, some []⟩,
    ⟨Text.utf8 ".json", true, some []⟩,
    ⟨Text.utf8 "old.json", false, none⟩,
    ⟨Text.utf8 "a.b.json", true, some (Text.utf8 "{}")⟩]

def archive : Listing where
  path := "docs"
  entries := archiveEntries
  distinct := by decide +kernel
  plain := by
    intro entry hentry name hname
    have hall : ∀ entry ∈ archiveEntries, ∀ name ∈ (Text.ofUtf8? entry.name).toList,
        name ≠ "" ∧ '/' ∉ name.toList ∧ name ≠ currentDirectory ∧ name ≠ parentDirectory := by
      decide +kernel
    rcases hall entry hentry name (by simp [hname]) with ⟨hempty, hslash, hcurrent, hparent⟩
    exact ⟨hempty, hslash, hcurrent, hparent⟩

def archiveReversed : Listing where
  path := "docs"
  entries := archiveEntries.reverse
  distinct := by
    rw [List.map_reverse, List.nodup_reverse]
    exact archive.distinct
  plain := fun entry hentry => archive.plain entry (List.mem_reverse.mp hentry)

theorem loads_archive :
    archive.Loads ["zeta", "a.b.json"] [⟨"a.b", .object []⟩, ⟨"zeta", .object []⟩] where
  ne_nil := by simp
  ascending := List.pairwise_pair.mpr (by decide)
  one_each := by
    have hwanted : ∀ name ∈ ["a.b.json", "zeta.json"], ∃ entry ∈ archive.entries,
        entry.IsWanted ["zeta", "a.b.json"] name := by decide +kernel
    have hothers : ∀ entry ∈ archive.entries, ∀ name ∈ (Text.ofUtf8? entry.name).toList,
        entry.IsWanted ["zeta", "a.b.json"] name → name ∈ ["a.b.json", "zeta.json"] := by
      decide +kernel
    refine ⟨["a.b.json", "zeta.json"], by decide, ?_, ?_⟩
    · intro name
      constructor
      · exact hwanted name
      · rintro ⟨entry, hentry, hname⟩
        exact hothers entry hentry name (by simp [hname.name_eq]) hname
    · refine .cons ⟨⟨Text.utf8 "a.b.json", true, some (Text.utf8 "{}")⟩, ?_, ?_, ?_⟩
        (.cons ⟨⟨Text.utf8 "zeta.json", true, some (Text.utf8 "{}")⟩, ?_, ?_, ?_⟩ .nil)
      · decide +kernel
      · decide +kernel
      · exact ⟨_, "{}", rfl, Text.ofUtf8?_utf8 _, rfl⟩
      · decide +kernel
      · decide +kernel
      · exact ⟨_, "{}", rfl, Text.ofUtf8?_utf8 _, rfl⟩
  present := by decide +kernel

/-- The archive read from its end, and its files asked for twice. -/
theorem archive_reversed :
    archiveReversed.load ["zeta", "a.b.json"] = .ok [⟨"a.b", .object []⟩, ⟨"zeta", .object []⟩] ∧
      archive.load ["zeta", "a.b.json", "zeta"] =
        .ok [⟨"a.b", .object []⟩, ⟨"zeta", .object []⟩] ∧
      Graph.compile [⟨"a.b", .object []⟩, ⟨"zeta", .object []⟩] ≠
        .error (.duplicateNamespace "zeta") := by
  rcases Listing.loads_exactly archive ["zeta", "a.b.json"] with
    ⟨hloads, hmoved, hrepeated, hcompile⟩
  have hload := (hloads _).mpr loads_archive
  refine ⟨(hmoved archiveReversed (List.reverse_perm _) _).mpr hload, ?_, hcompile _ hload "zeta"⟩
  rw [hrepeated ["zeta", "a.b.json", "zeta"] ?_, hload]
  intro name
  simp only [List.mem_cons, List.not_mem_nil]
  tauto

end Sample

end WireSchema
