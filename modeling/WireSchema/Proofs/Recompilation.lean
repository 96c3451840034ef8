import WireSchema.Proofs.Generation
import WireSchema.Proofs.Spelling

/-!
# Compiling again

A contract is no schema: its version is a number, which declares nothing.  A run that follows a run
of the same configuration therefore fails if it reads one of the contracts that the first one
wrote, and does the same again if it reads none.  It reads one exactly if both directories are one
place, however their paths are written, and the name of the contract is asked for.
-/

namespace WireSchema

open Files Generator

/-! ## Contracts as documents -/

namespace Contract

open Json (IsPlain)

section Plain

variable {α : Type}

theorem isPlain_array {items : List α} {encode : α → Json}
    (hencode : ∀ item, (encode item).IsPlain) : IsPlain (.array (items.map encode)) :=
  .array _ fun _ hitem => by
    obtain ⟨item, -, rfl⟩ := List.mem_map.mp hitem
    exact hencode item

theorem sublist_optional (name : String) (encode : α → Json) (value : Option α) :
    ((optional name encode value).map (·.1)).Sublist [name] := by
  cases value with
  | none => exact List.nil_sublist _
  | some value => exact List.Sublist.refl _

theorem isPlain_optional {name : String} {encode : α → Json} {value : Option α}
    (hencode : ∀ item, (encode item).IsPlain) :
    ∀ member ∈ optional name encode value, member.2.IsPlain := by
  cases value with
  | none => simp [optional]
  | some value => simpa [optional] using hencode value

end Plain

theorem EnumValue.isPlain_toJson (value : EnumValue) : value.toJson.IsPlain := by
  refine .object _ (by simp) ?_
  simp only [List.forall_mem_cons]
  exact ⟨.string _, .number _, by simp⟩

theorem Enum.isPlain_toJson (type : Enum) : type.toJson.IsPlain := by
  refine .object _ (by simp) ?_
  simp only [List.forall_mem_cons]
  exact ⟨.string _, .string _, isPlain_array EnumValue.isPlain_toJson, by simp⟩

theorem Field.isPlain_toJson (field : Field) : field.toJson.IsPlain := by
  refine .object _ ?_ ?_
  · have hnames :
        ["name", "key", "type", "optional", "inherited", "flag_bit", "static_size"].Nodup := by
      decide
    refine hnames.sublist ?_
    simp only [List.map_append]
    exact ((List.Sublist.refl _).append (sublist_optional ..)).append (sublist_optional ..)
  · simp only [List.forall_mem_append, List.forall_mem_cons]
    exact ⟨⟨⟨.string _, .string _, .string _, .bool _, .bool _, by simp⟩,
      isPlain_optional fun _ => .number _⟩, isPlain_optional fun _ => .number _⟩

theorem Object.isPlain_toJson (object : Object) : object.toJson.IsPlain := by
  refine .object _ ?_ ?_
  · have hnames : ["name", "tag", "role", "parent", "root", "kind_tag", "polymorphic", "flag_bytes",
        "static_min_size", "wire_id", "response", "request", "fields"].Nodup := by
      decide
    refine hnames.sublist ?_
    simp only [List.map_append]
    exact ((((((List.Sublist.refl _).append (sublist_optional ..)).append
      (List.Sublist.refl _)).append (sublist_optional ..)).append (sublist_optional ..)).append
        (sublist_optional ..)).append (List.Sublist.refl _)
  · simp only [List.forall_mem_append, List.forall_mem_cons]
    exact ⟨⟨⟨⟨⟨⟨⟨.string _, .string _, .string _, by simp⟩, isPlain_optional .string⟩,
      ⟨.string _, .number _, .bool _, .number _, .number _, by simp⟩⟩,
        isPlain_optional fun _ => .number _⟩, isPlain_optional .string⟩, isPlain_optional .string⟩,
          isPlain_array Field.isPlain_toJson, by simp⟩

theorem DispatchEntry.isPlain_toJson (entry : DispatchEntry) : entry.toJson.IsPlain := by
  refine .object _ (by simp) ?_
  simp only [List.forall_mem_cons]
  exact ⟨.number _, .string _, by simp⟩

theorem Dispatch.isPlain_toJson (dispatch : Dispatch) : dispatch.toJson.IsPlain := by
  refine .object _ (by simp) ?_
  simp only [List.forall_mem_cons]
  exact ⟨.string _, isPlain_array DispatchEntry.isPlain_toJson, by simp⟩

theorem FactoryEntry.isPlain_toJson (entry : FactoryEntry) : entry.toJson.IsPlain := by
  refine .object _ (by simp) ?_
  simp only [List.forall_mem_cons]
  exact ⟨.number _, .string _, by simp⟩

theorem Manifest.isPlain_toJson (manifest : Manifest) : manifest.toJson.IsPlain := by
  refine .object _ (by simp) ?_
  simp only [List.forall_mem_cons]
  exact ⟨.number _, .string _, isPlain_array Enum.isPlain_toJson,
    isPlain_array Object.isPlain_toJson, isPlain_array Dispatch.isPlain_toJson,
    isPlain_array FactoryEntry.isPlain_toJson, by simp⟩

theorem Manifest.exists_layout (manifest : Manifest) (spread : Bool) :
    ∃ layout, (manifest.text spread ++ "\n").toList =
      Json.spell layout 0 manifest.toJson ++ ['\n'] := by
  have hend : "\n".toList = ['\n'] := by decide
  rw [String.toList_append, hend, Manifest.text]
  cases spread with
  | true => exact ⟨.lines, by rw [if_pos rfl, Json.toList_pretty]⟩
  | false => exact ⟨.oneLine, by rw [if_neg (by simp), Json.toList_compact 0]⟩

/-- Whatever a contract is read as begins with a number for the version. -/
theorem Manifest.exists_version {manifest : Manifest} {spread : Bool} {levels : Nat} {root : Json}
    (hroot : Json.ofText? levels (manifest.text spread ++ "\n") = some root) :
    ∃ value rest, root = .object (("version", .number value) :: rest) := by
  obtain ⟨layout, htext⟩ := manifest.exists_layout spread
  have hend : ∀ c ∈ ['\n'], Json.isJsonBlank c = true := by
    intro c hc
    rw [List.mem_singleton.mp hc]
    decide
  have hsame := Json.unnumbered_of_ofText? manifest.isPlain_toJson hend htext hroot
  rw [toJson, Json.unnumbered, Json.unnumberedMembers] at hsame
  cases root with
  | object members =>
      rw [Json.unnumbered, Json.object.injEq] at hsame
      cases members with
      | nil => cases hsame
      | cons member rest =>
          rcases member with ⟨name, value⟩
          rw [Json.unnumberedMembers, List.cons.injEq, Prod.mk.injEq] at hsame
          obtain ⟨⟨rfl, hvalue⟩, -⟩ := hsame
          cases value with
          | number value => exact ⟨value, rest, rfl⟩
          | null => cases hvalue
          | bool value => cases hvalue
          | string value => cases hvalue
          | array items => cases hvalue
          | object members => cases hvalue
  | null => cases hsame
  | bool value => cases hsame
  | number value => cases hsame
  | string value => cases hsame
  | array items => cases hsame

/-- A contract declares nothing, so that no document can be made of it. -/
theorem Manifest.exists_fault {manifest : Manifest} {spread : Bool} {space : String}
    {document : Document}
    (hdocument : Document.ofText space (manifest.text spread ++ "\n") = .ok document) :
    ∃ fault, Outline.ofDocument document = .error fault := by
  unfold Document.ofText at hdocument
  split at hdocument
  next root hroot =>
    cases hdocument
    obtain ⟨value, rest, rfl⟩ := Manifest.exists_version hroot
    have hentry : Outline.readEntry ⟨space, [], []⟩ "version" (.number value) =
        .error (.invalidDeclaration space "version") := by
      unfold Outline.readEntry
      exact if_neg (by decide)
    refine ⟨.invalidDeclaration space "version", ?_⟩
    unfold Outline.ofDocument
    dsimp only
    rw [Outline.readEntries, hentry]
    rfl
  next => cases hdocument

end Contract

theorem Files.extension?_contractName {space : String} (hplain : IsPlain (contractName space)) :
    extension? (contractName space) = some documentExtension := by
  have hchars : (contractName space).toList.reverse =
      ['n', 'o', 's', 'j'] ++
        '.' :: 't' :: ("contrac".toList.reverse ++ '.' :: space.toList.reverse) := by
    have hsuffix : contractSuffix.toList =
        '.' :: "contrac".toList ++ 't' :: '.' :: ['j', 's', 'o', 'n'] := by decide
    rw [contractName, String.toList_append, hsuffix]
    simp
  rw [extension?_of_isPlain hplain, splitName, hchars]
  rfl

namespace FileTree

variable {tree after : FileTree} {config : Config} {summaries : List Summary}

/-! ## What the next run reads -/

/-- The next run reads a contract: both directories are one place, and the contract of a namespace
is asked for by name, or by no name at all. -/
def ReadsBack (config : Config) (after : FileTree) (summaries : List Summary) : Prop :=
  (∃ place, after.locate config.sourceDir = .ok place ∧ after.locate config.outDir = .ok place) ∧
    ∃ summary ∈ summaries, isPath (join config.sourceDir (contractName summary.space)) = true ∧
      (config.files = [] ∨ contractName summary.space ∈ config.files.map documentFile)

theorem read?_eq_some_iff {path : String} {bytes : List UInt8} : tree.read? path = some bytes ↔
    ∃ place, tree.locate path = .ok place ∧ tree.node? place = some (.file bytes) ∧
      tree.allows .read place = true := by
  unfold read?
  cases tree.locate path with
  | error fault => simp
  | ok place =>
      cases hnode : tree.node? place with
      | none => simp [hnode]
      | some node => cases node <;> simp [hnode, and_comm]

section Again

variable {documents : List Document} {graph : Graph} {out place : Place} {name : String}

variable (hgenerates : Generates config tree after summaries documents graph out)
  (hplace : tree.locate config.sourceDir = .ok place)
  (hdirectory : tree.node? place = some .directory)

include hgenerates

theorem mem_summaries {space : Namespace} (hspace : space ∈ graph.namespaces) :
    ∃ summary ∈ summaries, summary.space = space.name := by
  rw [hgenerates.summaries_eq]
  exact ⟨_, List.mem_map_of_mem hspace, rfl⟩

include hplace hdirectory

/-- A file that the next run reads is no contract, unless it reads one. -/
theorem not_mem_contractPlaces_of_isLoaded (hfresh : ¬ ReadsBack config after summaries)
    {inner : FileName} (hinner : FileName.of? name = some inner)
    (hloaded : after.IsLoaded config.sourceDir config.files name) :
    place ++ [inner] ∉ contractPlaces out (documents.map (·.space)) := by
  intro hmem
  obtain ⟨space, hspace, entry, hentry, hsame⟩ := mem_contractPlaces.mp hmem
  obtain ⟨rfl, hnames⟩ := List.append_inj' hsame rfl
  obtain rfl : inner = entry := List.singleton_inj.mp hnames
  obtain rfl : name = contractName space := by
    rw [← Text.utf8_inj, ← FileName.of?_eq_some_iff.mp hinner, FileName.of?_eq_some_iff.mp hentry]
  rw [← hgenerates.names_eq] at hspace
  obtain ⟨found, hfound, rfl⟩ := List.mem_map.mp hspace
  obtain ⟨summary, hsummary, hsame⟩ := mem_summaries hgenerates hfound
  have hafter := hgenerates.others.locate hplace
  obtain ⟨-, -, hpath, -⟩ :=
    exists_file_of_isLoaded hafter (hgenerates.others.directory _ hdirectory) hloaded
  refine hfresh ⟨⟨place, hafter, hgenerates.locate_out⟩, summary, hsummary, ?_, ?_⟩
  · rw [hsame]
    exact hpath
  · rw [hsame]
    exact hloaded.wanted

theorem isLoaded_iff_of_not_readsBack (hfresh : ¬ ReadsBack config after summaries) :
    after.IsLoaded config.sourceDir config.files name ↔
      tree.IsLoaded config.sourceDir config.files name := by
  have hafter := hgenerates.others.locate hplace
  have hdirectory' := hgenerates.others.directory _ hdirectory
  constructor
  · intro hloaded
    obtain ⟨inner, hinner, hpath, henter, bytes, hbytes⟩ :=
      exists_file_of_isLoaded hafter hdirectory' hloaded
    have hapart :=
      not_mem_contractPlaces_of_isLoaded hgenerates hplace hdirectory hfresh hinner hloaded
    refine ⟨hloaded.isEntry, ?_, hloaded.extension, hloaded.wanted⟩
    rw [isFile_join_iff hplace hdirectory hinner, ← hgenerates.others.allows_eq]
    exact ⟨hpath, henter, bytes, (hgenerates.others.file _ hapart _).mp hbytes⟩
  · intro hloaded
    obtain ⟨inner, hinner, hpath, henter, bytes, hbytes⟩ :=
      exists_file_of_isLoaded hplace hdirectory hloaded
    refine ⟨hloaded.isEntry, ?_, hloaded.extension, hloaded.wanted⟩
    rw [isFile_join_iff hafter hdirectory' hinner, hgenerates.others.allows_eq]
    refine ⟨hpath, henter, ?_⟩
    by_cases hmem : place ++ [inner] ∈ contractPlaces out (documents.map (·.space))
    · obtain ⟨space, hspace, entry, hentry, hsame⟩ := mem_contractPlaces.mp hmem
      rw [← hgenerates.names_eq] at hspace
      obtain ⟨found, hfound, rfl⟩ := List.mem_map.mp hspace
      obtain ⟨other, hother, -, hfile, -⟩ := hgenerates.contracts found hfound
      obtain rfl : entry = other := Option.some.inj (hentry.symm.trans hother)
      exact ⟨_, hsame ▸ hfile⟩
    · exact ⟨bytes, (hgenerates.others.file _ hmem _).mpr hbytes⟩

/-- A file that the next run reads, and that is no contract, holds what it held. -/
theorem document_of_not_readsBack (hfresh : ¬ ReadsBack config after summaries)
    (hloaded : after.IsLoaded config.sourceDir config.files name) :
    after.document config.sourceDir name = tree.document config.sourceDir name := by
  have hafter := hgenerates.others.locate hplace
  obtain ⟨inner, hinner, hpath, henter, -⟩ :=
    exists_file_of_isLoaded hafter (hgenerates.others.directory _ hdirectory) hloaded
  have hplain := FileName.isPlain_of_of? hinner
  have hapart :=
    not_mem_contractPlaces_of_isLoaded hgenerates hplace hdirectory hfresh hinner hloaded
  have hjoin : tree.locate (join config.sourceDir name) = .ok (place ++ [inner]) := by
    rw [hgenerates.others.allows_eq] at henter
    exact (locate_join_eq_ok_iff (directory_ne_empty hplace) hplain).mpr
      ⟨hpath, place, hplace, hdirectory, henter, inner, hinner, rfl⟩
  have hread :
      after.read? (join config.sourceDir name) = tree.read? (join config.sourceDir name) := by
    apply Option.ext
    intro bytes
    rw [read?_eq_some_iff, read?_eq_some_iff, hjoin, hgenerates.others.locate hjoin]
    simp only [Except.ok.injEq, exists_eq_left', hgenerates.others.file _ hapart,
      hgenerates.others.allows_eq]
  rw [document, document, hread]

end Again

section Whole

variable {documents : List Document} {graph : Graph} {out : Place}

/-- A directory is loaded again as it was, if no contract is read. -/
theorem load_again (hgenerates : Generates config tree after summaries documents graph out)
    (hfresh : ¬ ReadsBack config after summaries) :
    after.load config.sourceDir config.files = .ok documents := by
  obtain ⟨hnames, hloads⟩ := load_eq_ok_iff.mp hgenerates.loaded
  obtain ⟨place, hplace, hdirectory, hlist⟩ := isSome_names?_iff.mp hnames
  have hsame (name : String) : after.IsLoaded config.sourceDir config.files name ↔
      tree.IsLoaded config.sourceDir config.files name :=
    isLoaded_iff_of_not_readsBack hgenerates hplace hdirectory hfresh
  have hlisted := isSome_names?_iff.mpr ⟨place, hgenerates.others.locate hplace,
    hgenerates.others.directory _ hdirectory, by rw [hgenerates.others.allows_eq, hlist]⟩
  obtain ⟨found, hnodup, hfound, hdocuments⟩ := hloads.one_each
  refine load_eq_ok_iff.mpr ⟨hlisted, hloads.ne_nil, hloads.ascending,
    ⟨found, hnodup, ?_, ?_⟩, ?_⟩
  · intro name
    rw [hfound, hsame]
  · refine (Outcome.forall₂_mem hdocuments).imp ?_
    rintro name document ⟨hname, -, hdocument⟩
    have hloaded := (hsame name).mpr ((hfound name).mp hname)
    rw [document_of_not_readsBack hgenerates hplace hdirectory hfresh hloaded, hdocument]
  · intro given hgiven
    exact (hsame _).mpr (hloads.present given hgiven)

/-- Writing contracts that are there changes nothing. -/
theorem perform_writeContracts_of_hasContracts {outDir : String} {text : Namespace → String}
    {spaces : List Namespace} (hcontracts : tree.HasContracts outDir out text spaces) :
    tree.perform (writeContracts outDir (planOf text spaces)) =
      (.ok (spaces.map (writtenSummary outDir)), tree) := by
  induction spaces with
  | nil => rfl
  | cons space rest ih =>
      obtain ⟨⟨name, -, hpath, hfile, hopen⟩, hrest⟩ := List.forall_mem_cons.mp hcontracts
      rw [perform_writeContracts_cons, write?_self hpath hfile hopen]
      dsimp only
      rw [ih hrest, List.map_cons]

theorem perform_again (hgenerates : Generates config tree after summaries documents graph out)
    (hfresh : ¬ ReadsBack config after summaries) :
    after.perform (compile config) = (.ok summaries, after) := by
  have hresolved : after.resolved config = .ok graph :=
    resolved_eq_ok_iff.mpr ⟨hgenerates.valid, documents, load_again hgenerates hfresh,
      hgenerates.compiled⟩
  have hmade := makeDirectories_of_isDirectory
    (isDirectory_iff.mpr ⟨out, hgenerates.locate_out, hgenerates.directory⟩)
  rw [perform_compile_of_resolved hresolved, hmade, contracts_of_compile hgenerates.compiled]
  dsimp only
  rw [perform_writeContracts_of_hasContracts hgenerates.contracts, hgenerates.summaries_eq]

/-- The way on from the directory of the documents is free, since a document was read there. -/
theorem allows_enter_of_generates {place : Place}
    (hgenerates : Generates config tree after summaries documents graph out)
    (hsource : after.locate config.sourceDir = .ok place) : after.allows .enter place = true := by
  obtain ⟨hnames, hloads⟩ := load_eq_ok_iff.mp hgenerates.loaded
  obtain ⟨other, hother, hdirectory, -⟩ := isSome_names?_iff.mp hnames
  obtain rfl : other = place := Except.ok.inj ((hgenerates.others.locate hother).symm.trans hsource)
  obtain ⟨document, hdocument⟩ := List.exists_mem_of_ne_nil _ hloads.ne_nil
  obtain ⟨name, hloaded, -⟩ := hloads.exists_name hdocument
  obtain ⟨-, -, -, henter, -⟩ := exists_file_of_isLoaded hother hdirectory hloaded
  rw [hgenerates.others.allows_eq]
  exact henter

/-- The contract of a namespace is read by the next run, as what it is. -/
theorem exists_readBack (hgenerates : Generates config tree after summaries documents graph out)
    (hback : ReadsBack config after summaries) :
    ∃ space ∈ graph.namespaces,
      after.IsLoaded config.sourceDir config.files (contractName space.name) ∧
        ∀ bytes, after.read? (join config.sourceDir (contractName space.name)) = some bytes →
          bytes = Text.utf8 (contractText config graph space ++ "\n") := by
  obtain ⟨⟨place, hsource, hout⟩, summary, hsummary, hpath, hwanted⟩ := hback
  rw [hgenerates.summaries_eq] at hsummary
  obtain ⟨space, hspace, rfl⟩ := List.mem_map.mp hsummary
  obtain rfl : place = out := Except.ok.inj (hout.symm.trans hgenerates.locate_out)
  obtain ⟨name, hname, -, hfile, -⟩ := hgenerates.contracts space hspace
  have hplain := FileName.isPlain_of_of? hname
  have henter := allows_enter_of_generates hgenerates hsource
  have hjoin : after.locate (join config.sourceDir (contractName space.name)) =
      .ok (place ++ [name]) :=
    (locate_join_eq_ok_iff (directory_ne_empty hsource) hplain).mpr
      ⟨hpath, place, hsource, hgenerates.directory, henter, name, hname, rfl⟩
  refine ⟨space, hspace, ⟨by rw [hname]; rfl, ?_, extension?_contractName hplain, hwanted⟩, ?_⟩
  · exact (isFile_join_iff hsource hgenerates.directory hname).mpr ⟨hpath, henter, _, hfile⟩
  · intro bytes hbytes
    obtain ⟨other, hother, hheld, -⟩ := read?_eq_some_iff.mp hbytes
    obtain rfl : place ++ [name] = other := Except.ok.inj (hjoin.symm.trans hother)
    exact FileNode.file.inj (Option.some.inj (hheld.symm.trans hfile))

/-- A contract that is read fails the run, which changes nothing. -/
theorem fails_of_readsBack (hgenerates : Generates config tree after summaries documents graph out)
    (hback : ReadsBack config after summaries) :
    ∃ error, after.perform (compile config) = (.error (.schema error), after) := by
  obtain ⟨space, hspace, hloaded, hbytes⟩ := exists_readBack hgenerates hback
  cases hload : after.load config.sourceDir config.files with
  | error error =>
      exact ⟨error, perform_compile_of_resolved_error
        (resolved_of_load_error hgenerates.valid hload)⟩
  | ok others =>
      obtain ⟨found, -, hfound, hdocuments⟩ := (load_eq_ok_iff.mp hload).2.one_each
      obtain ⟨document, hmem, hdocument⟩ :=
        Outcome.exists_mem_of_forall₂ hdocuments ((hfound _).mpr hloaded)
      unfold FileTree.document at hdocument
      split at hdocument
      next text htext =>
        obtain ⟨bytes, hread, htext⟩ := Option.bind_eq_some_iff.mp htext
        rw [hbytes bytes hread, Text.ofUtf8?_utf8, Option.some_inj] at htext
        subst htext
        obtain ⟨fault, hfault⟩ := Contract.Manifest.exists_fault hdocument
        obtain ⟨-, -, error, -, hcompile⟩ := compile_of_ofDocument_error hmem hfault
        exact ⟨error, perform_compile_of_resolved_error
          (resolved_of_compile_error hgenerates.valid hload hcompile)⟩
      next => cases hdocument

end Whole

/-- A run that follows one of the same configuration does the same again and changes nothing,
exactly if it reads none of the contracts.  If it reads one, it fails and changes nothing.  A tree
has no links, which could lead to a contract from a place of another spelling. -/
theorem compile_again (config : Config) (tree after : FileTree) (summaries : List Summary)
    (hrun : tree.perform (compile config) = (.ok summaries, after)) :
    (after.perform (compile config) = (.ok summaries, after) ↔
      ¬ ReadsBack config after summaries) ∧
    (ReadsBack config after summaries →
      ∃ error, after.perform (compile config) = (.error (.schema error), after)) := by
  obtain ⟨documents, graph, out, hgenerates⟩ := exists_generates hrun
  refine ⟨⟨?_, perform_again hgenerates⟩, fails_of_readsBack hgenerates⟩
  intro hsame hback
  obtain ⟨error, herror⟩ := fails_of_readsBack hgenerates hback
  rw [hsame] at herror
  cases herror

end FileTree

namespace Sample

open FileTree

/-- The directory of the documents in another spelling, for the contracts. -/
def inPlace : Config := { Config.standard with outDir := "./packme" }

/-- The press compiled twice: into a directory of its own, it does the same again; into that of its
documents, it fails. -/
theorem press_again :
    (∃ after, press.perform (compile Config.standard) = (.ok pressSummaries, after) ∧
      after.perform (compile Config.standard) = (.ok pressSummaries, after)) ∧
    ∃ summaries after, press.perform (compile inPlace) = (.ok summaries, after) ∧
      ∃ error, after.perform (compile inPlace) = (.error (.schema error), after) := by
  constructor
  · obtain ⟨after, hrun⟩ := perform_press
    have hafter : after = (press.perform (compile Config.standard)).2 := by rw [hrun]
    refine ⟨after, hrun, (compile_again _ _ _ _ hrun).1.mpr ?_⟩
    rintro ⟨⟨place, hsource, hout⟩, -⟩
    have hapart : after.locate "packme" ≠ after.locate "generated" := by
      rw [hafter, perform_compile_of_resolved resolved_press]
      decide +kernel
    exact hapart (hsource.trans hout.symm)
  · have hresolved : press.resolved inPlace = .ok (schemaOf 1 pressDocuments).graph :=
      resolved_eq_ok_iff.mpr ⟨rfl, _, load_press, compile_schemaOf 1 (by decide +kernel)⟩
    have hrun : press.perform (compile inPlace) =
        (.ok [⟨"a", 0, 0, 0, 0, some "./packme/a.contract.json"⟩,
          ⟨"b", 0, 0, 0, 0, some "./packme/b.contract.json"⟩],
            (press.perform (compile inPlace)).2) := by
      refine Prod.ext ?_ rfl
      rw [perform_compile_of_resolved hresolved]
      decide +kernel
    refine ⟨_, _, hrun, (compile_again _ _ _ _ hrun).2 ⟨⟨placeOf ["w", "packme"], ?_, ?_⟩, _,
      List.mem_cons_self, by decide, .inl rfl⟩⟩
    · rw [perform_compile_of_resolved hresolved]
      decide +kernel
    · rw [perform_compile_of_resolved hresolved]
      decide +kernel

end Sample
end WireSchema
