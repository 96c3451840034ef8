import WireSchema.Generator.Compile
import WireSchema.Proofs.Directories
import WireSchema.Proofs.Integrity

/-!
# Compiling a directory

A run of the generator reads, resolves and renders everything before it writes anything.  An error
in a configuration or in documents is therefore all that is left of a run that meets one.  A run
that succeeds leaves one file for each document, with the contract of its namespace, and no other
file is touched.
-/

namespace WireSchema

open Files Generator

/-! ## Names of contracts -/

namespace Files

theorem isPlain_contractName {space : String} (hslash : '/' ∉ space.toList) :
    IsPlain (contractName space) := by
  have hlength : 2 < (contractName space).toList.length := by
    rw [contractName, String.toList_append, List.length_append]
    exact Nat.lt_of_lt_of_le (by decide : 2 < contractSuffix.toList.length) (Nat.le_add_left _ _)
  have hne {other : String} (hother : other.toList.length ≤ 2) : contractName space ≠ other := by
    rintro rfl
    omega
  refine ⟨hne (by decide), ?_, hne (by decide), hne (by decide)⟩
  rw [contractName, String.toList_append, List.mem_append, not_or]
  exact ⟨hslash, by decide⟩

theorem slash_not_mem_stem {name extension : String} (hplain : IsPlain name)
    (hextension : extension? name = some extension) : '/' ∉ (stem name).toList := by
  intro hmem
  apply hplain.slash
  rw [extension?_of_isPlain hplain] at hextension
  rw [eq_of_splitName hextension, String.toList_append, String.toList_append]
  exact List.mem_append_left _ (List.mem_append_left _ hmem)

theorem contractName_inj {space other : String} :
    contractName space = contractName other ↔ space = other := by
  constructor
  · intro hsame
    unfold contractName at hsame
    simpa [← String.toList_inj] using hsame
  · exact congrArg contractName

end Files

/-- The places of the contracts of some namespaces in a directory. -/
def contractPlaces (out : Place) (spaces : List String) : List Place :=
  (placeOf (spaces.map contractName)).map (out ++ [·])

theorem mem_contractPlaces {out place : Place} {spaces : List String} :
    place ∈ contractPlaces out spaces ↔
      ∃ space ∈ spaces, ∃ name, FileName.of? (contractName space) = some name ∧
        place = out ++ [name] := by
  simp only [contractPlaces, placeOf, List.mem_map, List.mem_filterMap, exists_exists_and_eq_and]
  constructor
  · rintro ⟨name, ⟨space, hspace, hname⟩, rfl⟩
    exact ⟨space, hspace, name, hname, rfl⟩
  · rintro ⟨space, hspace, name, hname, rfl⟩
    exact ⟨name, ⟨space, hspace, hname⟩, rfl⟩

theorem append_not_mem_contractPlaces (out : Place) {space : String} {spaces : List String}
    {name : FileName} (hname : FileName.of? (contractName space) = some name)
    (hspace : space ∉ spaces) : out ++ [name] ∉ contractPlaces out spaces := by
  intro hmem
  obtain ⟨other, hother, name', hname', hplace⟩ := mem_contractPlaces.mp hmem
  obtain rfl : name = name' := List.singleton_inj.mp (List.append_cancel_left hplace)
  have hsame : contractName space = contractName other := by
    rw [← Text.utf8_inj, ← FileName.of?_eq_some_iff.mp hname, FileName.of?_eq_some_iff.mp hname']
  exact hspace (contractName_inj.mp hsame ▸ hother)

namespace FileTree

variable {tree : FileTree} {config : Config}

/-! ## Resolving -/

/-- What comes of a configuration before anything is written. -/
def resolved (tree : FileTree) (config : Config) : Except GenerationError Graph :=
  match config.validate with
  | .error error => .error (.config error)
  | .ok () =>
    match tree.load config.sourceDir config.files with
    | .error error => .error (.schema error)
    | .ok documents =>
      match Graph.compile documents with
      | .error error => .error (.schema error)
      | .ok graph => .ok graph

/-- Resolving leaves the tree as it is. -/
theorem perform_resolve (tree : FileTree) (config : Config) :
    tree.perform (resolve config) = (tree.resolved config, tree) := by
  unfold resolve resolved
  cases config.validate with
  | error error => rfl
  | ok _ =>
      dsimp only
      rw [perform_bind]
      rw [perform_run, perform_loadDirectory]
      dsimp only
      cases tree.load config.sourceDir config.files with
      | error error => rfl
      | ok documents =>
          dsimp only
          cases Graph.compile documents <;> rfl

theorem perform_compile_of_resolved_error {error : GenerationError}
    (herror : tree.resolved config = .error error) :
    tree.perform (compile config) = (.error error, tree) := by
  rw [compile, perform_bind, perform_resolve, herror]

/-! ## Writing -/

/-- The summary of a namespace with its contract written. -/
def writtenSummary (outDir : String) (space : Namespace) : Summary :=
  { Summary.ofNamespace space with contract := some (contractPath outDir space.name) }

/-- The contracts of some namespaces are in a directory, where their paths lead to, and they can be
written again. -/
def HasContracts (tree : FileTree) (outDir : String) (out : Place) (text : Namespace → String)
    (spaces : List Namespace) : Prop :=
  ∀ space ∈ spaces, ∃ name, FileName.of? (contractName space.name) = some name ∧
    tree.locate (contractPath outDir space.name) = .ok (out ++ [name]) ∧
      tree.node? (out ++ [name]) = some (.file (Text.utf8 (text space ++ "\n"))) ∧
        tree.allows .change (out ++ [name]) = true

def planOf (text : Namespace → String) (spaces : List Namespace) :
    List (Summary × Option String) :=
  spaces.map fun space => (Summary.ofNamespace space, some (text space))

variable {outDir : String} {out : Place} {text : Namespace → String} {spaces : List Namespace}

theorem perform_writeContracts_cons (space : Namespace) :
    tree.perform (writeContracts outDir (planOf text (space :: spaces))) =
      match tree.write? (contractPath outDir space.name) (Text.utf8 (text space ++ "\n")) with
      | none => (.error (.unwritable (contractPath outDir space.name)), tree)
      | some next =>
        match next.perform (writeContracts outDir (planOf text spaces)) with
        | (.ok others, after) => (.ok (writtenSummary outDir space :: others), after)
        | (.error error, after) => (.error error, after) := by
  rw [planOf, List.map_cons, writeContracts, perform_bind]
  have hpath : contractPath outDir (Summary.ofNamespace space).space =
      contractPath outDir space.name := rfl
  rw [hpath]
  cases hwrite : tree.write? (contractPath outDir space.name) (Text.utf8 (text space ++ "\n")) with
  | none =>
      rw [perform_write_of_none hwrite]
      rfl
  | some next =>
      rw [perform_write_of_some hwrite]
      dsimp only
      rw [if_pos rfl, perform_bind, ← planOf]
      rcases next.perform (writeContracts outDir (planOf text spaces)) with ⟨result, after⟩
      cases result <;> rfl

/-- Contracts that are all written are there, one file each, and nothing else is changed. -/
theorem hasContracts_of_writeContracts {after : FileTree} {summaries : List Summary}
    (hout : tree.locate outDir = .ok out)
    (hplain : ∀ space ∈ spaces, IsPlain (contractName space.name))
    (hdistinct : (spaces.map (·.name)).Nodup)
    (hrun : tree.perform (writeContracts outDir (planOf text spaces)) = (.ok summaries, after)) :
    summaries = spaces.map (writtenSummary outDir) ∧
      after.Follows tree (contractPlaces out (spaces.map (·.name))) ∧
        after.HasContracts outDir out text spaces := by
  induction spaces generalizing tree summaries with
  | nil =>
      cases hrun
      exact ⟨rfl, .refl _, fun _ hspace => absurd hspace List.not_mem_nil⟩
  | cons space rest ih =>
      rw [List.forall_mem_cons] at hplain
      rw [List.map_cons, List.nodup_cons] at hdistinct
      rw [perform_writeContracts_cons] at hrun
      split at hrun
      · cases hrun
      next next hwrite =>
        split at hrun
        next others left hrest =>
          cases hrun
          obtain ⟨place, hplace, hfree, hopen, rfl⟩ := write?_eq_some hwrite
          obtain ⟨-, outer, houter, -, -, name, hname, rfl⟩ :=
            (locate_join_eq_ok_iff (directory_ne_empty hout) hplain.1).mp hplace
          obtain rfl : out = outer := Except.ok.inj (hout.symm.trans houter)
          have hfollows := follows_put_file (Text.utf8 (text space ++ "\n")) hfree
          obtain ⟨rfl, hafter, hothers⟩ := ih (hfollows.locate hout) hplain.2 hdistinct.2 hrest
          have hplaces : contractPlaces out ((space :: rest).map (·.name)) =
              [out ++ [name]] ++ contractPlaces out (rest.map (·.name)) := by
            simp [contractPlaces, placeOf, hname]
          have hapart := append_not_mem_contractPlaces out hname hdistinct.1
          refine ⟨rfl, hplaces ▸ hafter.trans hfollows, ?_⟩
          refine List.forall_mem_cons.mpr ⟨⟨name, hname, ?_, ?_, ?_⟩, hothers⟩
          · exact hafter.locate (hfollows.locate hplace)
          · rw [hafter.file _ hapart, node?_put (by simp), if_pos rfl]
          · rw [hafter.allows_eq, hfollows.allows_eq, hopen]
        next => cases hrun

/-! ## Rendering -/

section Rendering

variable {documents : List Document} {graph : Graph}

/-- Every namespace of a compiled graph is rendered. -/
theorem ofGraph?_of_compile (hcompile : Graph.compile documents = .ok graph) {space : Namespace}
    (hspace : space ∈ graph.namespaces) :
    Contract.ofGraph? graph space.name = some (Contract.ofNamespace graph space) := by
  obtain ⟨outlines, batch, found, hread, hnumbers, hfound, rfl⟩ :=
    Graph.exists_reading_of_compile hcompile
  obtain ⟨home, hhome, rfl⟩ := List.mem_map.mp hspace
  change Contract.ofGraph? _ home.outline.space = _
  rw [Contract.ofGraph?, hnumbers.namespace?_graph hhome, Option.map_some]

theorem names_of_compile (hcompile : Graph.compile documents = .ok graph) :
    graph.namespaces.map (·.name) = documents.map (·.space) ∧
      (graph.namespaces.map (·.name)).Nodup := by
  obtain ⟨outlines, batch, found, hread, hnumbers, hfound, rfl⟩ :=
    Graph.exists_reading_of_compile hcompile
  have hlists := hnumbers.lists_graph hfound hread
  exact ⟨hlists.names_eq, hlists.names_nodup⟩

/-- The text of the contract of a namespace. -/
def contractText (config : Config) (graph : Graph) (space : Namespace) : String :=
  (Contract.ofNamespace graph space).text config.pretty

theorem contracts_of_compile (hcompile : Graph.compile documents = .ok graph) :
    contracts config graph = planOf (contractText config graph) graph.namespaces := by
  rw [contracts, summaries, List.map_map, planOf]
  apply List.map_congr_left
  intro space hspace
  have hrendered : Contract.ofGraph? graph (Summary.ofNamespace space).space = _ :=
    ofGraph?_of_compile hcompile hspace
  rw [Function.comp_apply, hrendered]
  rfl

theorem perform_compile_of_resolved (hresolved : tree.resolved config = .ok graph) :
    tree.perform (compile config) =
      match tree.makeDirectories config.outDir with
      | (true, made) => made.perform (writeContracts config.outDir (contracts config graph))
      | (false, made) => (.error (.unwritable config.outDir), made) := by
  rw [compile, perform_bind, perform_resolve, hresolved]
  dsimp only
  rw [perform_bind, perform_makeDirectories]
  rcases tree.makeDirectories config.outDir with ⟨done, made⟩
  cases done <;> rfl

theorem resolved_eq_ok_iff : tree.resolved config = .ok graph ↔
    config.validate = .ok () ∧ ∃ documents,
      tree.load config.sourceDir config.files = .ok documents ∧
        Graph.compile documents = .ok graph := by
  unfold resolved
  cases config.validate with
  | error error => simp
  | ok _ =>
      cases tree.load config.sourceDir config.files with
      | error error => simp
      | ok documents => cases hcompile : Graph.compile documents <;> simp [hcompile]

end Rendering

/-! ## Whole runs -/

theorem ne_empty_of_validate (hvalid : config.validate = .ok ()) :
    config.sourceDir ≠ "" ∧ config.outDir ≠ "" := by
  unfold Config.validate at hvalid
  split at hvalid
  · cases hvalid
  next hfault =>
    unfold Config.fault? at hfault
    constructor
    · intro hempty
      simp [hempty] at hfault
    · intro hempty
      split at hfault
      · cases hfault
      · rw [hempty, if_pos (by rfl)] at hfault
        cases hfault

theorem isPlain_of_load {directory : String} {files : List String} {documents : List Document}
    (hload : tree.load directory files = .ok documents) {document : Document}
    (hdocument : document ∈ documents) : IsPlain (contractName document.space) := by
  obtain ⟨name, hname, hspace⟩ := (load_eq_ok_iff.mp hload).2.exists_name hdocument
  rw [hspace]
  exact isPlain_contractName (slash_not_mem_stem hname.isPlain hname.extension)

theorem nodup_contractPlaces {out : Place} {spaces : List String} (hspaces : spaces.Nodup) :
    (contractPlaces out spaces).Nodup := by
  refine (hspaces.map fun _ _ hsame => contractName_inj.mp hsame).filterMap ?_ |>.map ?_
  · intro one another name hone hanother
    rw [Option.mem_def, FileName.of?_eq_some_iff] at hone hanother
    rw [← Text.utf8_inj, ← hone, ← hanother]
  · intro one another hsame
    exact List.singleton_inj.mp (List.append_cancel_left hsame)

/-- What a run that succeeds has done: the contract of each document's namespace is in a file of its
own in one directory, and no other file is changed. -/
structure Generates (config : Config) (tree after : FileTree) (summaries : List Summary)
    (documents : List Document) (graph : Graph) (out : Place) : Prop where
  valid : config.validate = .ok ()
  loaded : tree.load config.sourceDir config.files = .ok documents
  compiled : Graph.compile documents = .ok graph
  ascending : documents.Pairwise (·.space < ·.space)
  names_eq : graph.namespaces.map (·.name) = documents.map (·.space)
  rendered : ∀ space ∈ graph.namespaces,
    Contract.ofGraph? graph space.name = some (Contract.ofNamespace graph space)
  summaries_eq : summaries = graph.namespaces.map (writtenSummary config.outDir)
  locate_out : after.locate config.outDir = .ok out
  directory : after.node? out = some .directory
  contracts : after.HasContracts config.outDir out (contractText config graph) graph.namespaces
  places_nodup : (contractPlaces out (documents.map (·.space))).Nodup
  others : after.Follows tree (contractPlaces out (documents.map (·.space)))

theorem exists_generates {after : FileTree} {summaries : List Summary}
    (hrun : tree.perform (compile config) = (.ok summaries, after)) :
    ∃ documents graph out, Generates config tree after summaries documents graph out := by
  cases hresolved : tree.resolved config with
  | error error =>
      rw [perform_compile_of_resolved_error hresolved] at hrun
      cases hrun
  | ok graph =>
      obtain ⟨hvalid, documents, hload, hcompile⟩ := resolved_eq_ok_iff.mp hresolved
      rw [perform_compile_of_resolved hresolved, contracts_of_compile hcompile] at hrun
      have hmade := follows_makeDirectories config.outDir tree
      split at hrun
      next made hmakes =>
        rw [hmakes] at hmade
        obtain ⟨hfollows, hdirectory⟩ := hmade
        obtain ⟨out, hout, hnode⟩ :=
          isDirectory_iff.mp (hdirectory (ne_empty_of_validate hvalid).2 rfl)
        obtain ⟨hnames, hnodup⟩ := names_of_compile hcompile
        have hplain : ∀ space ∈ graph.namespaces, IsPlain (contractName space.name) := by
          intro space hspace
          have hname := List.mem_map_of_mem (f := (·.name)) hspace
          rw [hnames] at hname
          obtain ⟨document, hdocument, hsame⟩ := List.mem_map.mp hname
          exact hsame ▸ isPlain_of_load hload hdocument
        obtain ⟨hsummaries, hafter, hcontracts⟩ :=
          hasContracts_of_writeContracts hout hplain hnodup hrun
        rw [hnames] at hafter hnodup
        exact ⟨documents, graph, out,
          { valid := hvalid
            loaded := hload
            compiled := hcompile
            ascending := (load_eq_ok_iff.mp hload).2.ascending
            names_eq := hnames
            rendered := fun _ hspace => ofGraph?_of_compile hcompile hspace
            summaries_eq := hsummaries
            locate_out := hafter.locate hout
            directory := hafter.directory out hnode
            contracts := hcontracts
            places_nodup := nodup_contractPlaces hnodup
            others := by simpa using hafter.trans hfollows }⟩
      next made _ => cases hrun

theorem resolved_of_load_error {error : SchemaError} (hvalid : config.validate = .ok ())
    (hload : tree.load config.sourceDir config.files = .error error) :
    tree.resolved config = .error (.schema error) := by
  rw [resolved, hvalid]
  dsimp only
  rw [hload]

theorem resolved_of_compile_error {documents : List Document} {error : SchemaError}
    (hvalid : config.validate = .ok ())
    (hload : tree.load config.sourceDir config.files = .ok documents)
    (hcompile : Graph.compile documents = .error error) :
    tree.resolved config = .error (.schema error) := by
  rw [resolved, hvalid]
  dsimp only
  rw [hload]
  dsimp only
  rw [hcompile]

/-- The first document that cannot be read on its own fails the documents as a whole. -/
theorem compile_of_ofDocument_error {documents : List Document} {document : Document}
    {fault : SchemaError} (hdocument : document ∈ documents)
    (hfault : Outline.ofDocument document = .error fault) :
    ∃ other ∈ documents, ∃ error, Outline.ofDocument other = .error error ∧
      Graph.compile documents = .error error := by
  cases hread : documents.mapM Outline.ofDocument with
  | ok outlines =>
      obtain ⟨outline, -, houtline⟩ :=
        Outcome.exists_mem_of_forall₂ (Outcome.forall₂_of_mapM hread) hdocument
      rw [houtline] at hfault
      cases hfault
  | error error =>
      obtain ⟨other, hother, herror⟩ := Outcome.exists_of_mapM_eq_error hread
      refine ⟨other, hother, error, herror, ?_⟩
      rw [Graph.compile, hread]
      rfl

/-- A run either fails before anything is written, with the error of what failed, and leaves the
tree as it is, or it writes all contracts and nothing else, unless a file cannot be written.  One
document that cannot be loaded or read is enough to fail, and no namespace fails to be rendered.
File systems with links are left out: in a tree, places that differ never hold the same file. -/
theorem compile_all_or_nothing (config : Config) (tree : FileTree) :
    (∀ error, config.validate = .error error →
      tree.perform (compile config) = (.error (.config error), tree)) ∧
    (config.validate = .ok () →
      (∀ fault, tree.CannotLoad config.sourceDir config.files fault →
        ∃ error, tree.CannotLoad config.sourceDir config.files error ∧
          tree.perform (compile config) = (.error (.schema error), tree)) ∧
      ∀ documents, tree.load config.sourceDir config.files = .ok documents →
        (∀ document ∈ documents, ∀ fault, Outline.ofDocument document = .error fault →
          ∃ other ∈ documents, ∃ error, Outline.ofDocument other = .error error ∧
            tree.perform (compile config) = (.error (.schema error), tree)) ∧
        (∀ error, Graph.compile documents = .error error →
          tree.perform (compile config) = (.error (.schema error), tree)) ∧
        ∀ graph, Graph.compile documents = .ok graph → ∀ document ∈ documents,
          ∃ manifest, Contract.ofGraph? graph document.space = some manifest) ∧
    ∀ summaries after, tree.perform (compile config) = (.ok summaries, after) →
      ∃ documents graph out, Generates config tree after summaries documents graph out := by
  refine ⟨?_, fun hvalid => ⟨?_, fun documents hload => ⟨?_, ?_, ?_⟩⟩, fun _ _ => exists_generates⟩
  · intro error herror
    apply perform_compile_of_resolved_error
    rw [resolved, herror]
  · intro fault hfault
    obtain ⟨error, herror⟩ := exists_error_of_cannotLoad hfault
    exact ⟨error, cannotLoad_of_load herror,
      perform_compile_of_resolved_error (resolved_of_load_error hvalid herror)⟩
  · intro document hdocument fault hfault
    obtain ⟨other, hother, error, herror, hcompile⟩ :=
      compile_of_ofDocument_error hdocument hfault
    exact ⟨other, hother, error, herror,
      perform_compile_of_resolved_error (resolved_of_compile_error hvalid hload hcompile)⟩
  · intro error hcompile
    exact perform_compile_of_resolved_error (resolved_of_compile_error hvalid hload hcompile)
  · intro graph hcompile document hdocument
    have hspace := List.mem_map_of_mem (f := (·.space)) hdocument
    rw [← (names_of_compile hcompile).1] at hspace
    obtain ⟨space, hspace, hname⟩ := List.mem_map.mp hspace
    exact ⟨_, hname ▸ ofGraph?_of_compile hcompile hspace⟩

end FileTree

namespace Sample

open FileTree

/-- A directory `w` with some files, from which paths start. -/
def workbench (files : List (List String × String)) : FileTree :=
  files.foldl
    (fun tree (names, text) => tree.plant (placeOf ("w" :: names)) (.file (Text.utf8 text)))
    { FileTree.empty.plant (placeOf ["w"]) .directory with start := placeOf ["w"] }

/-- Two documents and a file that is none. -/
def press : FileTree :=
  workbench
    [(["packme", "b.json"], "\x7b\x7d"), (["packme", "a.json"], "\x7b\x7d"), (["note"], "b")]

def pressDocuments : List Document := [⟨"a", .object []⟩, ⟨"b", .object []⟩]

theorem load_press : press.load "packme" [] = .ok pressDocuments := by
  have hplace : press.locate "packme" = .ok (placeOf ["w", "packme"]) := by decide +kernel
  have hdirectory : press.node? (placeOf ["w", "packme"]) = some .directory := by decide +kernel
  have hnames : ∀ name ∈ ["a.json", "b.json"], press.IsLoaded "packme" [] name := by
    decide +kernel
  have hothers : ∀ inner ∈ press.childNames (placeOf ["w", "packme"]),
      ∀ name ∈ (Text.ofUtf8? inner.bytes).toList, name ∈ ["a.json", "b.json"] := by
    decide +kernel
  refine load_eq_ok_iff.mpr ⟨by decide +kernel, ?_, ?_, ⟨["a.json", "b.json"], ?_, ?_, ?_⟩, ?_⟩
  · simp [pressDocuments]
  · exact List.pairwise_pair.mpr (by decide)
  · decide
  · intro name
    refine ⟨hnames name, fun hname => ?_⟩
    obtain ⟨inner, hinner, htext, -⟩ := exists_entry_of_isLoaded hplace hdirectory hname
    exact hothers inner hinner name (by simp [htext])
  · exact .cons rfl (.cons rfl .nil)
  · simp

theorem resolved_press :
    press.resolved Config.standard = .ok (schemaOf 1 pressDocuments).graph :=
  resolved_eq_ok_iff.mpr ⟨rfl, _, load_press, compile_schemaOf 1 (by decide +kernel)⟩

/-- The press with a text that is no document. -/
def jam : FileTree := press.plant (placeOf ["w", "packme", "c.json"]) (.file (Text.utf8 "\x7b"))

def pressSummaries : List Summary :=
  [⟨"a", 0, 0, 0, 0, some "generated/a.contract.json"⟩,
    ⟨"b", 0, 0, 0, 0, some "generated/b.contract.json"⟩]

theorem perform_press :
    ∃ after, press.perform (compile Config.standard) = (.ok pressSummaries, after) := by
  refine ⟨(press.perform (compile Config.standard)).2, Prod.ext ?_ rfl⟩
  rw [perform_compile_of_resolved resolved_press]
  decide +kernel

/-- One contract for each document and the note as it was; with one text that is no document,
nothing. -/
theorem press_and_jam :
    (∃ after out, press.perform (compile Config.standard) = (.ok pressSummaries, after) ∧
      after.locate "generated" = .ok out ∧
      after.HasContracts "generated" out
        (contractText Config.standard (schemaOf 1 pressDocuments).graph)
        (schemaOf 1 pressDocuments).graph.namespaces ∧
      after.node? (placeOf ["w", "note"]) = some (.file (Text.utf8 "b"))) ∧
    ∃ error, jam.perform (compile Config.standard) = (.error (.schema error), jam) := by
  constructor
  · obtain ⟨after, hrun⟩ := perform_press
    obtain ⟨documents, graph, out, hgenerates⟩ :=
      (compile_all_or_nothing Config.standard press).2.2 _ _ hrun
    obtain rfl : pressDocuments = documents :=
      Except.ok.inj (load_press.symm.trans hgenerates.loaded)
    obtain rfl : (schemaOf 1 pressDocuments).graph = graph :=
      Except.ok.inj ((compile_schemaOf 1 (by decide +kernel)).symm.trans hgenerates.compiled)
    refine ⟨after, out, hrun, hgenerates.locate_out, hgenerates.contracts, ?_⟩
    have hnote : placeOf ["w", "note"] ∉ contractPlaces out ["a", "b"] := by
      intro hmem
      obtain ⟨space, hspace, name, hname, hplace⟩ := mem_contractPlaces.mp hmem
      have hlast : (placeOf ["w", "note"]).getLast?.map (·.bytes) = some (Text.utf8 "note") := by
        decide +kernel
      rw [hplace, List.getLast?_concat, Option.map_some, Option.some_inj,
        FileName.of?_eq_some_iff.mp hname, Text.utf8_inj] at hlast
      have hother : ∀ space ∈ ["a", "b"], contractName space ≠ "note" := by decide
      exact hother space hspace hlast
    rw [hgenerates.others.file _ hnote]
    decide +kernel
  · have hfault : jam.CannotLoad Config.standard.sourceDir Config.standard.files
        (.malformed "c") := .document "c.json" _ (by decide +kernel) rfl
    obtain ⟨error, -, hrun⟩ :=
      ((compile_all_or_nothing Config.standard jam).2.1 rfl).1 _ hfault
    exact ⟨error, hrun⟩

end Sample
end WireSchema
