import WireSchema.Proofs.Declarations
import WireSchema.Proofs.Sharing

/-!
# Which stage reports which fault

Documents are read first; then a batch is formed of them, links, lineages and fields are looked at,
and wire ids and kind tags are assigned.  Every stage has faults of its own, and so a fault tells
that all stages before it have passed.
-/

namespace WireSchema

/-- A part of loading and compiling that may find a fault. -/
inductive Stage where
  | files
  | reading
  | namespaces
  | links
  | lineages
  | fields
  | wireIds
  | kindTags
  deriving DecidableEq, Repr

namespace SchemaError

def stage : SchemaError → Stage
  | .directoryNotFound _ | .fileNotFound _ | .noDocuments _ | .unreadable _ | .malformed _ => .files
  | .notAMapping _ | .invalidDeclaration _ _ | .emptyName _ _ _ | .reservedName _ _ _ _
  | .duplicateType _ _ _ | .duplicateMember _ _ _ _ _ | .invalidFieldType _ _ _ _
  | .emptyReference _ _ _ _ | .payloadInheritance _ _ _ | .tooManyEnumValues _ _ _ => .reading
  | .duplicateNamespace _ => .namespaces
  | .unknownNamespace _ _ _ | .unresolvedReference _ _ _ _ _ => .links
  | .inheritanceCycle _ => .lineages
  | .inheritedFieldConflict _ _ _ _ => .fields
  | .idCollision _ _ _ => .wireIds
  | .kindTagCollision _ _ _ _ => .kindTags

theorem stage_eq_lineages_iff {fault : SchemaError} :
    fault.stage = .lineages ↔ ∃ chain, fault = .inheritanceCycle chain := by
  cases fault <;> simp [stage]

theorem stage_eq_fields_iff {fault : SchemaError} :
    fault.stage = .fields ↔
      ∃ space owner field ancestor, fault = .inheritedFieldConflict space owner field ancestor := by
  cases fault <;> simp [stage]

/-- What reading a single entry may find. -/
def isOfEntry : SchemaError → Bool
  | .invalidDeclaration _ _ | .emptyName _ _ _ | .reservedName _ _ _ _ | .duplicateMember _ _ _ _ _
  | .invalidFieldType _ _ _ _ | .emptyReference _ _ _ _ | .payloadInheritance _ _ _
  | .tooManyEnumValues _ _ _ => true
  | _ => false

theorem stage_of_isOfEntry {fault : SchemaError} (hentry : fault.isOfEntry = true) :
    fault.stage = .reading := by
  cases fault <;> first | rfl | cases hentry

end SchemaError

/-! ## Reading a document -/

namespace Outline

variable {fault : SchemaError}

theorem isOfEntry_of_checkName {space : String} {what : Subject} {key name : String}
    (hrun : checkName space what key name = .error fault) : fault.isOfEntry = true := by
  unfold checkName at hrun
  split at hrun
  · cases hrun
    rfl
  · split at hrun
    · cases hrun
      rfl
    · cases hrun

theorem isOfEntry_of_tokenShape {space owner key token : String}
    (hrun : tokenShape space owner key token = .error fault) : fault.isOfEntry = true := by
  unfold tokenShape at hrun
  extract_lets invalid at hrun
  split at hrun
  · cases hrun
  · split at hrun
    · cases hrun
    · split at hrun
      · extract_lets length at hrun
        split at hrun
        · cases hrun
        · rw [← Except.error.inj hrun]
          rfl
      · split at hrun
        · extract_lets target at hrun
          split at hrun
          · cases hrun
            rfl
          · cases hrun
        · rw [← Except.error.inj hrun]
          rfl

theorem isOfEntry_of_rejectInheritance {space : String} {what : Subject} {key tag : String}
    (hrun : rejectInheritance space what key tag = .error fault) : fault.isOfEntry = true := by
  unfold rejectInheritance at hrun
  split at hrun
  · cases hrun
    rfl
  · cases hrun

namespace Outlining

variable {α β : Type}

/-- Whatever an action refuses is a fault of an entry. -/
def Reads (action : Outlining α) : Prop :=
  ∀ objects fault, action objects = .error fault → fault.isOfEntry = true

theorem reads_pure (value : α) : Reads (pure value) := by
  intro objects fault hrun
  cases hrun

theorem reads_throw (hentry : fault.isOfEntry = true) : Reads (throw fault : Outlining α) := by
  intro objects other hrun
  cases hrun
  exact hentry

theorem reads_throw_bind {next : α → Outlining β} (hentry : fault.isOfEntry = true) :
    Reads (throw fault >>= next) := by
  intro objects other hrun
  cases hrun
  exact hentry

theorem reads_check {check : Except SchemaError α}
    (hcheck : ∀ fault, check = .error fault → fault.isOfEntry = true) :
    Reads (liftM check : Outlining α) := by
  intro objects fault hrun
  cases check with
  | error other =>
      cases hrun
      exact hcheck _ rfl
  | ok value => cases hrun

theorem Reads.bind {action : Outlining α} {next : α → Outlining β} (hfirst : Reads action)
    (hsecond : ∀ value, Reads (next value)) : Reads (action >>= next) := by
  intro objects fault hrun
  rcases Outcome.bind_eq_error_iff.mp hrun with hrun | ⟨⟨value, middle⟩, -, hrun⟩
  · exact hfirst objects fault hrun
  · exact hsecond value middle fault hrun

theorem reads_addObject (object : Declaration.Object) : Reads (addObject object) := by
  intro objects fault hrun
  cases hrun

end Outlining

open Outlining

theorem reads_checkName (space : String) (what : Subject) (key name : String) :
    Reads (liftM (checkName space what key name)) :=
  reads_check fun _ => isOfEntry_of_checkName

mutual

theorem reads_readShape (space owner key : String) (inArray : Bool) (value : Json) :
    Reads (readShape space owner key inArray value) := by
  match value with
  | .string token =>
      rw [readShape]
      exact reads_check fun _ => isOfEntry_of_tokenShape
  | .array [item] =>
      rw [readShape]
      exact (reads_readShape space owner key true item).bind fun _ => reads_pure _
  | .object members =>
      rw [readShape]
      refine (reads_checkName _ _ _ _).bind fun name => ?_
      refine (reads_readFields space _ [] members).bind fun fields => ?_
      exact (reads_addObject _).bind fun _ => reads_pure _
  | .null => exact reads_throw rfl
  | .bool _ => exact reads_throw rfl
  | .number _ => exact reads_throw rfl
  | .array [] => exact reads_throw rfl
  | .array (_ :: _ :: _) => exact reads_throw rfl

theorem reads_readFields (space owner : String) (sofar : List Declaration.Field)
    (members : List (String × Json)) : Reads (readFields space owner sofar members) := by
  match members with
  | [] =>
      rw [readFields]
      exact reads_pure _
  | (key, value) :: rest =>
      rw [readFields]
      refine (reads_checkName _ _ _ _).bind fun name => ?_
      dsimp only
      split
      · exact reads_throw_bind rfl
      · exact (reads_readShape space owner key false value).bind fun shape =>
          reads_readFields space owner _ rest

end

theorem reads_declareObject (space tag name : String) (role : Role) (parent : Option Link)
    (wireName : Option String) (response : Option Nat) (body : List (String × Json)) :
    Reads (declareObject space tag name role parent wireName response body) := by
  unfold declareObject
  exact (reads_readFields space tag [] body).bind fun fields => reads_addObject _

theorem reads_rejectInheritance (space : String) (what : Subject) (key tag : String) :
    Reads (liftM (rejectInheritance space what key tag)) :=
  reads_check fun _ => isOfEntry_of_rejectInheritance

theorem reads_declareTopLevel (space key : String) (body : List (String × Json)) :
    Reads (declareTopLevel space key body) := by
  unfold declareTopLevel
  split
  exact (reads_checkName _ _ _ _).bind fun name =>
    (reads_declareObject _ _ _ _ _ _ _ _).bind fun _ => reads_pure _

theorem reads_declareMessage (space key : String) (body : List (String × Json)) :
    Reads (declareMessage space key body) := by
  unfold declareMessage
  refine (reads_checkName _ _ _ _).bind fun wireName => ?_
  refine (reads_rejectInheritance _ _ _ _).bind fun _ => ?_
  refine (reads_checkName _ _ _ _).bind fun name => ?_
  exact (reads_declareObject _ _ _ _ _ _ _ _).bind fun _ => reads_pure _

theorem reads_declareRequest (space key : String) (request response : List (String × Json)) :
    Reads (declareRequest space key request response) := by
  unfold declareRequest
  refine (reads_checkName _ _ _ _).bind fun requestWire => ?_
  refine (reads_checkName _ _ _ _).bind fun responseWire => ?_
  refine (reads_rejectInheritance _ _ _ _).bind fun _ => ?_
  refine (reads_rejectInheritance _ _ _ _).bind fun _ => ?_
  refine (reads_checkName _ _ _ _).bind fun responseName => ?_
  refine (reads_declareObject _ _ _ _ _ _ _ _).bind fun index => ?_
  refine (reads_checkName _ _ _ _).bind fun requestName => ?_
  exact (reads_declareObject _ _ _ _ _ _ _ _).bind fun _ => reads_pure _

theorem isOfEntry_of_readValues {space owner : String} {sofar rows : List String}
    (hrun : readValues space owner sofar rows = .error fault) : fault.isOfEntry = true := by
  induction rows generalizing sofar with
  | nil => cases hrun
  | cons row rest ih =>
      rw [readValues] at hrun
      rcases Outcome.bind_eq_error_iff.mp hrun with hname | ⟨value, -, hrun⟩
      · exact isOfEntry_of_checkName hname
      · dsimp only at hrun
        split at hrun
        · cases hrun
          rfl
        · exact ih hrun

theorem isOfEntry_of_readEnum {space key : String} {rows : List String}
    (hrun : readEnum space key rows = .error fault) : fault.isOfEntry = true := by
  unfold readEnum at hrun
  rcases Outcome.bind_eq_error_iff.mp hrun with hname | ⟨name, -, hrun⟩
  · exact isOfEntry_of_checkName hname
  · split at hrun
    · cases hrun
      rfl
    · rcases Outcome.bind_eq_error_iff.mp hrun with hvalues | ⟨values, -, hrun⟩
      · exact isOfEntry_of_readValues hvalues
      · cases hrun

theorem isOfEntry_of_readEntry {outline : Outline} {key : String} {value : Json}
    (hrun : readEntry outline key value = .error fault) : fault.isOfEntry = true := by
  have hdeclare : ∀ action : Outlining Unit, Reads action →
      (action.run outline.objects).map (fun taken => { outline with objects := taken.2 }) =
        .error fault → fault.isOfEntry = true :=
    fun action haction hfault => haction _ _ (Outcome.map_eq_error hfault)
  unfold readEntry at hrun
  dsimp only at hrun
  split at hrun
  · cases hrun
    rfl
  · split at hrun
    · exact hdeclare _ (reads_declareTopLevel _ _ _) hrun
    · exact hdeclare _ (reads_declareMessage _ _ _) hrun
    · exact hdeclare _ (reads_declareRequest _ _ _ _) hrun
    · split at hrun
      · exact isOfEntry_of_readEnum (Outcome.map_eq_error hrun)
      · cases hrun
        rfl
    · cases hrun
      rfl

theorem isOfEntry_of_readEntries {outline : Outline} {entries : List (String × Json)}
    (hrun : readEntries outline entries = .error fault) : fault.isOfEntry = true := by
  induction entries generalizing outline with
  | nil => cases hrun
  | cons entry rest ih =>
      rcases entry with ⟨key, value⟩
      rw [readEntries] at hrun
      rcases Outcome.bind_eq_error_iff.mp hrun with hentry | ⟨middle, -, hrun⟩
      · exact isOfEntry_of_readEntry hentry
      · exact ih hrun

theorem stage_of_ofDocument {document : Document} (hrun : ofDocument document = .error fault) :
    fault.stage = .reading := by
  unfold ofDocument at hrun
  split at hrun
  · rcases Outcome.bind_eq_error_iff.mp hrun with hentries | ⟨outline, -, hrun⟩
    · exact SchemaError.stage_of_isOfEntry (isOfEntry_of_readEntries hentries)
    · split at hrun
      · cases hrun
        rfl
      · cases hrun
  · cases hrun
    rfl

end Outline

/-! ## The passes over a batch -/

namespace Batch

variable {batch : Batch} {fault : SchemaError}

theorem stage_of_ofOutlines {outlines : List Outline} (hrun : ofOutlines outlines = .error fault) :
    fault.stage = .namespaces := by
  unfold ofOutlines at hrun
  split at hrun
  · cases hrun
    rfl
  · cases hrun

theorem stage_of_targetOutline {placed : PlacedObject} {link : Link}
    (hrun : batch.targetOutline placed link = .error fault) : fault.stage = .links := by
  unfold targetOutline at hrun
  split at hrun
  · cases hrun
  · cases hrun
    rfl

theorem stage_of_parentOf {placed : PlacedObject} (hrun : batch.parentOf placed = .error fault) :
    fault.stage = .links := by
  unfold parentOf at hrun
  split at hrun
  · cases hrun
  · rcases Outcome.bind_eq_error_iff.mp hrun with htarget | ⟨target, -, hrun⟩
    · exact stage_of_targetOutline htarget
    · split at hrun
      · cases hrun
      · cases hrun
        rfl

theorem stage_of_lineageOf {parents : List (Option Nat)} {start : Nat}
    (hrun : batch.lineageOf parents start = .error fault) : fault.stage = .lineages := by
  unfold lineageOf at hrun
  split at hrun
  · cases hrun
  · cases hrun
    rfl

theorem stage_of_resolveShape {placed : PlacedObject} {shape : Declaration.Shape}
    (hrun : batch.resolveShape placed shape = .error fault) : fault.stage = .links := by
  induction shape with
  | primitive kind => cases hrun
  | text => cases hrun
  | binary length => cases hrun
  | embedded index => cases hrun
  | array element ih =>
      rw [resolveShape] at hrun
      exact ih (Outcome.map_eq_error hrun)
  | link link =>
      rw [resolveShape] at hrun
      rcases Outcome.bind_eq_error_iff.mp hrun with htarget | ⟨target, -, hrun⟩
      · exact stage_of_targetOutline htarget
      · split at hrun
        · cases hrun
        · cases hrun
        · cases hrun
          rfl

theorem stage_of_ownFields {placed : PlacedObject} {index : Nat}
    (hrun : batch.ownFields placed index = .error fault) : fault.stage = .links := by
  rcases Outcome.exists_of_mapM_eq_error hrun with ⟨field, -, hfield⟩
  exact stage_of_resolveShape (Outcome.map_eq_error hfield)

theorem stage_of_extendFields {index : Nat} {inherited fields : List Field}
    (hrun : batch.extendFields index inherited fields = .error fault) : fault.stage = .fields := by
  induction fields generalizing inherited with
  | nil => cases hrun
  | cons field rest ih =>
      rw [extendFields] at hrun
      split at hrun
      · cases hrun
        rfl
      · exact ih hrun

theorem stage_of_lineageFields {own : List (List Field)} {inherited : List Field}
    {lineage : List Nat} (hrun : batch.lineageFields own inherited lineage = .error fault) :
    fault.stage = .fields := by
  induction lineage generalizing inherited with
  | nil => cases hrun
  | cons index rest ih =>
      rw [lineageFields] at hrun
      rcases Outcome.bind_eq_error_iff.mp hrun with hextend | ⟨fields, -, hrun⟩
      · exact stage_of_extendFields hextend
      · exact ih hrun

theorem stage_of_flatten {own : List (List Field)} {lineage : List Nat}
    (hrun : batch.flatten own lineage = .error fault) : fault.stage = .fields := by
  unfold flatten at hrun
  rcases Outcome.bind_eq_error_iff.mp hrun with hinherited | ⟨inherited, -, hrun⟩
  · exact stage_of_lineageFields hinherited
  · rcases Outcome.bind_eq_error_iff.mp hrun with hfields | ⟨fields, -, hrun⟩
    · exact stage_of_lineageFields hfields
    · cases hrun

theorem stage_of_assign {ids : WireIds} {space typeName label : String}
    (hrun : ids.assign space typeName label = .error fault) : fault.stage = .wireIds := by
  unfold WireIds.assign at hrun
  dsimp only at hrun
  split at hrun
  · cases hrun
    rfl
  · cases hrun

theorem stage_of_assignIds {ids : WireIds} {objects : List PlacedObject}
    (hrun : assignIds ids objects = .error fault) : fault.stage = .wireIds := by
  induction objects generalizing ids with
  | nil => cases hrun
  | cons placed rest ih =>
      rw [assignIds] at hrun
      split at hrun
      · exact ih (Outcome.map_eq_error hrun)
      · rcases Outcome.bind_eq_error_iff.mp hrun with hassign | ⟨⟨id, grown⟩, -, hrun⟩
        · exact stage_of_assign hassign
        · rcases Outcome.bind_eq_error_iff.mp hrun with hrest | ⟨more, -, hrun⟩
          · exact ih hrest
          · cases hrun

theorem stage_of_buildTables {tables : List DispatchTable}
    {entries : List (PlacedObject × Nat × List Nat)}
    (hrun : batch.buildTables tables entries = .error fault) : fault.stage = .kindTags := by
  induction entries generalizing tables with
  | nil => cases hrun
  | cons entry rest ih =>
      rcases entry with ⟨placed, index, lineage⟩
      rw [buildTables.eq_def] at hrun
      dsimp only at hrun
      split at hrun
      · split at hrun
        · exact ih hrun
        · cases hrun
          rfl
      · exact ih hrun

theorem stage_of_mapM {α β : Type} {f : α → Except SchemaError β} {stage : Stage}
    (hf : ∀ item fault, f item = .error fault → fault.stage = stage) {items : List α}
    (hrun : items.mapM f = .error fault) : fault.stage = stage := by
  rcases Outcome.exists_of_mapM_eq_error hrun with ⟨item, -, hitem⟩
  exact hf item fault hitem

/-- A pass of a stage reports a fault, after those before it have found none. -/
inductive FailsAt (batch : Batch) (fault : SchemaError) : Stage → Prop
  | parents (hrun : batch.objects.mapM batch.parentOf = .error fault) : FailsAt batch fault .links
  | lineages {parents : List (Option Nat)}
    (hparents : batch.objects.mapM batch.parentOf = .ok parents)
    (hrun : (List.range batch.objects.length).mapM (batch.lineageOf parents) = .error fault) :
    FailsAt batch fault .lineages
  | own (hrun : batch.objects.zipIdx.mapM
      (fun (placed, index) => batch.ownFields placed index) = .error fault) :
    FailsAt batch fault .links
  | fields {parents : List (Option Nat)} {lineages : List (List Nat)} {own : List (List Field)}
    (hparents : batch.objects.mapM batch.parentOf = .ok parents)
    (hlineages : (List.range batch.objects.length).mapM (batch.lineageOf parents) = .ok lineages)
    (hown : batch.objects.zipIdx.mapM
      (fun (placed, index) => batch.ownFields placed index) = .ok own)
    (hrun : lineages.mapM (batch.flatten own) = .error fault) :
    FailsAt batch fault .fields
  | wireIds (hrun : assignIds .empty batch.objects = .error fault) :
    FailsAt batch fault .wireIds
  | tables {entries : List (PlacedObject × Nat × List Nat)}
    (hrun : batch.buildTables [] entries = .error fault) :
    FailsAt batch fault .kindTags

theorem FailsAt.stage_eq {stage : Stage} (hfails : batch.FailsAt fault stage) :
    fault.stage = stage := by
  cases hfails with
  | parents hrun => exact stage_of_mapM (fun _ _ => stage_of_parentOf) hrun
  | lineages _ hrun => exact stage_of_mapM (fun _ _ => stage_of_lineageOf) hrun
  | own hrun => exact stage_of_mapM (fun _ _ => stage_of_ownFields) hrun
  | fields _ _ _ hrun => exact stage_of_mapM (fun _ _ => stage_of_flatten) hrun
  | wireIds hrun => exact stage_of_assignIds hrun
  | tables hrun => exact stage_of_buildTables hrun

theorem exists_failsAt (hrun : batch.examine = .error fault) : ∃ stage, batch.FailsAt fault stage := by
  rw [examine_eq] at hrun
  rcases Outcome.bind_eq_error_iff.mp hrun with hrun | ⟨parents, hparents, hrun⟩
  · exact ⟨_, .parents hrun⟩
  rcases Outcome.bind_eq_error_iff.mp hrun with hrun | ⟨lineages, hlineages, hrun⟩
  · exact ⟨_, .lineages hparents hrun⟩
  rcases Outcome.bind_eq_error_iff.mp hrun with hrun | ⟨own, hown, hrun⟩
  · exact ⟨_, .own hrun⟩
  rcases Outcome.bind_eq_error_iff.mp hrun with hrun | ⟨fields, -, hrun⟩
  · exact ⟨_, .fields hparents hlineages hown hrun⟩
  rcases Outcome.bind_eq_error_iff.mp hrun with hrun | ⟨wireIds, -, hrun⟩
  · exact ⟨_, .wireIds hrun⟩
  rcases Outcome.bind_eq_error_iff.mp hrun with hrun | ⟨tables, -, hrun⟩
  · exact ⟨_, .tables hrun⟩
  cases hrun

theorem failsAt_of_examine (hrun : batch.examine = .error fault) :
    batch.FailsAt fault fault.stage := by
  rcases exists_failsAt hrun with ⟨stage, hfails⟩
  rw [hfails.stage_eq]
  exact hfails

theorem examine_eq_error_lineages_iff (hstage : fault.stage = .lineages) :
    batch.examine = .error fault ↔
      ∃ parents, batch.objects.mapM batch.parentOf = .ok parents ∧
        (List.range batch.objects.length).mapM (batch.lineageOf parents) = .error fault := by
  constructor
  · intro hrun
    have hfails := failsAt_of_examine hrun
    rw [hstage] at hfails
    cases hfails with
    | lineages hparents hrun => exact ⟨_, hparents, hrun⟩
  · rintro ⟨parents, hparents, hrun⟩
    simp only [examine_eq, hparents, hrun, bind, Except.bind]

theorem examine_eq_error_fields_iff (hstage : fault.stage = .fields) :
    batch.examine = .error fault ↔
      ∃ parents, batch.objects.mapM batch.parentOf = .ok parents ∧
        ∃ lineages,
          (List.range batch.objects.length).mapM (batch.lineageOf parents) = .ok lineages ∧
            ∃ own, batch.objects.zipIdx.mapM
                (fun (placed, index) => batch.ownFields placed index) = .ok own ∧
              lineages.mapM (batch.flatten own) = .error fault := by
  constructor
  · intro hrun
    have hfails := failsAt_of_examine hrun
    rw [hstage] at hfails
    cases hfails with
    | fields hparents hlineages hown hrun =>
        exact ⟨_, hparents, _, hlineages, _, hown, hrun⟩
  · rintro ⟨parents, hparents, lineages, hlineages, own, hown, hrun⟩
    simp only [examine_eq, hparents, hlineages, hown, hrun, bind, Except.bind]

end Batch

theorem Graph.compile_eq_error_iff_examine {documents : List Document} {outlines : List Outline}
    {batch : Batch} {fault : SchemaError}
    (hread : documents.mapM Outline.ofDocument = .ok outlines)
    (hbatch : Batch.ofOutlines outlines = .ok batch) :
    compile documents = .error fault ↔ batch.examine = .error fault := by
  have hresolve : compile documents = resolve outlines := by
    rw [compile, hread]
    rfl
  rw [hresolve, resolve, hbatch]
  cases hrun : batch.examine with
  | ok found => simp [hrun, bind, Except.bind, pure, Except.pure]
  | error other => simp [hrun, bind, Except.bind]

/-- A fault of a pass shows that the documents were read one by one and form a batch. -/
theorem Graph.compile_eq_error_iff {documents : List Document} {fault : SchemaError}
    (hreading : fault.stage ≠ .reading) (hnamespaces : fault.stage ≠ .namespaces) :
    compile documents = .error fault ↔
      ∃ outlines, documents.mapM Outline.ofDocument = .ok outlines ∧
        ∃ batch, Batch.ofOutlines outlines = .ok batch ∧ batch.examine = .error fault := by
  unfold compile
  rw [Outcome.bind_eq_error_iff]
  constructor
  · rintro (hrun | ⟨outlines, hread, hrun⟩)
    · exact absurd (Batch.stage_of_mapM (fun _ _ => Outline.stage_of_ofDocument) hrun) hreading
    · refine ⟨outlines, hread, ?_⟩
      unfold resolve at hrun
      rcases Outcome.bind_eq_error_iff.mp hrun with hrun | ⟨batch, hbatch, hrun⟩
      · exact absurd (Batch.stage_of_ofOutlines hrun) hnamespaces
      · rcases Outcome.bind_eq_error_iff.mp hrun with hrun | ⟨found, -, hrun⟩
        · exact ⟨batch, hbatch, hrun⟩
        · cases hrun
  · rintro ⟨outlines, hread, batch, hbatch, hrun⟩
    exact Outcome.bind_eq_error_iff.mp ((compile_eq_error_iff_examine hread hbatch).mpr hrun)

end WireSchema
