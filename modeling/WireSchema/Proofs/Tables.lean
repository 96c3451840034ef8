import WireSchema.Proofs.Outcomes
import WireSchema.Schema.Resolve

/-!
# Dispatch tables

Building the tables puts every object that has an ancestor into the table of its root, under its
kind tag.  The tables stay in the order of their roots, so that no root has two of them.
-/

namespace WireSchema

namespace TagMap

variable {α : Type}

theorem mem_entries_iff {map : TagMap α} {tag : UInt32} {value : α} :
    (tag, value) ∈ map.entries ↔ map.find? tag = some value := by
  rcases map with ⟨entries, hascending⟩
  rw [find?]
  induction entries with
  | nil => simp [lookup]
  | cons entry rest ih =>
      rcases entry with ⟨first, held⟩
      rcases List.pairwise_cons.mp hascending with ⟨hfirst, hrest⟩
      rw [lookup, List.mem_cons, Prod.mk.injEq, ih hrest]
      by_cases hsame : first = tag
      · subst hsame
        rw [if_pos rfl, Option.some.injEq]
        constructor
        · rintro (⟨-, hvalue⟩ | hlater)
          · exact hvalue.symm
          · have hless := hfirst _ ((ih hrest).mpr hlater)
            exact absurd hless (UInt32.lt_irrefl _)
        · exact fun hvalue => .inl ⟨rfl, hvalue.symm⟩
      · rw [if_neg hsame]
        constructor
        · rintro (⟨htag, -⟩ | hlater)
          · exact absurd htag.symm hsame
          · exact hlater
        · exact .inr

end TagMap

theorem ObjectId.eq_of_index {first second : ObjectId} (hindex : first.index = second.index) :
    first = second :=
  congrArg ObjectId.mk hindex

namespace DispatchTable

theorem insert_eq_ok {table extended : DispatchTable} {tag : UInt32} {id : ObjectId}
    (hinsert : table.insert tag id = .ok extended) :
    table.members.find? tag = none ∧
      extended = { table with members := table.members.insert tag id } := by
  unfold insert at hinsert
  split at hinsert
  next => cases hinsert
  next hfree =>
    cases hinsert
    exact ⟨hfree, rfl⟩

theorem root_of_insert {table extended : DispatchTable} {tag : UInt32} {id : ObjectId}
    (hinsert : table.insert tag id = .ok extended) : extended.root = table.root := by
  obtain ⟨-, rfl⟩ := insert_eq_ok hinsert
  rfl

end DispatchTable

namespace Batch

/-- The first of the tables that belongs to a root. -/
def tableOf? (tables : List DispatchTable) (root : ObjectId) : Option DispatchTable :=
  tables.find? (·.root == root)

theorem tableOf?_cons (table : DispatchTable) (rest : List DispatchTable) (root : ObjectId) :
    tableOf? (table :: rest) root =
      if table.root = root then some table else tableOf? rest root := by
  rw [tableOf?, List.find?_cons]
  by_cases hroot : table.root = root
  · rw [if_pos hroot, hroot, beq_self_eq_true]
  · rw [if_neg hroot, beq_eq_false_iff_ne.mpr hroot]
    rfl

/-- The tables are in the order of their roots. -/
def InOrder (tables : List DispatchTable) : Prop :=
  tables.Pairwise fun first second => first.root.index < second.root.index

theorem tableOf?_eq_none {tables : List DispatchTable} {root : ObjectId}
    (habove : ∀ table ∈ tables, root.index < table.root.index) : tableOf? tables root = none := by
  rw [tableOf?, List.find?_eq_none]
  intro table htable hroot
  have hless := habove table htable
  rw [eq_of_beq hroot] at hless
  exact Nat.lt_irrefl _ hless

/-- What adding a member does to the tables. -/
structure Added (root : ObjectId) (tag : UInt32) (id : ObjectId)
    (before after : List DispatchTable) : Prop where
  roots : ∀ table ∈ after, table.root = root ∨ ∃ old ∈ before, old.root = table.root
  inOrder : InOrder after
  extended : ∃ table, ((tableOf? before root).getD (.ofRoot root)).insert tag id = .ok table ∧
    tableOf? after root = some table
  unchanged : ∀ other, other ≠ root → tableOf? after other = tableOf? before other

variable {root : ObjectId} {tag : UInt32} {id : ObjectId} {table changed : DispatchTable}
  {before rest after : List DispatchTable}

/-- The first table is that of the root. -/
theorem added_at_head (horder : InOrder (table :: rest)) (hroot : table.root = root)
    (hinsert : table.insert tag id = .ok changed) :
    Added root tag id (table :: rest) (changed :: rest) := by
  obtain ⟨hhead, htail⟩ := List.pairwise_cons.mp horder
  have hkept : changed.root = table.root := DispatchTable.root_of_insert hinsert
  refine ⟨?_, ?_, ⟨changed, ?_, ?_⟩, ?_⟩
  · intro other hother
    rcases List.mem_cons.mp hother with rfl | hother
    · exact .inl (hkept.trans hroot)
    · exact .inr ⟨other, List.mem_cons_of_mem _ hother, rfl⟩
  · refine List.pairwise_cons.mpr ⟨?_, htail⟩
    rw [hkept]
    exact hhead
  · rw [tableOf?_cons, if_pos hroot]
    exact hinsert
  · rw [tableOf?_cons, if_pos (hkept.trans hroot)]
  · intro other hother
    rw [tableOf?_cons, tableOf?_cons, hkept, hroot, if_neg hother.symm, if_neg hother.symm]

/-- All tables stand behind that of the root, which is not there yet. -/
theorem added_in_front (horder : InOrder before)
    (habove : ∀ other ∈ before, root.index < other.root.index)
    (hinsert : (DispatchTable.ofRoot root).insert tag id = .ok changed) :
    Added root tag id before (changed :: before) := by
  have hroot : changed.root = root := DispatchTable.root_of_insert hinsert
  refine ⟨?_, ?_, ⟨changed, ?_, ?_⟩, ?_⟩
  · intro other hother
    rcases List.mem_cons.mp hother with rfl | hother
    · exact .inl hroot
    · exact .inr ⟨other, hother, rfl⟩
  · refine List.pairwise_cons.mpr ⟨?_, horder⟩
    rw [hroot]
    exact habove
  · rw [tableOf?_eq_none habove]
    exact hinsert
  · rw [tableOf?_cons, if_pos hroot]
  · intro other hother
    rw [tableOf?_cons, hroot, if_neg hother.symm]

/-- The first table stands before that of the root. -/
theorem Added.behind (hadded : Added root tag id rest after) (hless : table.root.index < root.index)
    (hhead : ∀ other ∈ rest, table.root.index < other.root.index) :
    Added root tag id (table :: rest) (table :: after) := by
  have hroot : table.root ≠ root := by
    intro hsame
    rw [hsame] at hless
    exact Nat.lt_irrefl _ hless
  obtain ⟨extended, hextended, hfound⟩ := hadded.extended
  refine ⟨?_, ?_, ⟨extended, ?_, ?_⟩, ?_⟩
  · intro other hother
    rcases List.mem_cons.mp hother with rfl | hother
    · exact .inr ⟨other, List.mem_cons_self, rfl⟩
    · rcases hadded.roots other hother with hsame | ⟨old, hold, hsame⟩
      · exact .inl hsame
      · exact .inr ⟨old, List.mem_cons_of_mem _ hold, hsame⟩
  · refine List.pairwise_cons.mpr ⟨?_, hadded.inOrder⟩
    intro other hother
    rcases hadded.roots other hother with hsame | ⟨old, hold, hsame⟩
    · rw [hsame]
      exact hless
    · rw [← hsame]
      exact hhead old hold
  · rw [tableOf?_cons, if_neg hroot]
    exact hextended
  · rw [tableOf?_cons, if_neg hroot]
    exact hfound
  · intro other hother
    rw [tableOf?_cons, tableOf?_cons, hadded.unchanged other hother]

theorem added_of_addMember (horder : InOrder before)
    (hadd : addMember root tag id before = .ok after) : Added root tag id before after := by
  induction before generalizing after with
  | nil =>
      obtain ⟨made, hmade, rfl⟩ := Outcome.map_eq_ok hadd
      exact added_in_front horder (by simp) hmade
  | cons table rest ih =>
      obtain ⟨hhead, htail⟩ := List.pairwise_cons.mp horder
      rw [addMember] at hadd
      split at hadd
      next hroot =>
        obtain ⟨extended, hextended, rfl⟩ := Outcome.map_eq_ok hadd
        exact added_at_head horder hroot hextended
      next hroot =>
        split at hadd
        next hless =>
          obtain ⟨made, hmade, rfl⟩ := Outcome.map_eq_ok hadd
          refine added_in_front horder (List.forall_mem_cons.mpr ⟨hless, ?_⟩) hmade
          exact fun other hother => Nat.lt_trans hless (hhead other hother)
        next hnotLess =>
          obtain ⟨later, hlater, rfl⟩ := Outcome.map_eq_ok hadd
          have hne : table.root.index ≠ root.index := fun hsame =>
            hroot (ObjectId.eq_of_index hsame)
          exact (ih htail hlater).behind (by omega) hhead

/-! ## Holders of tags -/

/-- The object that has a tag in the table of a root.  A table that is missing is as good as one
with nothing but the root. -/
def holder? (tables : List DispatchTable) (root : ObjectId) (tag : UInt32) : Option ObjectId :=
  ((tableOf? tables root).getD (.ofRoot root)).members.find? tag

theorem holder?_of_tableOf? {tables : List DispatchTable} (tag : UInt32)
    (htable : tableOf? tables root = some table) :
    holder? tables root tag = table.members.find? tag := by
  rw [holder?, htable, Option.getD_some]

theorem holder?_nil (root : ObjectId) (tag : UInt32) :
    holder? [] root tag = if tag = DispatchTable.rootTag then some root else none := by
  change (TagMap.empty.insert DispatchTable.rootTag root).find? tag = _
  by_cases hroot : tag = DispatchTable.rootTag
  · rw [hroot, TagMap.find?_insert_self, if_pos rfl]
  · rw [TagMap.find?_insert_of_ne _ _ hroot, if_neg hroot]
    rfl

/-- Adding a member gives it its tag and leaves all other tags as they are. -/
theorem Added.holder?_eq (hadded : Added root tag id before after) (other : ObjectId)
    (mark : UInt32) :
    holder? after other mark =
      if other = root ∧ mark = tag then some id else holder? before other mark := by
  by_cases hother : other = root
  · subst hother
    rcases hadded.extended with ⟨extended, hextended, hfound⟩
    rcases DispatchTable.insert_eq_ok hextended with ⟨-, rfl⟩
    rw [holder?_of_tableOf? mark hfound]
    by_cases hmark : mark = tag
    · rw [hmark, if_pos ⟨rfl, rfl⟩]
      exact TagMap.find?_insert_self _ tag id
    · rw [if_neg (fun hboth => hmark hboth.2)]
      exact TagMap.find?_insert_of_ne _ id hmark
  · rw [if_neg (fun hboth => hother hboth.1), holder?, holder?, hadded.unchanged other hother]

theorem Added.isSome_tableOf? (hadded : Added root tag id before after) (other : ObjectId) :
    (tableOf? after other).isSome = true ↔
      other = root ∨ (tableOf? before other).isSome = true := by
  by_cases hother : other = root
  · subst hother
    rcases hadded.extended with ⟨extended, -, hfound⟩
    simp [hfound]
  · simp [hadded.unchanged other hother, hother]

theorem exists_insert_iff :
    (∃ extended, table.insert tag id = .ok extended) ↔ table.members.find? tag = none := by
  constructor
  · rintro ⟨extended, hinsert⟩
    exact (DispatchTable.insert_eq_ok hinsert).1
  · intro hfree
    refine ⟨{ table with members := table.members.insert tag id }, ?_⟩
    rw [DispatchTable.insert, hfree]

/-- A member is added exactly if its tag is free. -/
theorem exists_addMember_iff (horder : InOrder before) :
    (∃ after, addMember root tag id before = .ok after) ↔ holder? before root tag = none := by
  induction before with
  | nil =>
      rw [addMember, Outcome.exists_map_iff, exists_insert_iff]
      rfl
  | cons table rest ih =>
      rcases List.pairwise_cons.mp horder with ⟨hhead, htail⟩
      rw [addMember]
      by_cases hroot : table.root = root
      · have htable : tableOf? (table :: rest) root = some table := by
          rw [tableOf?_cons, if_pos hroot]
        rw [if_pos hroot, Outcome.exists_map_iff, exists_insert_iff, holder?_of_tableOf? tag htable]
      · rw [if_neg hroot]
        by_cases hless : root.index < table.root.index
        · have hnone : tableOf? (table :: rest) root = none := by
            apply tableOf?_eq_none
            intro other hother
            rcases List.mem_cons.mp hother with rfl | hother
            · exact hless
            · exact Nat.lt_trans hless (hhead other hother)
          rw [if_pos hless, Outcome.exists_map_iff, exists_insert_iff, holder?, hnone]
          rfl
        · rw [if_neg hless, Outcome.exists_map_iff, ih htail, holder?, holder?, tableOf?_cons,
            if_neg hroot]

/-! ## Building the tables -/

/-- An object with its number and its lineage. -/
abbrev Entry := PlacedObject × Nat × List Nat

/-- The root and the tag under which an object becomes a member of a table, if it has an
ancestor. -/
def claim? : Entry → Option (ObjectId × UInt32)
  | (placed, _, root :: _ :: _) => some (⟨root⟩, Naming.wireHash placed.object.name)
  | _ => none

theorem claim?_eq_some_iff {entry : Entry} {root : ObjectId} {tag : UInt32} :
    claim? entry = some (root, tag) ↔
      Naming.wireHash entry.1.object.name = tag ∧
        ∃ next more, entry.2.2 = root.index :: next :: more := by
  rcases entry with ⟨placed, index, lineage⟩
  rcases root with ⟨root⟩
  rcases lineage with - | ⟨first, - | ⟨next, more⟩⟩
  · simp [claim?]
  · simp [claim?]
  · simp [claim?, and_comm]

/-- What the tables hold once some entries have been gone through: the root of each table under
tag zero, the members under theirs, and nothing else. -/
structure Tabulated (done : List Entry) (tables : List DispatchTable) : Prop where
  inOrder : InOrder tables
  holder?_iff : ∀ root tag id, holder? tables root tag = some id ↔
    (tag = DispatchTable.rootTag ∧ id = root) ∨
      ∃ entry ∈ done, claim? entry = some (root, tag) ∧ entry.2.1 = id.index
  isSome_tableOf? : ∀ root, (tableOf? tables root).isSome = true ↔
    ∃ entry ∈ done, ∃ tag, claim? entry = some (root, tag)

theorem tabulated_nil : Tabulated [] [] where
  inOrder := List.Pairwise.nil
  holder?_iff root tag id := by
    rw [holder?_nil]
    by_cases htag : tag = DispatchTable.rootTag
    · simp [htag, eq_comm]
    · simp [htag]
  isSome_tableOf? root := by simp [tableOf?]

/-- An object without an ancestor needs no table. -/
theorem Tabulated.skip {done : List Entry} {tables : List DispatchTable}
    (htables : Tabulated done tables) {entry : Entry} (hentry : claim? entry = none) :
    Tabulated (done ++ [entry]) tables where
  inOrder := htables.inOrder
  holder?_iff root tag id := by
    rw [htables.holder?_iff]
    simp [or_and_right, exists_or, hentry]
  isSome_tableOf? root := by
    rw [htables.isSome_tableOf?]
    simp [or_and_right, exists_or, hentry]

theorem Tabulated.add {done : List Entry} {tables later : List DispatchTable}
    (htables : Tabulated done tables) {entry : Entry} {root : ObjectId} {tag : UInt32}
    (hentry : claim? entry = some (root, tag))
    (hadd : addMember root tag ⟨entry.2.1⟩ tables = .ok later) :
    Tabulated (done ++ [entry]) later := by
  have hadded := added_of_addMember htables.inOrder hadd
  have hfree := (exists_addMember_iff htables.inOrder).mp ⟨later, hadd⟩
  constructor
  · exact hadded.inOrder
  · intro other mark id
    rw [hadded.holder?_eq]
    by_cases hboth : other = root ∧ mark = tag
    · rcases hboth with ⟨rfl, rfl⟩
      -- The tag was free, so that neither the root nor an entry before has it.
      have hnot := (htables.holder?_iff other mark id).not.mp (by simp [hfree])
      rw [if_pos ⟨rfl, rfl⟩, Option.some.injEq]
      constructor
      · rintro rfl
        exact .inr ⟨entry, by simp, hentry, rfl⟩
      · rintro (hroot | ⟨held, hheld, hclaim, hindex⟩)
        · exact absurd (.inl hroot) hnot
        · rcases List.mem_append.mp hheld with hheld | hheld
          · exact absurd (.inr ⟨held, hheld, hclaim, hindex⟩) hnot
          · rw [List.mem_singleton.mp hheld] at hindex
            exact ObjectId.eq_of_index hindex
    · have hclaim : claim? entry ≠ some (other, mark) := by
        rw [hentry]
        intro hsame
        cases hsame
        exact hboth ⟨rfl, rfl⟩
      rw [if_neg hboth, htables.holder?_iff]
      simp [or_and_right, exists_or, hclaim]
  · intro other
    rw [hadded.isSome_tableOf?, htables.isSome_tableOf?]
    constructor
    · rintro (rfl | ⟨held, hheld, mark, hclaim⟩)
      · exact ⟨entry, by simp, tag, hentry⟩
      · exact ⟨held, List.mem_append_left _ hheld, mark, hclaim⟩
    · rintro ⟨held, hheld, mark, hclaim⟩
      rcases List.mem_append.mp hheld with hheld | hheld
      · exact .inr ⟨held, hheld, mark, hclaim⟩
      · rw [List.mem_singleton.mp hheld, hentry] at hclaim
        cases hclaim
        exact .inl rfl

theorem buildTables_of_none {batch : Batch} {tables : List DispatchTable} {entry : Entry}
    {entries : List Entry} (hentry : claim? entry = none) :
    batch.buildTables tables (entry :: entries) = batch.buildTables tables entries := by
  rcases entry with ⟨placed, index, lineage⟩
  rcases lineage with - | ⟨first, - | ⟨next, more⟩⟩
  · rfl
  · rfl
  · cases hentry

theorem buildTables_of_some {batch : Batch} {tables built : List DispatchTable} {entry : Entry}
    {entries : List Entry} {root : ObjectId} {tag : UInt32}
    (hentry : claim? entry = some (root, tag)) :
    batch.buildTables tables (entry :: entries) = .ok built ↔
      ∃ later, addMember root tag ⟨entry.2.1⟩ tables = .ok later ∧
        batch.buildTables later entries = .ok built := by
  rcases entry with ⟨placed, index, lineage⟩
  rcases lineage with - | ⟨first, - | ⟨next, more⟩⟩
  · cases hentry
  · cases hentry
  · cases hentry
    rw [buildTables]
    dsimp only
    cases addMember ⟨first⟩ (Naming.wireHash placed.object.name) ⟨index⟩ tables with
    | error holder => simp
    | ok later => simp

theorem tabulated_of_buildTables {batch : Batch} {done entries : List Entry}
    {tables built : List DispatchTable} (htables : Tabulated done tables)
    (hbuild : batch.buildTables tables entries = .ok built) :
    Tabulated (done ++ entries) built := by
  induction entries generalizing done tables with
  | nil =>
      cases hbuild
      rw [List.append_nil]
      exact htables
  | cons entry rest ih =>
      rw [List.append_cons]
      cases hclaim : claim? entry with
      | none =>
          rw [buildTables_of_none hclaim] at hbuild
          exact ih (htables.skip hclaim) hbuild
      | some claim =>
          rcases (buildTables_of_some hclaim).mp hbuild with ⟨later, hadd, hbuild⟩
          exact ih (htables.add hclaim hadd) hbuild

/-- The tables are built exactly if no two members of a family have the same tag. -/
theorem exists_buildTables_iff {batch : Batch} {done entries : List Entry}
    {tables : List DispatchTable} (htables : Tabulated done tables)
    (hdone : (done.filterMap claim?).Nodup) :
    (∃ built, batch.buildTables tables entries = .ok built) ↔
      ((done ++ entries).filterMap claim?).Nodup := by
  induction entries generalizing done tables with
  | nil =>
      rw [List.append_nil]
      exact ⟨fun _ => hdone, fun _ => ⟨tables, rfl⟩⟩
  | cons entry rest ih =>
      rw [List.append_cons]
      cases hclaim : claim? entry with
      | none =>
          rw [buildTables_of_none hclaim, ih (htables.skip hclaim)]
          rw [List.filterMap_append]
          simpa [hclaim] using hdone
      | some claim =>
          rcases claim with ⟨root, tag⟩
          have hsplit : (done ++ [entry]).filterMap claim? =
              done.filterMap claim? ++ [(root, tag)] := by
            simp [hclaim]
          have hnext : ((done ++ [entry]).filterMap claim?).Nodup ↔
              holder? tables root tag = none := by
            have htag : tag ≠ DispatchTable.rootTag := by
              rw [← (claim?_eq_some_iff.mp hclaim).1]
              exact Naming.wireHash_ne_zero _
            have hfresh : (done.filterMap claim? ++ [(root, tag)]).Nodup ↔
                (root, tag) ∉ done.filterMap claim? := by
              rw [List.nodup_append]
              constructor
              · rintro ⟨-, -, hdisjoint⟩ hmem
                exact hdisjoint _ hmem _ (List.mem_singleton_self _) rfl
              · intro hnot
                refine ⟨hdone, by simp, ?_⟩
                rintro claim hclaim other hother rfl
                exact hnot (List.mem_singleton.mp hother ▸ hclaim)
            rw [hsplit, hfresh, Option.eq_none_iff_forall_ne_some]
            simp only [ne_eq, htables.holder?_iff, htag, false_and, false_or, List.mem_filterMap]
            constructor
            · rintro hfresh id ⟨held, hheld, hsame, -⟩
              exact hfresh ⟨held, hheld, hsame⟩
            · rintro hfree ⟨held, hheld, hsame⟩
              exact hfree ⟨held.2.1⟩ ⟨held, hheld, hsame, rfl⟩
          constructor
          · rintro ⟨built, hbuild⟩
            rcases (buildTables_of_some hclaim).mp hbuild with ⟨later, hadd, hbuild⟩
            have hfree := (exists_addMember_iff htables.inOrder).mp ⟨later, hadd⟩
            exact (ih (htables.add hclaim hadd) (hnext.mpr hfree)).mp ⟨built, hbuild⟩
          · intro hnodup
            have hfront : ((done ++ [entry]).filterMap claim?).Nodup := by
              rw [List.filterMap_append] at hnodup
              exact (List.nodup_append.mp hnodup).1
            have hadded : ∃ later, addMember root tag ⟨entry.2.1⟩ tables = .ok later :=
              (exists_addMember_iff htables.inOrder).mpr (hnext.mp hfront)
            rcases hadded with ⟨later, hadd⟩
            rcases (ih (htables.add hclaim hadd) hfront).mpr hnodup with ⟨built, hbuild⟩
            exact ⟨built, (buildTables_of_some hclaim).mpr ⟨later, hadd, hbuild⟩⟩

namespace Tabulated

variable {done : List Entry} {tables : List DispatchTable} (htables : Tabulated done tables)

include htables

theorem find?_iff {root : ObjectId} {table : DispatchTable}
    (htable : tableOf? tables root = some table) {tag : UInt32} {id : ObjectId} :
    table.members.find? tag = some id ↔
      (tag = DispatchTable.rootTag ∧ id = root) ∨
        ∃ entry ∈ done, claim? entry = some (root, tag) ∧ entry.2.1 = id.index := by
  rw [← htables.holder?_iff, holder?_of_tableOf? tag htable]

theorem find?_member (placed : PlacedObject) (index root next : Nat) (more : List Nat)
    (hentry : (placed, index, root :: next :: more) ∈ done) :
    ∃ table, tableOf? tables ⟨root⟩ = some table ∧
      table.members.find? (Naming.wireHash placed.object.name) = some ⟨index⟩ := by
  have hsome := (htables.isSome_tableOf? ⟨root⟩).mpr ⟨_, hentry, _, rfl⟩
  rcases Option.isSome_iff_exists.mp hsome with ⟨table, htable⟩
  exact ⟨table, htable, (htables.find?_iff htable).mpr (.inr ⟨_, hentry, rfl, rfl⟩)⟩

theorem of_tableOf? (root : ObjectId) (table : DispatchTable)
    (htable : tableOf? tables root = some table) :
    table.members.find? DispatchTable.rootTag = some root ∧
      ∃ placed index next more, (placed, index, root.index :: next :: more) ∈ done := by
  refine ⟨(htables.find?_iff htable).mpr (.inl ⟨rfl, rfl⟩), ?_⟩
  rcases (htables.isSome_tableOf? root).mp (by rw [htable]; rfl) with
    ⟨⟨placed, index, lineage⟩, hentry, tag, hclaim⟩
  rcases (claim?_eq_some_iff.mp hclaim).2 with ⟨next, more, rfl⟩
  exact ⟨placed, index, next, more, hentry⟩

end Tabulated

end Batch
end WireSchema
