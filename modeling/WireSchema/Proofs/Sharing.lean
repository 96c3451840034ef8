import WireSchema.Proofs.Flattening
import WireSchema.Proofs.Lineages

/-!
# Lineages that share members

A batch does not flatten each lineage by itself.  It keeps a table of the objects that are
flattened, walks up from an object to the first ancestor in the table, and fills the table from
there down again, each object on top of its parent.  What the table holds in the end, and the first
fault on the way, are those of the lineages one by one.
-/

namespace WireSchema
namespace Batch

variable {batch : Batch} {parents : List (Option Nat)} {own : List (List Field)}
  {table after : FlatTable} {number parent : Nat} {lineage above : List Nat}

/-! ## On top of the parent

The inherited fields have presence bits when they come from the table.  That makes no difference:
no fault tells them, and they are numbered again. -/

theorem declaredIn_find?_congr {front back : List Field}
    (hsame : numberFlags 0 front = numberFlags 0 back) (name : String) :
    (front.find? (·.name == name)).map (·.declaredIn) =
      (back.find? (·.name == name)).map (·.declaredIn) := by
  have hfind : ∀ fields : List Field, (fields.find? (·.name == name)).map (·.declaredIn) =
      ((fields.map fun field => (field.name, field.declaredIn)).find? (·.1 == name)).map (·.2) := by
    intro fields
    rw [List.find?_map, Option.map_map]
    rfl
  have hparts := congrArg (List.map fun field => (field.name, field.declaredIn)) hsame
  rw [map_numberFlags fun _ _ => rfl, map_numberFlags fun _ _ => rfl] at hparts
  rw [hfind, hfind, hparts]

theorem extendFields_congr {front back : List Field}
    (hsame : numberFlags 0 front = numberFlags 0 back) (index : Nat) (fields : List Field) :
    (batch.extendFields index front fields).map (numberFlags 0) =
      (batch.extendFields index back fields).map (numberFlags 0) := by
  induction fields generalizing front back with
  | nil =>
      rw [extendFields, extendFields]
      exact congrArg Except.ok hsame
  | cons field rest ih =>
      have hfind := declaredIn_find?_congr hsame field.name
      rw [extendFields, extendFields]
      cases hheld : front.find? (·.name == field.name) with
      | some held =>
          rw [hheld, Option.map_some] at hfind
          obtain ⟨other, hother, hdeclared⟩ := Option.map_eq_some_iff.mp hfind.symm
          rw [hother]
          dsimp only
          rw [hdeclared]
      | none =>
          rw [hheld, Option.map_none] at hfind
          rw [Option.map_eq_none_iff.mp hfind.symm]
          have hcount := congrArg (List.countP (·.isOptional)) hsame
          rw [countP_isOptional_numberFlags, countP_isOptional_numberFlags] at hcount
          exact ih (by rw [numberFlags_append, numberFlags_append, hsame, hcount])

theorem flattenOn_congr {front back : List Field}
    (hsame : numberFlags 0 front = numberFlags 0 back) (number : Nat) :
    batch.flattenOn own front number = batch.flattenOn own back number := by
  have hlength := congrArg List.length hsame
  rw [length_numberFlags, length_numberFlags] at hlength
  have hmap : ∀ inherited : List Field, batch.flattenOn own inherited number =
      ((batch.extendFields number inherited (ownIn own number)).map (numberFlags 0)).map
        (·, inherited.length) := by
    intro inherited
    rw [flattenOn, ownIn]
    cases batch.extendFields number inherited ((own[number]?).getD []) <;> rfl
  rw [hmap, hmap, extendFields_congr hsame, hlength]

theorem lineageFields_singleton (inherited : List Field) (number : Nat) :
    batch.lineageFields own inherited [number] =
      batch.extendFields number inherited ((own[number]?).getD []) := by
  rw [lineageFields]
  cases batch.extendFields number inherited ((own[number]?).getD []) <;> rfl

theorem flatten_singleton (number : Nat) :
    batch.flatten own [number] = batch.flattenOn own [] number := by
  rw [flattenOn, ← lineageFields_singleton]
  rfl

/-- The fields of a lineage are put together from those of its upper part. -/
theorem flatten_concat (above : List Nat) (number : Nat) :
    batch.flatten own (above ++ [number]) = (do
      let entry ← batch.flatten own above
      batch.flattenOn own entry.1 number) := by
  have hlast : (above ++ [number]).drop ((above ++ [number]).length - 1) = [number] := by simp
  have hsplit : above.dropLast ++ above.drop (above.length - 1) = above := by
    rw [List.dropLast_eq_take, List.take_append_drop]
  have hparts : batch.lineageFields own [] above = (do
      let upper ← batch.lineageFields own [] above.dropLast
      batch.lineageFields own upper (above.drop (above.length - 1))) := by
    rw [← lineageFields_append, hsplit]
  rw [flatten, flatten, List.dropLast_concat, hlast, hparts]
  cases batch.lineageFields own [] above.dropLast with
  | error fault => rfl
  | ok upper =>
      dsimp only [bind, Except.bind]
      cases batch.lineageFields own upper (above.drop (above.length - 1)) with
      | error fault => rfl
      | ok inherited =>
          dsimp only [pure, Except.pure]
          rw [flattenOn_congr (numberFlags_numberFlags 0 0 inherited), lineageFields_singleton]
          rfl

/-! ## The table

An object is known once it is in the table.  Numbers beyond the table belong to no object, and
nothing is to be known of them. -/

def FlatTable.Knows (table : FlatTable) (number : Nat) : Prop :=
  number < table.length → (table.flattened? number).isSome = true

/-- A table on the way: it has a place for every object, what it holds is right, and an object is
known only if its parent is. -/
structure FlatTable.Holds (batch : Batch) (parents : List (Option Nat)) (own : List (List Field))
    (table : FlatTable) : Prop where
  length_eq : table.length = own.length
  flatten_eq : ∀ number entry lineage, table.flattened? number = some entry →
    Lineage parents number lineage → batch.flatten own lineage = .ok entry
  knows_parent : ∀ number parent, (table.flattened? number).isSome = true →
    parents[number]?.join = some parent → table.Knows parent

theorem FlatTable.flattened?_set (table : FlatTable) {number : Nat}
    (hnumber : number < table.length) (entry : List Field × Nat) (other : Nat) :
    FlatTable.flattened? (table.set number (some entry)) other =
      if number = other then some entry else table.flattened? other := by
  rw [FlatTable.flattened?, FlatTable.flattened?, List.getElem?_set]
  by_cases hsame : number = other
  · rw [if_pos hsame, if_pos hsame, if_pos hnumber, Option.join_some]
  · rw [if_neg hsame, if_neg hsame]

theorem FlatTable.Knows.set (hknows : table.Knows parent) (number : Nat)
    (entry : List Field × Nat) : FlatTable.Knows (table.set number (some entry)) parent := by
  intro hlength
  rw [List.length_set] at hlength
  by_cases hnumber : number < table.length
  · rw [FlatTable.flattened?_set table hnumber]
    split
    · rfl
    · exact hknows hlength
  · rw [List.set_eq_of_length_le (Nat.le_of_not_lt hnumber)]
    exact hknows hlength

theorem inheritedFields_of_none (hparent : parents[number]?.join = none) :
    inheritedFields parents table number = [] := by
  unfold inheritedFields
  split
  next parent hentry =>
    rw [hentry] at hparent
    cases hparent
  next => rfl

theorem inheritedFields_of_some (hparent : parents[number]?.join = some parent) :
    inheritedFields parents table number = ((table.flattened? parent).getD ([], 0)).1 := by
  rw [inheritedFields, Option.join_eq_some_iff.mp hparent]

/-- On top of the parent that is known, an object is flattened as its lineage is. -/
theorem FlatTable.Holds.flatten_eq_flattenOn (htable : table.Holds batch parents own)
    (hsize : own.length = parents.length) (hlineage : Lineage parents number lineage)
    (hparent : ∀ parent, parents[number]?.join = some parent → table.Knows parent) :
    batch.flatten own lineage =
      batch.flattenOn own (inheritedFields parents table number) number := by
  cases hlineage with
  | root hnone => rw [flatten_singleton, inheritedFields_of_none hnone]
  | @child _ parent above hsome habove =>
      rw [flatten_concat, inheritedFields_of_some hsome]
      by_cases hlength : parent < table.length
      · obtain ⟨entry, hentry⟩ := Option.isSome_iff_exists.mp (hparent parent hsome hlength)
        rw [htable.flatten_eq parent entry above hentry habove, hentry]
        rfl
      · -- A number beyond the table has neither a parent nor fields.
        rw [htable.length_eq] at hlength
        have hown : own[parent]? = none := List.getElem?_eq_none (Nat.le_of_not_lt hlength)
        have hnone : parents[parent]?.join = none := by
          rw [List.getElem?_eq_none (by omega)]
          rfl
        have hentry : table.flattened? parent = none := by
          rw [flattened?, List.getElem?_eq_none (by rw [htable.length_eq]; omega)]
          rfl
        rw [habove.eq_of_lineage (.root hnone), flatten_singleton, hentry]
        have hempty : batch.flattenOn own [] parent = .ok ([], 0) := by
          rw [flattenOn, hown]
          rfl
        rw [hempty]
        rfl

/-! ## Filling the table -/

/-- A run that fills in some objects meets the fault that flattening their lineages meets, or it
leaves a table that knows them and all that was known before. -/
inductive Fills {α : Type} (batch : Batch) (parents : List (Option Nat)) (own : List (List Field))
    (table : FlatTable) (numbers : List Nat) (flat : Except SchemaError α)
    (run : Except SchemaError FlatTable) : Prop where
  | faulted (fault : SchemaError) (hflat : flat = .error fault) (hrun : run = .error fault)
  | filled (value : α) (after : FlatTable) (hflat : flat = .ok value) (hrun : run = .ok after)
      (hafter : after.Holds batch parents own) (hknows : ∀ number ∈ numbers, after.Knows number)
      (hkeeps : ∀ number, table.Knows number → after.Knows number)

theorem Fills.of_keeps {α : Type} {numbers : List Nat} {flat : Except SchemaError α}
    {run : Except SchemaError FlatTable} (hfills : Fills batch parents own after numbers flat run)
    (hkeeps : ∀ number, table.Knows number → after.Knows number) :
    Fills batch parents own table numbers flat run := by
  cases hfills with
  | faulted fault hflat hrun => exact .faulted fault hflat hrun
  | filled value final hflat hrun hfinal hknows hlater =>
      exact .filled value final hflat hrun hfinal hknows fun number hnumber =>
        hlater number (hkeeps number hnumber)

theorem FlatTable.Holds.set (htable : table.Holds batch parents own)
    (hlineage : Lineage parents number lineage) {entry : List Field × Nat}
    (hentry : batch.flatten own lineage = .ok entry)
    (hparent : ∀ parent, parents[number]?.join = some parent → table.Knows parent) :
    FlatTable.Holds batch parents own (table.set number (some entry)) := by
  by_cases hnumber : number < table.length
  · refine ⟨by rw [List.length_set, htable.length_eq], ?_, ?_⟩
    · intro other held line hheld hline
      rw [FlatTable.flattened?_set table hnumber] at hheld
      split at hheld
      next hsame =>
        subst hsame
        cases hheld
        rw [hline.eq_of_lineage hlineage, hentry]
      next => exact htable.flatten_eq other held line hheld hline
    · intro other parent hsome hother
      rw [FlatTable.flattened?_set table hnumber] at hsome
      split at hsome
      next hsame => exact (hparent parent (hsame ▸ hother)).set number entry
      next => exact (htable.knows_parent other parent hsome hother).set number entry
  · rw [List.set_eq_of_length_le (Nat.le_of_not_lt hnumber)]
    exact htable

theorem fills_flattenOne (htable : table.Holds batch parents own)
    (hsize : own.length = parents.length) (hlineage : Lineage parents number lineage)
    (hparent : ∀ parent, parents[number]?.join = some parent → table.Knows parent) :
    Fills batch parents own table [number] (batch.flatten own lineage)
      (batch.flattenOne parents own table number) := by
  unfold flattenOne
  split
  next hdone =>
    obtain ⟨entry, hentry⟩ := Option.isSome_iff_exists.mp hdone
    refine .filled entry table (htable.flatten_eq number entry lineage hentry hlineage) rfl htable
      ?_ fun _ hknown => hknown
    intro other hother
    rw [List.mem_singleton.mp hother]
    exact fun _ => hdone
  next =>
    have hflat := htable.flatten_eq_flattenOn hsize hlineage hparent
    cases hrun : batch.flattenOn own (inheritedFields parents table number) number with
    | error fault => exact .faulted fault (hflat.trans hrun) rfl
    | ok entry =>
        have hentry := hflat.trans hrun
        refine .filled entry _ hentry rfl (htable.set hlineage hentry hparent) ?_
          fun _ hknown => hknown.set number entry
        intro other hother hlength
        rw [List.mem_singleton.mp hother] at hlength ⊢
        rw [List.length_set] at hlength
        rw [FlatTable.flattened?_set table hlength, if_pos rfl]
        rfl

theorem pending_append {steps current : Nat} (chain rest : List Nat) :
    pending parents table steps (chain ++ rest) current =
      pending parents table steps chain current ++ rest := by
  induction steps generalizing chain current with
  | zero => rfl
  | succ steps ih =>
      rw [pending, pending]
      split
      · split
        · rfl
        · exact ih (_ :: chain)
      · rfl

/-- From an object up to the first known ancestor and down again: the induction is on the lineage,
of which the members above the known ones are walked through. -/
theorem fills_pending (htable : table.Holds batch parents own)
    (hsize : own.length = parents.length) {steps : Nat}
    (hlineage : Lineage parents number lineage) (hsteps : lineage.length ≤ steps + 1) :
    Fills batch parents own table [number] (batch.flatten own lineage)
      ((pending parents table steps [number] number).foldlM (batch.flattenOne parents own)
        table) := by
  have hlast : ∀ (number : Nat) (table : FlatTable),
      [number].foldlM (batch.flattenOne parents own) table =
        batch.flattenOne parents own table number := by
    intro number table
    rw [List.foldlM_cons]
    exact bind_pure _
  induction hlineage generalizing steps with
  | @root number hnone =>
      have halone : pending parents table steps [number] number = [number] := by
        cases steps with
        | zero => rfl
        | succ steps =>
            rw [pending]
            split
            next parent hentry =>
              rw [hentry] at hnone
              cases hnone
            next => rfl
      rw [halone, hlast]
      refine fills_flattenOne htable hsize (.root hnone) fun parent hparent => ?_
      rw [hnone] at hparent
      cases hparent
  | @child number parent above hsome habove ih =>
      rw [List.length_append, List.length_singleton] at hsteps
      have hpositive := List.length_pos_iff.mpr habove.ne_nil
      obtain ⟨steps, rfl⟩ : ∃ fewer, steps = fewer + 1 := Nat.exists_eq_add_of_le' (by omega)
      have honly : ∀ other, parents[number]?.join = some other → other = parent := by
        intro other hother
        rw [hsome] at hother
        exact (Option.some.inj hother).symm
      rw [pending, Option.join_eq_some_iff.mp hsome]
      dsimp only
      split
      next hdone =>
        rw [hlast]
        refine fills_flattenOne htable hsize (.child hsome habove) fun other hother => ?_
        rw [honly other hother]
        exact fun _ => hdone
      next =>
        have hclimb : pending parents table steps [parent, number] parent =
            pending parents table steps [parent] parent ++ [number] := pending_append [parent] _
        rw [hclimb, List.foldlM_append, flatten_concat]
        cases ih (show above.length ≤ steps + 1 by omega) with
        | faulted fault hflat hrun =>
            rw [hflat, hrun]
            exact .faulted fault rfl rfl
        | filled entry after hflat hrun hafter hknows hkeeps =>
            rw [hrun, ← flatten_concat]
            change Fills _ _ _ _ _ _ ([number].foldlM (batch.flattenOne parents own) after)
            rw [hlast]
            refine (fills_flattenOne hafter hsize (.child hsome habove) ?_).of_keeps hkeeps
            intro other hother
            rw [honly other hother]
            exact hknows parent List.mem_cons_self

theorem fills_flattenFrom (htable : table.Holds batch parents own)
    (hsize : own.length = parents.length) {starts : List Nat} {lineages : List (List Nat)}
    (hlineages : List.Forall₂
      (fun start lineage => lineage.Nodup ∧ Lineage parents start lineage) starts lineages) :
    Fills batch parents own table starts (lineages.mapM (batch.flatten own))
      (starts.foldlM (batch.flattenFrom parents own) table) := by
  induction hlineages generalizing table with
  | nil =>
      exact .filled [] table rfl rfl htable (by simp) fun _ hknown => hknown
  | @cons start lineage starts lineages hhead _ ih =>
      obtain ⟨hnodup, hlineage⟩ := hhead
      have hsteps : lineage.length ≤ parents.length + 1 + 1 := by
        have htail := length_le_of_nodup (hnodup.sublist lineage.tail_sublist)
          hlineage.lt_of_mem_tail
        rw [List.length_tail] at htail
        omega
      rw [List.mapM_cons, List.foldlM_cons, flattenFrom]
      cases fills_pending htable hsize hlineage hsteps with
      | faulted fault hflat hrun =>
          rw [hflat, hrun]
          exact .faulted fault rfl rfl
      | filled entry after hflat hrun hafter hknows hkeeps =>
          rw [hflat, hrun]
          cases ih hafter with
          | faulted fault hflat hrun =>
              refine .faulted fault ?_ hrun
              rw [hflat]
              rfl
          | filled entries final hflat hrun hfinal hall hlater =>
              refine .filled (entry :: entries) final ?_ hrun hfinal ?_ fun number hnumber =>
                hlater number (hkeeps number hnumber)
              · rw [hflat]
                rfl
              · refine List.forall_mem_cons.mpr ⟨?_, hall⟩
                exact hlater start (hknows start List.mem_cons_self)

/-! ## All objects -/

theorem FlatTable.flattened?_replicate (count number : Nat) :
    FlatTable.flattened? (List.replicate count none) number = none := by
  rw [flattened?, List.getElem?_replicate]
  split
  · rfl
  · rfl

theorem FlatTable.holds_replicate :
    FlatTable.Holds batch parents own (List.replicate own.length none) where
  length_eq := List.length_replicate
  flatten_eq number entry lineage hentry _ := by
    rw [FlatTable.flattened?_replicate] at hentry
    cases hentry
  knows_parent number parent hsome _ := by
    rw [FlatTable.flattened?_replicate] at hsome
    cases hsome

/-- What comes of the table is what comes of the lineages one by one. -/
theorem flattenFields_eq {lineages : List (List Nat)} (hsize : own.length = parents.length)
    (hlineages : (List.range own.length).mapM (batch.lineageOf parents) = .ok lineages) :
    batch.flattenFields parents own = lineages.mapM (batch.flatten own) := by
  have hall : List.Forall₂ (fun start lineage => lineage.Nodup ∧ Lineage parents start lineage)
      (List.range own.length) lineages :=
    (Outcome.forall₂_of_mapM hlineages).imp fun start lineage => lineage_of_lineageOf
  rw [flattenFields]
  cases fills_flattenFrom FlatTable.holds_replicate hsize hall with
  | faulted fault hflat hrun =>
      rw [hflat, hrun]
      rfl
  | filled entries after hflat hrun hafter hknows hkeeps =>
      rw [hflat, hrun]
      have hentries := Outcome.forall₂_of_mapM hflat
      have hlength : after.length = entries.length := by
        rw [hafter.length_eq, ← hentries.length_eq, ← hall.length_eq, List.length_range]
      refine congrArg Except.ok (List.ext_getElem? fun number => ?_)
      rw [List.getElem?_map]
      by_cases hnumber : number < after.length
      · have hown : number < own.length := hafter.length_eq ▸ hnumber
        have hstart : (List.range own.length)[number]? = some number := List.getElem?_range hown
        obtain ⟨lineage, hlineage, -, hline⟩ := Outcome.exists_getElem?_of_forall₂ hall hstart
        obtain ⟨entry, hentry, hflatten⟩ := Outcome.exists_getElem?_of_forall₂ hentries hlineage
        obtain ⟨held, hheld⟩ := Option.isSome_iff_exists.mp
          (hknows number (List.mem_range.mpr hown) hnumber)
        have hsame := (hafter.flatten_eq number held lineage hheld hline).symm.trans hflatten
        rw [hentry, Option.join_eq_some_iff.mp hheld, ← Except.ok.inj hsame]
        rfl
      · rw [List.getElem?_eq_none (Nat.le_of_not_lt hnumber),
          List.getElem?_eq_none (hlength ▸ Nat.le_of_not_lt hnumber)]
        rfl

/-- The passes, with each lineage flattened by itself. -/
theorem examine_eq (batch : Batch) :
    batch.examine = (do
      let parents ← batch.objects.mapM batch.parentOf
      let lineages ← (List.range batch.objects.length).mapM (batch.lineageOf parents)
      let own ← batch.objects.zipIdx.mapM fun (placed, index) => batch.ownFields placed index
      let fields ← lineages.mapM (batch.flatten own)
      let wireIds ← assignIds .empty batch.objects
      let tables ←
        batch.buildTables [] (batch.objects.zip ((List.range lineages.length).zip lineages))
      return ⟨parents, lineages, fields, wireIds, tables⟩) := by
  refine Outcome.bind_congr fun parents hparents => Outcome.bind_congr fun lineages hlineages =>
    Outcome.bind_congr fun own hown => ?_
  have hlength : own.length = batch.objects.length := by
    rw [← (Outcome.forall₂_of_mapM hown).length_eq, List.length_zipIdx]
  have hsize : own.length = parents.length :=
    hlength.trans (Outcome.forall₂_of_mapM hparents).length_eq
  rw [flattenFields_eq hsize (hlength ▸ hlineages)]

end Batch
end WireSchema
