import WireSchema.Proofs.Outcomes
import WireSchema.Schema.Resolve

/-!
# Identification by wire ids

No two payloads of a batch have the same wire id, and so the map of the wire ids leads from the id
of a payload to its number, and to nothing else.
-/

namespace WireSchema

theorem WireIds.assign_eq_ok {ids grown : WireIds} {space name label : String} {wire : UInt32}
    (hassign : ids.assign space name label = .ok (wire, grown)) :
    wire = idOf space name ∧ ids.holders.find? wire = none ∧
      grown = ⟨ids.holders.insert wire label⟩ := by
  unfold assign at hassign
  dsimp only at hassign
  split at hassign
  next => cases hassign
  next hfree =>
    cases hassign
    exact ⟨rfl, hfree, rfl⟩

namespace Batch

/-- A wire id stands in a place of the list. -/
def Assigned (ids : List (Option UInt32)) (wire : UInt32) (place : Nat) : Prop :=
  ids[place]? = some (some wire)

/-- No wire id stands in two places. -/
def Distinct (ids : List (Option UInt32)) : Prop :=
  ∀ wire first second, Assigned ids wire first → Assigned ids wire second → first = second

/-- A wire id that does not head the list stands behind the head. -/
theorem Assigned.exists_below {head : Option UInt32} {rest : List (Option UInt32)} {wire : UInt32}
    {place : Nat} (hassigned : Assigned (head :: rest) wire place) (hhead : head ≠ some wire) :
    ∃ below, place = below + 1 ∧ Assigned rest wire below := by
  cases place with
  | zero => exact absurd (Option.some.inj hassigned) hhead
  | succ below => exact ⟨below, rfl, hassigned⟩

theorem Distinct.cons_none {ids : List (Option UInt32)} (hdistinct : Distinct ids) :
    Distinct (none :: ids) := by
  intro wire first second hfirst hsecond
  obtain ⟨above, rfl, habove⟩ := hfirst.exists_below (Option.some_ne_none wire).symm
  obtain ⟨below, rfl, hbelow⟩ := hsecond.exists_below (Option.some_ne_none wire).symm
  rw [hdistinct wire above below habove hbelow]

theorem Distinct.cons_some {ids : List (Option UInt32)} {wire : UInt32}
    (hdistinct : Distinct ids) (hfresh : ∀ place, ¬ Assigned ids wire place) :
    Distinct (some wire :: ids) := by
  intro other first second hfirst hsecond
  by_cases hsame : wire = other
  · subst hsame
    have hzero : ∀ place, Assigned (some wire :: ids) wire place → place = 0 := by
      intro place hplace
      cases place with
      | zero => rfl
      | succ below => exact absurd hplace (hfresh below)
    rw [hzero first hfirst, hzero second hsecond]
  · have hhead : some wire ≠ some other := fun hwire => hsame (Option.some.inj hwire)
    obtain ⟨above, rfl, habove⟩ := hfirst.exists_below hhead
    obtain ⟨below, rfl, hbelow⟩ := hsecond.exists_below hhead
    rw [hdistinct other above below habove hbelow]

/-- What is assigned from some ids on: to every object the hash of its name, and never an id that
is taken. -/
structure Identified (taken : WireIds) (objects : List PlacedObject)
    (ids : List (Option UInt32)) : Prop where
  ids_eq : ids = objects.map fun placed =>
    placed.object.wireName.map (WireIds.idOf placed.space)
  fresh : ∀ wire place, Assigned ids wire place → taken.holders.find? wire = none
  distinct : Distinct ids

theorem identified_of_assignIds {taken : WireIds} {objects : List PlacedObject}
    {ids : List (Option UInt32)} (hassign : assignIds taken objects = .ok ids) :
    Identified taken objects ids := by
  induction objects generalizing taken ids with
  | nil =>
      cases hassign
      refine ⟨rfl, ?_, ?_⟩
      · intro wire place hplace
        cases hplace
      · intro wire first second hfirst
        cases hfirst
  | cons placed rest ih =>
      rw [assignIds] at hassign
      split at hassign
      next hname =>
        obtain ⟨more, hmore, rfl⟩ := Outcome.map_eq_ok hassign
        obtain ⟨hids, hfresh, hdistinct⟩ := ih hmore
        refine ⟨by rw [hids, List.map_cons, hname]; rfl, ?_, hdistinct.cons_none⟩
        intro wire place hplace
        obtain ⟨below, -, hbelow⟩ := hplace.exists_below (Option.some_ne_none wire).symm
        exact hfresh wire below hbelow
      next name hname =>
        obtain ⟨⟨wire, grown⟩, hwire, hassign⟩ := Outcome.bind_eq_ok hassign
        obtain ⟨more, hmore, hassign⟩ := Outcome.bind_eq_ok hassign
        cases hassign
        obtain ⟨hids, hfresh, hdistinct⟩ := ih hmore
        obtain ⟨rfl, hfree, rfl⟩ := WireIds.assign_eq_ok hwire
        have hfresh' : ∀ place, ¬ Assigned more (WireIds.idOf placed.space name) place := by
          intro place hplace
          have hnone := hfresh _ place hplace
          rw [TagMap.find?_insert_self] at hnone
          cases hnone
        refine ⟨by rw [hids, List.map_cons, hname]; rfl, ?_, hdistinct.cons_some hfresh'⟩
        intro other place hplace
        cases place with
        | zero =>
            cases hplace
            exact hfree
        | succ place =>
            have hnone := hfresh other place hplace
            have hother : other ≠ WireIds.idOf placed.space name := by
              rintro rfl
              exact hfresh' place hplace
            rw [TagMap.find?_insert_of_ne _ _ hother] at hnone
            exact hnone

/-- The wire ids that some objects ask for. -/
def requestedIds (objects : List PlacedObject) : List UInt32 :=
  objects.filterMap fun placed => placed.object.wireName.map (WireIds.idOf placed.space)

/-- The ids are assigned exactly if they are free and no two of them are the same. -/
theorem exists_assignIds_iff {taken : WireIds} {objects : List PlacedObject} :
    (∃ ids, assignIds taken objects = .ok ids) ↔
      (∀ wire ∈ requestedIds objects, taken.holders.find? wire = none) ∧
        (requestedIds objects).Nodup := by
  induction objects generalizing taken with
  | nil => simp [assignIds, requestedIds]
  | cons placed rest ih =>
      rw [assignIds, requestedIds, List.filterMap_cons]
      cases hname : placed.object.wireName with
      | none =>
          dsimp only [Option.map_none]
          rw [← requestedIds, ← ih]
          constructor
          · rintro ⟨ids, hrun⟩
            rcases Outcome.map_eq_ok hrun with ⟨more, hmore, -⟩
            exact ⟨more, hmore⟩
          · rintro ⟨more, hmore⟩
            exact ⟨none :: more, by rw [hmore]; rfl⟩
      | some name =>
          dsimp only [Option.map_some]
          rw [← requestedIds, List.forall_mem_cons, List.nodup_cons]
          -- The rest finds the id taken, besides those taken before.
          have hgrown (label : String) : (∀ wire ∈ requestedIds rest,
              (taken.holders.insert (WireIds.idOf placed.space name) label).find? wire = none) ↔
              WireIds.idOf placed.space name ∉ requestedIds rest ∧
                ∀ wire ∈ requestedIds rest, taken.holders.find? wire = none := by
            constructor
            · intro hall
              constructor
              · intro hmem
                have hnone := hall _ hmem
                rw [TagMap.find?_insert_self] at hnone
                cases hnone
              · intro wire hwire
                have hnone := hall wire hwire
                by_cases hsame : wire = WireIds.idOf placed.space name
                · rw [hsame, TagMap.find?_insert_self] at hnone
                  cases hnone
                · rw [TagMap.find?_insert_of_ne _ _ hsame] at hnone
                  exact hnone
            · rintro ⟨hnot, hall⟩ wire hwire
              have hother : wire ≠ WireIds.idOf placed.space name := by
                rintro rfl
                exact hnot hwire
              rw [TagMap.find?_insert_of_ne _ _ hother]
              exact hall wire hwire
          constructor
          · rintro ⟨ids, hrun⟩
            rcases Outcome.bind_eq_ok hrun with ⟨⟨wire, grown⟩, hwire, hrun⟩
            rcases Outcome.bind_eq_ok hrun with ⟨more, hmore, -⟩
            rcases WireIds.assign_eq_ok hwire with ⟨rfl, hfree, rfl⟩
            rcases ih.mp ⟨more, hmore⟩ with ⟨hrest, hnodup⟩
            rcases (hgrown _).mp hrest with ⟨hnot, hall⟩
            exact ⟨⟨hfree, hall⟩, hnot, hnodup⟩
          · rintro ⟨⟨hfree, hall⟩, hnot, hnodup⟩
            have hlater := (hgrown (placed.space ++ ":" ++ name)).mpr ⟨hnot, hall⟩
            have hrest : ∃ more, assignIds ⟨taken.holders.insert (WireIds.idOf placed.space name)
                (placed.space ++ ":" ++ name)⟩ rest = .ok more :=
              ih.mpr ⟨hlater, hnodup⟩
            rcases hrest with ⟨more, hmore⟩
            refine ⟨some (WireIds.idOf placed.space name) :: more, ?_⟩
            simp only [WireIds.assign, hfree, bind, Except.bind, hmore]
            rfl

/-- The map leads from an id to the place where it stands, counted from the first index. -/
theorem find?_idMap_iff {ids : List (Option UInt32)} (hdistinct : Distinct ids) (index : Nat)
    (wire : UInt32) (id : ObjectId) :
    (idMap index ids).find? wire = some id ↔
      ∃ place, Assigned ids wire place ∧ id = ⟨index + place⟩ := by
  induction ids generalizing index with
  | nil =>
      constructor
      · intro hfind
        cases hfind
      · rintro ⟨place, hplace, -⟩
        cases hplace
  | cons head rest ih =>
      have hrest : Distinct rest := fun other first second hfirst hsecond =>
        Nat.succ.inj (hdistinct other (first + 1) (second + 1) hfirst hsecond)
      have hlater (hhead : head ≠ some wire) : (idMap (index + 1) rest).find? wire = some id ↔
          ∃ place, Assigned (head :: rest) wire place ∧ id = ⟨index + place⟩ := by
        rw [ih hrest]
        constructor
        · rintro ⟨place, hplace, rfl⟩
          exact ⟨place + 1, hplace, by rw [Nat.add_assoc, Nat.add_comm 1]⟩
        · rintro ⟨place, hplace, rfl⟩
          obtain ⟨below, rfl, hbelow⟩ := hplace.exists_below hhead
          exact ⟨below, hbelow, by rw [Nat.add_assoc, Nat.add_comm 1]⟩
      cases head with
      | none =>
          rw [idMap]
          exact hlater (Option.some_ne_none wire).symm
      | some first =>
          rw [idMap]
          by_cases hsame : wire = first
          · subst hsame
            rw [TagMap.find?_insert_self]
            constructor
            · intro hfind
              cases hfind
              exact ⟨0, rfl, rfl⟩
            · rintro ⟨place, hplace, rfl⟩
              rw [hdistinct wire place 0 hplace rfl]
              rfl
          · rw [TagMap.find?_insert_of_ne _ _ hsame]
            exact hlater fun hfirst => hsame (Option.some.inj hfirst).symm

end Batch
end WireSchema
