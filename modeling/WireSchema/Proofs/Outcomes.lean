import Mathlib.Data.List.Forall2

/-!
# Outcomes of checks

A computation that may meet an error gives a value only if each of its parts does.
-/

namespace WireSchema
namespace Outcome

variable {ε α β : Type} {first : Except ε α} {next : α → Except ε β} {result : β}

theorem bind_eq_ok (hrun : (first >>= next) = .ok result) :
    ∃ value, first = .ok value ∧ next value = .ok result := by
  cases first with
  | error fault => cases hrun
  | ok value => exact ⟨value, rfl, hrun⟩

theorem bind_congr {other : α → Except ε β}
    (hsame : ∀ value, first = .ok value → next value = other value) :
    (first >>= next) = (first >>= other) := by
  cases first with
  | error fault => rfl
  | ok value => exact hsame value rfl

theorem map_eq_ok {f : α → β} (hrun : first.map f = .ok result) :
    ∃ value, first = .ok value ∧ f value = result := by
  cases first with
  | error fault => cases hrun
  | ok value => exact ⟨value, rfl, Except.ok.inj hrun⟩

theorem bind_eq_error_iff {fault : ε} :
    (first >>= next) = .error fault ↔
      first = .error fault ∨ ∃ value, first = .ok value ∧ next value = .error fault := by
  cases first with
  | error other => simp [bind, Except.bind]
  | ok value => simp [bind, Except.bind]

theorem map_eq_error {f : α → β} {fault : ε} (hrun : first.map f = .error fault) :
    first = .error fault := by
  cases first with
  | error other =>
      cases hrun
      rfl
  | ok value => cases hrun

/-- The error that a computation ends with. -/
def fault? (first : Except ε α) : Option ε :=
  match first with
  | .error fault => some fault
  | .ok _ => none

theorem eq_error_of_fault? {fault : ε} (hfault : fault? first = some fault) :
    first = .error fault := by
  cases first with
  | error other => exact congrArg Except.error (Option.some.inj hfault)
  | ok value => cases hfault

theorem exists_map_iff {f : α → β} {first : Except ε α} :
    (∃ result, first.map f = .ok result) ↔ ∃ value, first = .ok value := by
  constructor
  · rintro ⟨result, hrun⟩
    rcases map_eq_ok hrun with ⟨value, hvalue, -⟩
    exact ⟨value, hvalue⟩
  · rintro ⟨value, rfl⟩
    exact ⟨f value, rfl⟩

/-- Each of the results belongs to the item in its place. -/
theorem forall₂_of_mapM {f : α → Except ε β} {items : List α} {results : List β}
    (hrun : items.mapM f = .ok results) :
    List.Forall₂ (fun item result => f item = .ok result) items results := by
  induction items generalizing results with
  | nil =>
      cases hrun
      exact .nil
  | cons item rest ih =>
      rw [List.mapM_cons] at hrun
      obtain ⟨result, hitem, hrun⟩ := bind_eq_ok hrun
      obtain ⟨more, hrest, hrun⟩ := bind_eq_ok hrun
      cases hrun
      exact .cons hitem (ih hrest)

theorem mapM_of_forall₂ {f : α → Except ε β} {items : List α} {results : List β}
    (hall : List.Forall₂ (fun item result => f item = .ok result) items results) :
    items.mapM f = .ok results := by
  induction hall with
  | nil => rfl
  | cons hitem _ ih =>
      rw [List.mapM_cons, hitem, ih]
      rfl

theorem map_eq_of_forall₂ {α β γ : Type} {relation : α → β → Prop} {f : α → γ} {g : β → γ}
    {first : List α} {second : List β} (hall : List.Forall₂ relation first second)
    (hsame : ∀ item other, relation item other → f item = g other) :
    first.map f = second.map g := by
  rw [← List.forall₂_eq_eq_eq, List.forall₂_map_left_iff, List.forall₂_map_right_iff]
  exact hall.imp hsame

/-- What two lists have to do with a third one, they have to do with each other. -/
theorem forall₂_of_common {α β γ : Type} {relation : α → β → Prop} {relation' : α → γ → Prop}
    {result : β → γ → Prop}
    (hresult : ∀ item first second, relation item first → relation' item second →
      result first second)
    {items : List α} {first : List β} {second : List γ}
    (hfirst : List.Forall₂ relation items first) (hsecond : List.Forall₂ relation' items second) :
    List.Forall₂ result first second := by
  induction hfirst generalizing second with
  | nil =>
      cases hsecond
      exact .nil
  | cons hhead _ ih =>
      cases hsecond with
      | cons hhead' htail => exact .cons (hresult _ _ _ hhead hhead') (ih htail)

theorem forall₂_mem {α β : Type} {relation : α → β → Prop} {first : List α} {second : List β}
    (hall : List.Forall₂ relation first second) :
    List.Forall₂ (fun item other => item ∈ first ∧ other ∈ second ∧ relation item other) first
      second := by
  rcases List.forall₂_iff_zip.mp hall with ⟨hlength, hzip⟩
  apply List.forall₂_iff_zip.mpr
  refine ⟨hlength, ?_⟩
  intro item other hmem
  rcases List.of_mem_zip hmem with ⟨hitem, hother⟩
  exact ⟨hitem, hother, hzip hmem⟩

theorem exists_mem_of_forall₂ {α β : Type} {relation : α → β → Prop} {first : List α}
    {second : List β} (hall : List.Forall₂ relation first second) {item : α}
    (hitem : item ∈ first) :
    ∃ other ∈ second, relation item other := by
  induction hall with
  | nil => cases hitem
  | cons hhead _ ih =>
      rcases List.mem_cons.mp hitem with rfl | hitem
      · exact ⟨_, List.mem_cons_self, hhead⟩
      · rcases ih hitem with ⟨other, hother, hrelation⟩
        exact ⟨other, List.mem_cons_of_mem _ hother, hrelation⟩

theorem exists_mem_of_mapM {f : α → Except ε β} {items : List α} {results : List β}
    (hrun : items.mapM f = .ok results) {result : β} (hresult : result ∈ results) :
    ∃ item ∈ items, f item = .ok result :=
  exists_mem_of_forall₂ (forall₂_of_mapM hrun).flip hresult

theorem exists_getElem?_of_forall₂ {α β : Type} {relation : α → β → Prop} {first : List α}
    {second : List β} (hall : List.Forall₂ relation first second) {index : Nat} {item : α}
    (hitem : first[index]? = some item) :
    ∃ other, second[index]? = some other ∧ relation item other := by
  induction hall generalizing index with
  | nil => cases hitem
  | cons hhead _ ih =>
      cases index with
      | zero =>
          cases hitem
          exact ⟨_, rfl, hhead⟩
      | succ index => exact ih hitem

theorem exists_getElem?_of_mapM {f : α → Except ε β} {items : List α} {results : List β}
    (hrun : items.mapM f = .ok results) {index : Nat} {item : α}
    (hitem : items[index]? = some item) :
    ∃ result, results[index]? = some result ∧ f item = .ok result :=
  exists_getElem?_of_forall₂ (forall₂_of_mapM hrun) hitem

/-- All results are there exactly if each of them is. -/
theorem exists_mapM_iff {f : α → Except ε β} {items : List α} :
    (∃ results, items.mapM f = .ok results) ↔ ∀ item ∈ items, ∃ result, f item = .ok result := by
  constructor
  · rintro ⟨results, hrun⟩ item hitem
    rcases List.mem_iff_getElem?.mp hitem with ⟨index, hindex⟩
    rcases exists_getElem?_of_mapM hrun hindex with ⟨result, -, hresult⟩
    exact ⟨result, hresult⟩
  · intro hall
    induction items with
    | nil => exact ⟨[], rfl⟩
    | cons item rest ih =>
        rcases hall item List.mem_cons_self with ⟨result, hresult⟩
        rcases ih fun other hother => hall other (List.mem_cons_of_mem _ hother) with
          ⟨more, hmore⟩
        refine ⟨result :: more, ?_⟩
        rw [List.mapM_cons, hresult, hmore]
        rfl

theorem exists_of_mapM_eq_error {f : α → Except ε β} {items : List α} {fault : ε}
    (hrun : items.mapM f = .error fault) : ∃ item ∈ items, f item = .error fault := by
  induction items with
  | nil => cases hrun
  | cons item rest ih =>
      rw [List.mapM_cons] at hrun
      rcases bind_eq_error_iff.mp hrun with hitem | ⟨result, -, hrun⟩
      · exact ⟨item, List.mem_cons_self, hitem⟩
      · rcases bind_eq_error_iff.mp hrun with hrest | ⟨results, -, hrun⟩
        · rcases ih hrest with ⟨other, hother, hfault⟩
          exact ⟨other, List.mem_cons_of_mem _ hother, hfault⟩
        · cases hrun

theorem getElem?_of_mapM {f : α → Except ε β} {items : List α} {results : List β}
    (hrun : items.mapM f = .ok results) {index : Nat} {result : β}
    (hresult : results[index]? = some result) :
    ∃ item, items[index]? = some item ∧ f item = .ok result :=
  exists_getElem?_of_forall₂ (forall₂_of_mapM hrun).flip hresult

theorem exists_perm_of_mapM {f : α → Except ε β} {items others : List α}
    (hperm : items.Perm others) {results : List β} (hrun : items.mapM f = .ok results) :
    ∃ moved, others.mapM f = .ok moved ∧ results.Perm moved := by
  induction hperm generalizing results with
  | nil => exact ⟨results, hrun, .rfl⟩
  | cons item _ ih =>
      rw [List.mapM_cons] at hrun
      rcases bind_eq_ok hrun with ⟨result, hitem, hrun⟩
      rcases bind_eq_ok hrun with ⟨more, hmore, hrun⟩
      cases hrun
      rcases ih hmore with ⟨moved, hmoved, hperm⟩
      refine ⟨result :: moved, ?_, hperm.cons result⟩
      rw [List.mapM_cons, hitem, hmoved]
      rfl
  | swap item other rest =>
      rw [List.mapM_cons, List.mapM_cons] at hrun
      rcases bind_eq_ok hrun with ⟨first, hfirst, hrun⟩
      rcases bind_eq_ok hrun with ⟨_, hrest, hrun⟩
      rcases bind_eq_ok hrest with ⟨second, hsecond, hrest⟩
      rcases bind_eq_ok hrest with ⟨more, hmore, hrest⟩
      cases hrest
      cases hrun
      refine ⟨second :: first :: more, ?_, .swap ..⟩
      rw [List.mapM_cons, List.mapM_cons, hsecond, hfirst, hmore]
      rfl
  | trans _ _ ih ih' =>
      rcases ih hrun with ⟨middle, hmiddle, hperm⟩
      rcases ih' hmiddle with ⟨moved, hmoved, hperm'⟩
      exact ⟨moved, hmoved, hperm.trans hperm'⟩

end Outcome
end WireSchema
