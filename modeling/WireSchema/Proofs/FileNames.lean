import Mathlib.Data.List.Perm.Basic
import WireSchema.Files.Load

/-!
# Names of files

A name in a directory is a text without slashes that is no dot and no step upwards.  If it has an
extension, it is its stem, a dot and the extension, so that files with one extension have different
stems.  The names that a list asks for are those in it, completed by an extension where it is
missing; how often and in which order a name is asked for says nothing.
-/

namespace WireSchema
namespace Files

/-! ## Names in a directory -/

/-- A name that stands for an entry of a directory. -/
structure IsPlain (name : String) : Prop where
  ne_empty : name ≠ ""
  slash : '/' ∉ name.toList
  ne_current : name ≠ currentDirectory
  ne_parent : name ≠ parentDirectory

theorem pieces_of_not_mem {separator : Char} {chars : List Char} (hchars : separator ∉ chars) :
    pieces separator chars = [chars] := by
  induction chars with
  | nil => rfl
  | cons c rest ih =>
      rw [List.mem_cons, not_or] at hchars
      rw [pieces, if_neg (Ne.symm hchars.1), ih hchars.2]

theorem components_of_isPlain {name : String} (hplain : IsPlain name) :
    components name = [name] := by
  have hparts : pathParts name = [name] := by
    rw [pathParts, pieces_of_not_mem hplain.slash]
    simp
  have hempty : name.isEmpty = false := by simpa using hplain.ne_empty
  rw [components, hparts]
  simp [hempty, hplain.ne_current, properNames]

theorem extension?_of_isPlain {name : String} (hplain : IsPlain name) :
    extension? name = (splitName name).2 := by
  have hroot : name ≠ rootComponent := by
    rintro rfl
    exact hplain.slash (by decide)
  have hname : fileName? name = some name := by
    simp [fileName?, components_of_isPlain hplain, hroot, hplain.ne_current, hplain.ne_parent]
  rw [extension?, hname, Option.bind_some]

theorem eq_of_splitName {name extension : String}
    (hextension : (splitName name).2 = some extension) :
    name = stem name ++ "." ++ extension := by
  unfold stem
  unfold splitName at hextension ⊢
  dsimp only at hextension ⊢
  split
  next c more hrest =>
    rw [hrest] at hextension
    cases hextension
    have hchars := List.takeWhile_append_dropWhile (p := (· ≠ '.')) (l := name.toList.reverse)
    rw [hrest] at hchars
    generalize name.toList.reverse.takeWhile (· ≠ '.') = ending at hchars ⊢
    rw [← String.toList_inj, ← List.reverse_reverse name.toList, ← hchars]
    simp
  next hnone =>
    split at hextension
    next c more hrest => exact absurd hrest (hnone c more)
    next => cases hextension

/-- Files with the same extension have different stems. -/
theorem eq_of_stem {name other extension : String} (hname : IsPlain name) (hother : IsPlain other)
    (hextension : extension? name = some extension)
    (hextension' : extension? other = some extension) (hstem : stem name = stem other) :
    name = other := by
  rw [extension?_of_isPlain hname] at hextension
  rw [extension?_of_isPlain hother] at hextension'
  rw [eq_of_splitName hextension, eq_of_splitName hextension', hstem]

theorem join_inj {directory name other : String} (hjoin : join directory name = join directory other) :
    name = other := by
  unfold join at hjoin
  split at hjoin
  · exact hjoin
  · simpa [← String.toList_inj] using hjoin
  · simpa [← String.toList_inj] using hjoin

/-! ## Names that are asked for -/

/-- An entry with the extension of documents is asked for by its name, or by its name without the
extension if what is left has none. -/
theorem mem_documentFiles_iff {name : String} {files : List String}
    (hextension : extension? name = some documentExtension) :
    name ∈ files.map documentFile ↔ name ∈ files ∨
      ∃ given ∈ files, extension? given ≠ some documentExtension ∧
        name = given ++ "." ++ documentExtension := by
  rw [List.mem_map]
  constructor
  · rintro ⟨given, hgiven, hfile⟩
    unfold documentFile at hfile
    split at hfile
    · exact .inl (hfile ▸ hgiven)
    next hother => exact .inr ⟨given, hgiven, hother, hfile.symm⟩
  · rintro (hname | ⟨given, hgiven, hother, rfl⟩)
    · exact ⟨name, hname, if_pos hextension⟩
    · exact ⟨given, hgiven, if_neg hother⟩

theorem mem_eraseReps_loop {x first : String} {rest sofar : List String} :
    x ∈ List.eraseRepsBy.loop (· == ·) first rest sofar ↔
      x ∈ sofar ∨ x = first ∨ x ∈ rest := by
  induction rest generalizing first sofar with
  | nil => simp [List.eraseRepsBy.loop, or_comm]
  | cons next rest ih =>
      rw [List.eraseRepsBy.loop]
      split
      next hsame =>
        have hsame' : first = next := by simpa using hsame
        rw [ih, List.mem_cons, hsame']
        tauto
      next =>
        rw [ih, List.mem_cons, List.mem_cons]
        tauto

/-- In an ascending list, equal entries are neighbours, and one of each is kept. -/
theorem pairwise_eraseReps_loop {first : String} {rest sofar : List String}
    (hsofar : (sofar.reverse ++ [first]).Pairwise (· < ·))
    (hrest : (first :: rest).Pairwise (· ≤ ·)) :
    (List.eraseRepsBy.loop (· == ·) first rest sofar).Pairwise (· < ·) := by
  induction rest generalizing first sofar with
  | nil => simpa [List.eraseRepsBy.loop] using hsofar
  | cons next rest ih =>
      rw [List.pairwise_cons, List.forall_mem_cons] at hrest
      rw [List.eraseRepsBy.loop]
      split
      next hsame =>
        have hsame' : first = next := by simpa using hsame
        exact ih hsofar (hsame' ▸ hrest.2)
      next hother =>
        have hlt : first < next := by
          refine Decidable.byContradiction fun hnot => ?_
          rw [beq_eq_false_iff_ne] at hother
          exact hother (String.le_antisymm hrest.1.1 (String.not_lt.mp hnot))
        refine ih ?_ hrest.2
        rw [List.reverse_cons, List.pairwise_append]
        refine ⟨hsofar, List.pairwise_singleton _ _, ?_⟩
        intro x hx y hy
        rw [List.mem_singleton.mp hy]
        rcases List.mem_append.mp hx with hx | hx
        · have hfirst := (List.pairwise_append.mp hsofar).2.2 x hx first (by simp)
          exact String.lt_trans hfirst hlt
        · rwa [List.mem_singleton.mp hx]

theorem pairwise_mergeSort_of_key {α : Type} (key : α → String) (items : List α) :
    (items.mergeSort fun a b => !decide (key b < key a)).Pairwise (fun a b => key a ≤ key b) := by
  have hle (a b : α) : (!decide (key b < key a)) = true ↔ key a ≤ key b := by
    rw [Bool.not_eq_true', decide_eq_false_iff_not, String.not_lt]
  refine (List.pairwise_mergeSort ?_ ?_ items).imp fun hordered => (hle _ _).mp hordered
  · intro a b c
    rw [hle, hle, hle]
    exact String.le_trans
  · intro a b
    rw [Bool.or_eq_true, hle, hle]
    exact String.le_total _ _

theorem mem_sortedNames {name : String} {names : List String} :
    name ∈ sortedNames names ↔ name ∈ names := by
  have hperm := names.mergeSort_perm fun a b => !decide (b < a)
  rw [sortedNames, ← hperm.mem_iff]
  cases names.mergeSort fun a b => !decide (b < a) with
  | nil => rfl
  | cons first rest =>
      rw [List.eraseReps, List.eraseRepsBy, mem_eraseReps_loop]
      simp

theorem pairwise_sortedNames (names : List String) : (sortedNames names).Pairwise (· < ·) := by
  have hsorted : (names.mergeSort fun a b => !decide (b < a)).Pairwise (· ≤ ·) :=
    pairwise_mergeSort_of_key id names
  rw [sortedNames]
  cases hnames : names.mergeSort fun a b => !decide (b < a) with
  | nil => exact .nil
  | cons first rest =>
      rw [hnames] at hsorted
      exact pairwise_eraseReps_loop (List.pairwise_singleton _ _) hsorted

/-- Only which names are asked for matters. -/
theorem sortedNames_congr {names others : List String}
    (hsame : ∀ name, name ∈ names ↔ name ∈ others) : sortedNames names = sortedNames others := by
  have hordered := pairwise_sortedNames names
  have hordered' := pairwise_sortedNames others
  have hne {a b : String} (hlt : a < b) : a ≠ b := by
    rintro rfl
    exact String.lt_irrefl a hlt
  apply List.Perm.eq_of_pairwise ?_ hordered hordered'
  · rw [List.perm_ext_iff_of_nodup (hordered.imp hne) (hordered'.imp hne)]
    intro name
    rw [mem_sortedNames, mem_sortedNames, hsame]
  · intro a b _ _ hlt hgt
    exact absurd hgt (String.lt_asymm hlt)

end Files
end WireSchema
