import Mathlib.Data.List.Nodup
import WireSchema.Proofs.Places

/-!
# What requests do to a tree

A file is written at the one place that its path leads to, and directories are made only where there
was nothing.  All other files stay, every directory stays, and a path that led somewhere leads there
still.  Writing to a file what it holds already changes nothing, nor does making a directory that
is there.
-/

namespace WireSchema
namespace FileTree

open Files

variable {tree later : FileTree} {place other : Place} {node : FileNode} {path : String}

/-! ## Nodes -/

theorem node?_nil : tree.node? [] = some .directory := rfl

theorem node?_of_ne_nil (hplace : place ≠ []) :
    tree.node? place = (tree.nodes.find? (·.1 == place)).map (·.2) :=
  if_neg (by simpa using hplace)

theorem find?_setNode (place other : Place) (node : FileNode) (nodes : List (Place × FileNode)) :
    ((setNode place node nodes).find? (·.1 == other)).map (·.2) =
      if other = place then some node else (nodes.find? (·.1 == other)).map (·.2) := by
  induction nodes with
  | nil =>
      rw [setNode]
      by_cases hsame : other = place
      · simp [hsame]
      · simp [hsame, Ne.symm hsame]
  | cons first rest ih =>
      rw [setNode]
      by_cases hfirst : first.1 = place
      · rw [if_pos hfirst]
        by_cases hsame : other = place
        · simp [hsame]
        · have hother : ¬ first.1 = other := fun h => hsame (h.symm.trans hfirst)
          simp [hsame, Ne.symm hsame, hother]
      · rw [if_neg hfirst]
        by_cases hother : first.1 = other
        · have hsame : ¬ other = place := fun h => hfirst (hother.trans h)
          simp [hother, hsame]
        · simpa [hother] using ih

theorem node?_put (hplace : place ≠ []) :
    (tree.put place node).node? other = if other = place then some node else tree.node? other := by
  by_cases hother : other = []
  · rw [hother, node?_nil, node?_nil, if_neg (Ne.symm hplace)]
  · rw [node?_of_ne_nil hother, node?_of_ne_nil hother]
    exact find?_setNode place other node tree.nodes

theorem setNode_self {nodes : List (Place × FileNode)}
    (hnode : (nodes.find? (·.1 == place)).map (·.2) = some node) :
    setNode place node nodes = nodes := by
  induction nodes with
  | nil => cases hnode
  | cons first rest ih =>
      rw [setNode]
      by_cases hfirst : first.1 = place
      · rw [if_pos hfirst]
        have hheld : first.2 = node := by simpa [hfirst] using hnode
        rw [← hfirst, ← hheld]
      · rw [if_neg hfirst, ih (by simpa [hfirst] using hnode)]

theorem put_self (hplace : place ≠ []) (hnode : tree.node? place = some node) :
    tree.put place node = tree := by
  rw [node?_of_ne_nil hplace] at hnode
  unfold put
  congr
  exact setNode_self hnode

theorem childName?_eq_some_iff {name : FileName} :
    childName? place other = some name ↔ other = place ++ [name] := by
  unfold childName?
  constructor
  · intro hchild
    split at hchild
    next last hlast =>
      split at hchild
      next houter =>
        rw [← houter, ← Option.some_inj.mp hchild]
        exact (List.dropLast_append_getLast? last hlast).symm
      next => cases hchild
    next => cases hchild
  · rintro rfl
    simp

theorem mem_childNames {name : FileName} :
    name ∈ tree.childNames place ↔ tree.node? (place ++ [name]) ≠ none := by
  rw [node?_of_ne_nil (by simp), childNames, List.mem_filterMap, ne_eq, Option.map_eq_none_iff,
    List.find?_eq_none]
  simp only [childName?_eq_some_iff, exists_eq_right, List.mem_map, not_forall, not_not, beq_iff_eq,
    exists_prop]

theorem nodup_childNames : (tree.childNames place).Nodup := by
  refine tree.distinct.filterMap ?_
  intro one another name hone hanother
  rw [Option.mem_def, childName?_eq_some_iff] at hone hanother
  rw [hone, hanother]

/-! ## What stays -/

/-- A later state of a tree, in which directories may have been made and no files but those written
are others. -/
structure Follows (later earlier : FileTree) (written : List Place) : Prop where
  start_eq : later.start = earlier.start
  refused_eq : later.refused = earlier.refused
  directory : ∀ place, earlier.node? place = some .directory → later.node? place = some .directory
  file : ∀ place, place ∉ written → ∀ bytes,
    later.node? place = some (.file bytes) ↔ earlier.node? place = some (.file bytes)

theorem Follows.refl (tree : FileTree) : tree.Follows tree [] :=
  ⟨rfl, rfl, fun _ hplace => hplace, fun _ _ _ => Iff.rfl⟩

theorem Follows.trans {middle : FileTree} {first second : List Place}
    (hsecond : later.Follows middle second) (hfirst : middle.Follows tree first) :
    later.Follows tree (first ++ second) where
  start_eq := hsecond.start_eq.trans hfirst.start_eq
  refused_eq := hsecond.refused_eq.trans hfirst.refused_eq
  directory := fun place hplace => hsecond.directory place (hfirst.directory place hplace)
  file := by
    intro place hplace bytes
    rw [List.mem_append, not_or] at hplace
    rw [hsecond.file place hplace.2, hfirst.file place hplace.1]

theorem ne_nil_of_node?_eq {held : Option FileNode} (hplace : tree.node? place = held)
    (hheld : held ≠ some .directory) : place ≠ [] := by
  rintro rfl
  exact hheld hplace.symm

theorem follows_put_directory (hplace : tree.node? place = none) :
    (tree.put place .directory).Follows tree [] where
  start_eq := rfl
  refused_eq := rfl
  directory := by
    intro other hother
    rw [node?_put (ne_nil_of_node?_eq hplace (by simp))]
    split
    · rfl
    · exact hother
  file := by
    intro other _ bytes
    rw [node?_put (ne_nil_of_node?_eq hplace (by simp))]
    split
    next hsame => simp [hsame, hplace]
    next => rfl

theorem follows_put_file (bytes : List UInt8) (hplace : tree.node? place ≠ some .directory) :
    (tree.put place (.file bytes)).Follows tree [place] where
  start_eq := rfl
  refused_eq := rfl
  directory := by
    intro other hother
    have hne : other ≠ place := by
      rintro rfl
      exact hplace hother
    rw [node?_put (ne_nil_of_node?_eq rfl hplace), if_neg hne, hother]
  file := by
    intro other hother _
    rw [node?_put (ne_nil_of_node?_eq rfl hplace), if_neg (by simpa using hother)]

namespace Follows

variable {written : List Place} (hfollows : later.Follows tree written)

include hfollows

theorem allows_eq (access : Access) (place : Place) :
    later.allows access place = tree.allows access place := by
  rw [allows, allows, hfollows.refused_eq]

theorem step {part : String} (hstep : tree.step place part = .ok other) :
    later.step place part = .ok other := by
  unfold FileTree.step at hstep ⊢
  split at hstep
  · cases hstep
  · cases hstep
  next hplace =>
    rw [hfollows.directory place hplace, hfollows.allows_eq]
    exact hstep

theorem foldlM_step {parts : List String} (hparts : parts.foldlM tree.step place = .ok other) :
    parts.foldlM later.step place = .ok other := by
  induction parts generalizing place with
  | nil => exact hparts
  | cons part rest ih =>
      rw [List.foldlM_cons] at hparts ⊢
      obtain ⟨inner, hstep, hrest⟩ := Outcome.bind_eq_ok hparts
      rw [hfollows.step hstep]
      exact ih hrest

/-- A path that led somewhere leads there still. -/
theorem locate (hpath : tree.locate path = .ok place) : later.locate path = .ok place := by
  unfold FileTree.locate at hpath ⊢
  split at hpath
  · cases hpath
  next hempty =>
    rw [if_neg hempty]
    split at hpath
    next hlength =>
      rw [if_pos hlength]
      unfold locateParts at hpath ⊢
      split at hpath
      · cases hpath
      next first rest =>
        rw [hfollows.start_eq]
        split at hpath
        next hroot =>
          rw [if_pos hroot]
          exact hfollows.foldlM_step hpath
        next hroot =>
          rw [if_neg hroot]
          exact hfollows.foldlM_step hpath
    next => cases hpath

end Follows

theorem isDirectory_iff : tree.isDirectory path = true ↔
    ∃ place, tree.locate path = .ok place ∧ tree.node? place = some .directory := by
  unfold isDirectory find?
  cases tree.locate path with
  | error fault => simp
  | ok place => simp

theorem Follows.isDirectory {written : List Place} (hfollows : later.Follows tree written)
    (hpath : tree.isDirectory path = true) : later.isDirectory path = true := by
  obtain ⟨place, hplace, hdirectory⟩ := isDirectory_iff.mp hpath
  exact isDirectory_iff.mpr ⟨place, hfollows.locate hplace, hfollows.directory place hdirectory⟩

/-! ## Writing files -/

/-- A file is written where its path leads to. -/
theorem write?_eq_some {bytes : List UInt8} (hwrite : tree.write? path bytes = some later) :
    ∃ place, tree.locate path = .ok place ∧ tree.node? place ≠ some .directory ∧
      tree.allows .change place = true ∧ later = tree.put place (.file bytes) := by
  unfold write? at hwrite
  cases hplace : tree.locate path with
  | error fault =>
      rw [hplace] at hwrite
      cases hwrite
  | ok place =>
      rw [hplace] at hwrite
      refine ⟨place, rfl, ?_⟩
      cases hnode : tree.node? place with
      | none =>
          simp only [hnode, mayAdd, Bool.and_eq_true] at hwrite
          split at hwrite
          next hopen => exact ⟨by simp, hopen.2, (Option.some.inj hwrite).symm⟩
          next => cases hwrite
      | some node =>
          cases node with
          | directory => simp [hnode] at hwrite
          | file held =>
              simp only [hnode] at hwrite
              split at hwrite
              next hopen => exact ⟨by simp, hopen, (Option.some.inj hwrite).symm⟩
              next => cases hwrite

/-- Writing what a file holds leaves the tree as it is. -/
theorem write?_self {bytes : List UInt8} (hplace : tree.locate path = .ok place)
    (hfile : tree.node? place = some (.file bytes)) (hopen : tree.allows .change place = true) :
    tree.write? path bytes = some tree := by
  have hself : tree.put place (.file bytes) = tree :=
    put_self (ne_nil_of_node?_eq hfile (by simp)) hfile
  simp [write?, hplace, hfile, hopen, hself]

/-! ## Making directories -/

theorem makeDirectory_eq_ok (hmade : tree.makeDirectory path = .ok later) :
    later.Follows tree [] ∧ later.isDirectory path = true := by
  unfold makeDirectory at hmade
  split at hmade
  next hpath =>
    split at hmade
    · cases hmade
    next place hplace =>
      split at hmade
      next hnew =>
        cases hmade
        have hnone : tree.node? place = none := by
          simp only [Bool.and_eq_true, decide_eq_true_eq] at hnew
          exact hnew.1
        have hfollows := follows_put_directory hnone
        have hdirectory : (tree.put place .directory).node? place = some .directory := by
          rw [node?_put (ne_nil_of_node?_eq hnone (by simp)), if_pos rfl]
        refine ⟨hfollows, isDirectory_iff.mpr ⟨place, ?_, hdirectory⟩⟩
        exact locate_of_withoutEndingSlashes hpath (hfollows.locate hplace) hdirectory
      next => cases hmade
  next => cases hmade

theorem follows_ensureDirectory (path : String) (tree : FileTree) :
    (tree.ensureDirectory path).2.Follows tree [] ∧
      ((tree.ensureDirectory path).1 = true →
        (tree.ensureDirectory path).2.isDirectory path = true) := by
  unfold ensureDirectory
  split
  next made hmade =>
    obtain ⟨hfollows, hdirectory⟩ := makeDirectory_eq_ok hmade
    exact ⟨hfollows, fun _ => hdirectory⟩
  next => exact ⟨.refl tree, id⟩

theorem follows_ensureDirectories (paths : List String) (tree : FileTree) :
    (tree.ensureDirectories paths).2.Follows tree [] ∧
      ((tree.ensureDirectories paths).1 = true →
        ∀ path ∈ paths, (tree.ensureDirectories paths).2.isDirectory path = true) := by
  induction paths generalizing tree with
  | nil => exact ⟨.refl tree, fun _ _ hpath => absurd hpath (List.not_mem_nil)⟩
  | cons path rest ih =>
      obtain ⟨hfollows, hdirectory⟩ := follows_ensureDirectory path tree
      rw [ensureDirectories]
      split
      next made hmade =>
        rw [hmade] at hfollows hdirectory
        obtain ⟨hrest, hothers⟩ := ih made
        refine ⟨hrest.trans hfollows, ?_⟩
        intro hok other hother
        rcases List.mem_cons.mp hother with rfl | hother
        · exact hrest.isDirectory (hdirectory rfl)
        · exact hothers hok other hother
      next made hmade =>
        rw [hmade] at hfollows
        exact ⟨hfollows, fun hok => absurd hok (by simp)⟩

/-- Making directories changes no file, and if it succeeds, the path leads to a directory. -/
theorem follows_makeDirectories (path : String) (tree : FileTree) :
    (tree.makeDirectories path).2.Follows tree [] ∧
      (path ≠ "" → (tree.makeDirectories path).1 = true →
        (tree.makeDirectories path).2.isDirectory path = true) := by
  unfold makeDirectories
  split
  next hempty => exact ⟨.refl tree, fun hpath => absurd (by simpa using hempty) hpath⟩
  next =>
    split
    next =>
      obtain ⟨hfollows, hdirectory⟩ :=
        follows_ensureDirectories (outerDirectories path ++ [path]) tree
      exact ⟨hfollows, fun _ hok => hdirectory hok path (by simp)⟩
    next =>
      obtain ⟨hfollows, hdirectory⟩ := follows_ensureDirectory path tree
      exact ⟨hfollows, fun _ => hdirectory⟩

theorem outerDirectories_of_slashes (hslashes : withoutEndingSlashes path = "") :
    outerDirectories path = [] := by
  obtain ⟨count, hsplit⟩ := exists_append_slashes path
  have hparts : pathParts path = "" :: List.replicate count "" := by
    rw [hsplit, hslashes, pathParts_append_slashes]
    rfl
  have hproper : properNames (List.replicate count "") = [] := by
    simp [properNames]
  have hcomponents : (components path).length ≤ 1 := by
    rw [components, hparts]
    change (if (List.replicate count "").isEmpty then [] else
      rootComponent :: properNames (List.replicate count "")).length ≤ 1
    rw [hproper]
    split <;> simp
  rw [outerDirectories, Nat.sub_eq_zero_of_le hcomponents]
  rfl

/-- Making a directory that is there leaves the tree as it is. -/
theorem makeDirectories_of_isDirectory (hpath : tree.isDirectory path = true) :
    tree.makeDirectories path = (true, tree) := by
  obtain ⟨place, hplace, hdirectory⟩ := isDirectory_iff.mp hpath
  have hempty : path ≠ "" := by
    rintro rfl
    cases hplace
  have hlength : isPath path = true := by
    by_contra hlong
    rw [locate, if_neg (by simpa using hempty), if_neg hlong] at hplace
    cases hplace
  have hensure {fault : PathFault} (hfault : tree.makeDirectory path = .error fault) :
      tree.ensureDirectory path = (true, tree) := by
    rw [ensureDirectory, hfault, hpath]
  rw [makeDirectories, if_neg (by simpa using hempty)]
  by_cases hslashes : withoutEndingSlashes path = ""
  · have hmissing : tree.makeDirectory path = .error .missing := by
      rw [makeDirectory, if_pos hlength, hslashes]
      rfl
    rw [hmissing, outerDirectories_of_slashes hslashes]
    dsimp only
    rw [List.nil_append, ensureDirectories, hensure hmissing]
    rfl
  · have hobstructed : tree.makeDirectory path = .error .obstructed := by
      rw [makeDirectory, if_pos hlength, locate_withoutEndingSlashes hlength hslashes hplace]
      simp [hdirectory]
    rw [hobstructed]
    exact hensure hobstructed

end FileTree
end WireSchema
