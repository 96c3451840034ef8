import Mathlib.Data.List.TakeWhile
import WireSchema.Files.Tree
import WireSchema.Proofs.FileNames
import WireSchema.Proofs.Outcomes
import WireSchema.Proofs.Scalars

/-!
# Places in a tree

A path that joins a directory and a name leads to the name within the directory, whichever way the
directory is spelled: from the root or not, with or without a slash at its end.  Since a name holds
no slash and is no step, nothing but the directory decides where the path leads.
-/

namespace WireSchema

open Files

/-! ## Names of entries -/

theorem Text.utf8_eq_flatMap (text : String) :
    Text.utf8 text = text.toList.flatMap String.utf8EncodeChar := by
  change text.toByteArray.data.toList = _
  rw [← String.utf8Encode_toList]
  simp [List.utf8Encode]

theorem Text.utf8_inj {text other : String} : Text.utf8 text = Text.utf8 other ↔ text = other := by
  constructor
  · intro hsame
    rw [← Option.some_inj, ← Text.ofUtf8?_utf8, hsame, Text.ofUtf8?_utf8]
  · exact congrArg Text.utf8

namespace FileName

variable {text : String} {name : FileName}

theorem of?_eq_some_iff : of? text = some name ↔ name.bytes = Text.utf8 text := by
  unfold of?
  constructor
  · intro hname
    split at hname
    · cases hname
      rfl
    · cases hname
  · rintro hbytes
    rcases name with ⟨bytes, hentry⟩
    subst hbytes
    rw [dif_pos hentry]

theorem of?_eq_some_iff_ofUtf8? : of? text = some name ↔ Text.ofUtf8? name.bytes = some text := by
  rw [of?_eq_some_iff]
  constructor
  · intro hbytes
    rw [hbytes, Text.ofUtf8?_utf8]
  · exact fun htext => (Text.utf8_of_ofUtf8? htext).symm

theorem isPlain_of_of? (hname : of? text = some name) : IsPlain text := by
  have hentry := name.isEntry
  rw [of?_eq_some_iff.mp hname] at hentry
  simp only [isEntryName, Bool.and_eq_true, Bool.not_eq_true', List.isEmpty_eq_false_iff,
    bne_iff_ne, ne_eq, Text.utf8_inj] at hentry
  obtain ⟨⟨⟨⟨⟨hempty, -⟩, -⟩, hslash⟩, hcurrent⟩, hparent⟩ := hentry
  refine ⟨?_, ?_, hcurrent, hparent⟩
  · rintro rfl
    exact hempty rfl
  · intro hmem
    have hbyte : (0x2f : UInt8) ∈ Text.utf8 text := by
      rw [Text.utf8_eq_flatMap, List.mem_flatMap]
      exact ⟨'/', hmem, by decide⟩
    rw [← List.contains_iff_mem, hslash] at hbyte
    cases hbyte

end FileName

/-! ## Parts of paths -/

namespace Files

theorem pieces_ne_nil (separator : Char) (chars : List Char) : pieces separator chars ≠ [] := by
  cases chars with
  | nil => simp [pieces]
  | cons c rest =>
      rw [pieces]
      split
      · simp
      · split <;> simp

theorem pieces_append (separator : Char) (front back : List Char) :
    pieces separator (front ++ separator :: back) =
      pieces separator front ++ pieces separator back := by
  induction front with
  | nil => simp [pieces]
  | cons c rest ih =>
      rw [List.cons_append, pieces, pieces, ih]
      split
      · rfl
      · cases hpieces : pieces separator rest with
        | nil => exact absurd hpieces (pieces_ne_nil separator rest)
        | cons first others => rfl

theorem pathParts_ne_nil (path : String) : pathParts path ≠ [] := by
  simpa [pathParts] using pieces_ne_nil '/' path.toList

theorem pathParts_append (front back : String) :
    pathParts (front ++ "/" ++ back) = pathParts front ++ pathParts back := by
  have hchars : (front ++ "/" ++ back).toList = front.toList ++ '/' :: back.toList := by simp
  rw [pathParts, hchars, pieces_append, List.map_append]
  rfl

theorem pathParts_of_isPlain {name : String} (hplain : IsPlain name) : pathParts name = [name] := by
  rw [pathParts, pieces_of_not_mem hplain.slash]
  simp

theorem ne_empty_of_slash (front back : String) : front ++ "/" ++ back ≠ "" := by
  intro hempty
  have hchars := congrArg String.toList hempty
  simp at hchars

theorem exists_append_slash {text : String} (hlast : text.toList.getLast? = some '/') :
    ∃ front : String, text = front ++ "/" := by
  obtain ⟨chars, hchars⟩ := List.getLast?_eq_some_iff.mp hlast
  exact ⟨String.ofList chars, by rw [← String.toList_inj, hchars]; simp⟩

end Files

/-! ## Where paths lead -/

namespace FileTree

variable {tree : FileTree}

theorem step_empty {place : Place} (hplace : tree.node? place = some .directory) :
    tree.step place "" = .ok place := by
  rw [step, hplace]
  rfl

/-- An empty part leads nowhere else, and fails where any other part lacks a directory. -/
theorem step_empty_bind (place : Place) (part : String) :
    (tree.step place "" >>= fun inner => tree.step inner part) = tree.step place part := by
  cases hnode : tree.node? place with
  | none =>
      rw [step, step, hnode]
      rfl
  | some node =>
      cases node with
      | file bytes =>
          rw [step, step, hnode]
          rfl
      | directory =>
          rw [step_empty hnode]
          rfl

theorem locateParts_append {parts : List String} (more : List String) (hparts : parts ≠ []) :
    tree.locateParts (parts ++ more) =
      (tree.locateParts parts >>= fun place => more.foldlM tree.step place) := by
  cases parts with
  | nil => exact absurd rfl hparts
  | cons first rest =>
      rw [List.cons_append, locateParts, locateParts]
      split
      · rw [List.foldlM_append]
      · rw [← List.cons_append, List.foldlM_append]

theorem isPath_of_append {front back : String} (hpath : isPath (front ++ back) = true) :
    isPath front = true := by
  simp only [isPath, Bool.and_eq_true, decide_eq_true_eq, Bool.not_eq_true', String.toList_append,
    List.contains_append, Bool.or_eq_false_iff, String.utf8ByteSize_append] at hpath ⊢
  exact ⟨by omega, hpath.2.1⟩

theorem locate_eq_of_isPath {path : String} (hempty : path ≠ "") (hpath : isPath path = true) :
    tree.locate path = tree.locateParts (pathParts path) := by
  rw [locate, if_neg (by simpa using hempty), if_pos hpath]

theorem locate_join {directory name : String} (hdirectory : directory ≠ "") (hplain : IsPlain name)
    (hpath : isPath (join directory name) = true) :
    tree.locate (join directory name) =
      (tree.locate directory >>= fun place => tree.step place name) := by
  unfold join at hpath ⊢
  split at hpath
  next hlast => simp [hdirectory] at hlast
  next hlast =>
    obtain ⟨front, rfl⟩ := exists_append_slash hlast
    have hparts : pathParts (front ++ "/") = pathParts front ++ [""] := by
      rw [← String.append_empty (s := front ++ "/"), pathParts_append]
      rfl
    have hlonger : front ++ "/" ++ name ≠ "" := ne_empty_of_slash front name
    rw [locate_eq_of_isPath hdirectory (isPath_of_append hpath), locate_eq_of_isPath hlonger hpath,
      hparts, pathParts_append, pathParts_of_isPlain hplain,
      locateParts_append _ (pathParts_ne_nil front), locateParts_append _ (pathParts_ne_nil front)]
    simp only [List.foldlM_cons, List.foldlM_nil, bind_pure, bind_assoc, step_empty_bind]
  next hlast =>
    have hlonger : directory ++ "/" ++ name ≠ "" := ne_empty_of_slash directory name
    have hshorter := isPath_of_append (isPath_of_append hpath)
    rw [locate_eq_of_isPath hdirectory hshorter, locate_eq_of_isPath hlonger hpath,
      pathParts_append, pathParts_of_isPlain hplain, locateParts_append _ (pathParts_ne_nil _)]
    simp only [List.foldlM_cons, List.foldlM_nil, bind_pure]

theorem step_eq_ok_iff_of_isPlain {place after : Place} {part : String} (hplain : IsPlain part) :
    tree.step place part = .ok after ↔
      tree.node? place = some .directory ∧ tree.allows .enter place = true ∧
        ∃ name, FileName.of? part = some name ∧ after = place ++ [name] := by
  have hempty : part.isEmpty = false := by simpa using hplain.ne_empty
  unfold step
  cases hnode : tree.node? place with
  | none => simp
  | some node =>
      cases node with
      | file bytes => simp
      | directory =>
          cases henter : tree.allows .enter place with
          | false => simp [hempty]
          | true =>
              cases hname : FileName.of? part with
              | none => simp [hempty, hplain.ne_current, hplain.ne_parent]
              | some name => simp [hempty, hplain.ne_current, hplain.ne_parent, eq_comm]

/-- A name in a directory is found exactly below the place of the directory, if the way on from
there is not refused and the path of both is not too long. -/
theorem locate_join_eq_ok_iff {directory name : String} {place : Place}
    (hdirectory : directory ≠ "") (hplain : IsPlain name) :
    tree.locate (join directory name) = .ok place ↔
      isPath (join directory name) = true ∧ ∃ outer, tree.locate directory = .ok outer ∧
        tree.node? outer = some .directory ∧ tree.allows .enter outer = true ∧
          ∃ entry, FileName.of? name = some entry ∧ place = outer ++ [entry] := by
  cases hpath : isPath (join directory name) with
  | false =>
      simp only [Bool.false_eq_true, false_and, iff_false]
      intro hplace
      unfold locate at hplace
      split at hplace
      · cases hplace
      · rw [hpath] at hplace
        cases hplace
  | true =>
      simp only [true_and, ← step_eq_ok_iff_of_isPlain hplain]
      rw [locate_join hdirectory hplain hpath]
      constructor
      · exact Outcome.bind_eq_ok
      · rintro ⟨outer, houter, hstep⟩
        rw [houter]
        exact hstep

/-! ## Slashes at the end -/

theorem pieces_replicate (separator : Char) (count : Nat) :
    pieces separator (List.replicate count separator) = List.replicate (count + 1) [] := by
  induction count with
  | zero => rfl
  | succ count ih =>
      rw [List.replicate_succ, pieces, if_pos rfl, ih]
      rfl

theorem exists_append_slashes (path : String) :
    ∃ count, path = withoutEndingSlashes path ++ String.ofList (List.replicate count '/') := by
  have hchars := List.takeWhile_append_dropWhile (p := (· = '/')) (l := path.toList.reverse)
  refine ⟨(path.toList.reverse.takeWhile (· = '/')).length, ?_⟩
  have hslashes : path.toList.reverse.takeWhile (· = '/') =
      List.replicate (path.toList.reverse.takeWhile (· = '/')).length '/' := by
    refine List.eq_replicate_iff.mpr ⟨rfl, ?_⟩
    intro c hc
    simpa using List.mem_takeWhile_imp hc
  rw [← String.toList_inj, withoutEndingSlashes, String.toList_append, String.toList_ofList,
    String.toList_ofList]
  nth_rewrite 1 [← List.reverse_reverse path.toList, ← hchars]
  rw [List.reverse_append, hslashes]
  simp

theorem pathParts_append_slashes (front : String) (count : Nat) :
    pathParts (front ++ String.ofList (List.replicate count '/')) =
      pathParts front ++ List.replicate count "" := by
  rw [pathParts, String.toList_append, String.toList_ofList]
  cases count with
  | zero => simp [pathParts]
  | succ count =>
      rw [List.replicate_succ, pieces_append, pieces_replicate, List.map_append,
        List.map_replicate]
      rfl

theorem locate_eq_bind_slashes (tree : FileTree) {path : String} (hpath : isPath path = true)
    (hempty : withoutEndingSlashes path ≠ "") :
    ∃ count, tree.locate path = (tree.locate (withoutEndingSlashes path) >>= fun place =>
      (List.replicate count "").foldlM tree.step place) := by
  obtain ⟨count, hsplit⟩ := exists_append_slashes path
  generalize withoutEndingSlashes path = front at hempty hsplit
  subst hsplit
  have hlonger : front ++ String.ofList (List.replicate count '/') ≠ "" := by
    simp [hempty]
  refine ⟨count, ?_⟩
  rw [locate_eq_of_isPath hlonger hpath, locate_eq_of_isPath hempty (isPath_of_append hpath),
    pathParts_append_slashes, locateParts_append _ (pathParts_ne_nil front)]

theorem eq_of_step_empty {place after : Place} (hstep : tree.step place "" = .ok after) :
    after = place := by
  unfold step at hstep
  split at hstep
  · cases hstep
  · cases hstep
  · exact (Except.ok.inj hstep).symm

/-- A directory is found with slashes at the end of its path as without them. -/
theorem locate_of_withoutEndingSlashes {path : String} {place : Place} (hpath : isPath path = true)
    (hplace : tree.locate (withoutEndingSlashes path) = .ok place)
    (hdirectory : tree.node? place = some .directory) : tree.locate path = .ok place := by
  have hempty : withoutEndingSlashes path ≠ "" := by
    intro hempty
    rw [hempty] at hplace
    cases hplace
  obtain ⟨count, hlocate⟩ := tree.locate_eq_bind_slashes hpath hempty
  rw [hlocate, hplace]
  change (List.replicate count "").foldlM tree.step place = _
  clear hlocate
  induction count with
  | zero => rfl
  | succ count ih =>
      rw [List.replicate_succ, List.foldlM_cons, step_empty hdirectory]
      exact ih

theorem locate_withoutEndingSlashes {path : String} {place : Place} (hpath : isPath path = true)
    (hempty : withoutEndingSlashes path ≠ "") (hplace : tree.locate path = .ok place) :
    tree.locate (withoutEndingSlashes path) = .ok place := by
  obtain ⟨count, hlocate⟩ := tree.locate_eq_bind_slashes hpath hempty
  rw [hlocate] at hplace
  obtain ⟨front, hfront, hslashes⟩ := Outcome.bind_eq_ok hplace
  rw [hfront]
  clear hlocate hplace hfront
  induction count with
  | zero => exact hslashes
  | succ count ih =>
      rw [List.replicate_succ, List.foldlM_cons] at hslashes
      obtain ⟨after, hstep, hrest⟩ := Outcome.bind_eq_ok hslashes
      rw [eq_of_step_empty hstep] at hrest
      exact ih hrest

end FileTree
end WireSchema
