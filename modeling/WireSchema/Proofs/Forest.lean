import Mathlib.Data.List.Chain
import WireSchema.Proofs.Closed
import WireSchema.Proofs.Dispatch
import WireSchema.Proofs.Faults

/-!
# Inheritance is a forest

Where the parents form a cycle, every climb that leads into it comes back to an object that it has
passed, and is reported as a closed walk.  Where they do not, each object belongs to the tree of one
root, and looking for an ancestor comes to an end.
-/

namespace WireSchema

open Relation (ReflTransGen TransGen)

/-- A walk that ends where it has been before, and comes to no other place twice. -/
structure Closes {α : Type} (step : α → α → Prop) (walk : List α) : Prop where
  isChain : walk.IsChain step
  distinct : walk.dropLast.Nodup
  returns : ∃ last ∈ walk.dropLast, walk.getLast? = some last

namespace Closes

variable {α β : Type} {step : α → α → Prop} {step' : β → β → Prop} {walk : List α}

theorem exists_step (hwalk : Closes step walk) {place : α} (hplace : place ∈ walk) :
    ∃ next, step place next := by
  rcases hwalk.returns with ⟨last, hlast, hget⟩
  rcases List.getLast?_eq_some_iff.mp hget with ⟨front, rfl⟩
  rw [List.dropLast_concat] at hlast
  -- The last place is one of those before it, and so every place has one after it.
  have hfront : place ∈ front := by
    rcases List.mem_append.mp hplace with hfront | hend
    · exact hfront
    · rw [List.mem_singleton.mp hend]
      exact hlast
  rcases List.append_of_mem hfront with ⟨before, after, rfl⟩
  have hall := hwalk.isChain
  rw [List.append_assoc, List.cons_append] at hall
  have hrest := (List.isChain_split.mp hall).2
  cases after with
  | nil => exact ⟨last, (List.isChain_cons_cons.mp hrest).1⟩
  | cons next more => exact ⟨next, (List.isChain_cons_cons.mp hrest).1⟩

theorem map (hwalk : Closes step walk) {f : α → β}
    (hstep : ∀ place next, step place next → step' (f place) (f next))
    (hinj : ∀ first ∈ walk, ∀ second ∈ walk, f first = f second → first = second) :
    Closes step' (walk.map f) where
  isChain := (List.isChain_map f).mpr (hwalk.isChain.imp hstep)
  distinct := by
    rw [← List.map_dropLast]
    apply hwalk.distinct.map_on
    intro first hfirst second hsecond
    exact hinj first (List.dropLast_subset _ hfirst) second (List.dropLast_subset _ hsecond)
  returns := by
    rcases hwalk.returns with ⟨last, hlast, hget⟩
    refine ⟨f last, ?_, by rw [List.getLast?_map, hget, Option.map_some]⟩
    rw [← List.map_dropLast]
    exact List.mem_map_of_mem hlast

end Closes

namespace Batch

/-- A climb that comes back to its chain has walked from parent to parent. -/
theorem closes_of_ascend {parents : List (Option Nat)} {steps current : Nat}
    {chain closed : List Nat}
    (hrun : ascend parents steps (current :: chain) current = .error closed)
    (hnodup : (current :: chain).Nodup)
    (hchain : (current :: chain).IsChain fun above below => Up parents below above) :
    Closes (Up parents) closed.reverse := by
  -- The chain has the object climbed to first: read backwards it is the walk.
  induction steps generalizing current chain with
  | zero => cases hrun
  | succ steps ih =>
      rw [ascend] at hrun
      split at hrun
      next parent hparent =>
        have hup : Up parents current parent := by
          rw [Up, hparent, Option.join_some]
        have hlonger : (parent :: current :: chain).IsChain
            fun above below => Up parents below above := List.isChain_cons_cons.mpr ⟨hup, hchain⟩
        split at hrun
        next hmem =>
          cases hrun
          rw [List.contains_iff_mem] at hmem
          refine ⟨List.isChain_reverse.mpr hlonger, ?_, parent, ?_, ?_⟩
          · rw [List.reverse_cons, List.dropLast_concat]
            exact List.nodup_reverse.mpr hnodup
          · rw [List.reverse_cons, List.dropLast_concat]
            exact List.mem_reverse.mpr hmem
          · rw [List.reverse_cons, List.getLast?_concat]
        next hfresh =>
          have hfresh' : parent ∉ current :: chain := by simpa using hfresh
          exact ih hrun (List.nodup_cons.mpr ⟨hfresh', hnodup⟩) hlonger
      next => cases hrun

theorem closes_of_lineageOf {batch : Batch} {parents : List (Option Nat)} {start : Nat}
    {chain : List String}
    (hrun : batch.lineageOf parents start = .error (.inheritanceCycle chain)) :
    ∃ walk, Closes (Up parents) walk ∧ chain = walk.map batch.label := by
  unfold lineageOf at hrun
  split at hrun
  · cases hrun
  next closed hclosed =>
    cases hrun
    exact ⟨closed.reverse, closes_of_ascend hclosed (List.nodup_singleton _)
      (List.isChain_singleton _), rfl⟩

end Batch

/-! ## Cycles among the members -/

/-- What reports call a member. -/
def Member.label (member : Member) : String := member.space ++ ":" ++ member.object.tag

/-- No namespace occurs twice, and every parent that is named is there. -/
structure Linked (outlines : List Outline) : Prop where
  spaces : SpacesDistinct outlines
  parents : ∀ member ∈ membersOf outlines, ∀ link, member.object.parent = some link →
    DeclaresObject outlines link

namespace Batch
namespace Numbers

variable {batch : Batch} {outlines : List Outline} (hnumbers : batch.Numbers outlines)

include hnumbers

theorem exists_walk {parents : List (Option Nat)}
    (hparents : batch.objects.mapM batch.parentOf = .ok parents) {walk : List Nat}
    (hwalk : Closes (Up parents) walk) :
    ∃ members, Closes (Inherits outlines) members ∧
      walk.map batch.label = members.map Member.label := by
  have hplaced : ∀ number ∈ walk, ∃ placed, batch.objects[number]? = some placed := by
    intro number hnumber
    rcases hwalk.exists_step hnumber with ⟨next, hup⟩
    rcases (hnumbers.up_iff hparents).mp hup with ⟨placed, -, hplaced, -⟩
    exact ⟨placed, hplaced⟩
  -- A walk is not empty; one of its members stands in for those of numbers without an object.
  rcases hwalk.returns with ⟨last, hlast, -⟩
  rcases hplaced last (List.dropLast_subset _ hlast) with ⟨other, -⟩
  let memberAt (number : Nat) : Member :=
    (batch.objects[number]?.map PlacedObject.member).getD other.member
  have hmemberAt {number : Nat} {placed : PlacedObject}
      (hplaced : batch.objects[number]? = some placed) : memberAt number = placed.member := by
    simp [memberAt, hplaced]
  refine ⟨walk.map memberAt, hwalk.map ?_ ?_, ?_⟩
  · intro number next hup
    rcases (hnumbers.up_iff hparents).mp hup with ⟨placed, above, hnumber, hnext, hinherits⟩
    rw [hmemberAt hnumber, hmemberAt hnext]
    exact hinherits
  · intro first hfirst second hsecond hsame
    rcases hplaced first hfirst with ⟨placed, hnumber⟩
    rcases hplaced second hsecond with ⟨above, hnext⟩
    rw [hmemberAt hnumber, hmemberAt hnext] at hsame
    exact hnumbers.eq_of_member hnumber hnext hsame
  · rw [List.map_map]
    apply List.map_congr_left
    intro number hnumber
    rcases hplaced number hnumber with ⟨placed, hplaced⟩
    rw [Function.comp, hmemberAt hplaced, label, hplaced]
    rfl

theorem exists_walk_of_examine {chain : List String}
    (hrun : batch.examine = .error (.inheritanceCycle chain)) :
    Linked outlines ∧ ∃ walk, Closes (Inherits outlines) walk ∧ chain = walk.map Member.label := by
  rcases (examine_eq_error_lineages_iff rfl).mp hrun with ⟨parents, hparents, hrun⟩
  rcases Outcome.exists_of_mapM_eq_error hrun with ⟨number, -, hnumber⟩
  rcases closes_of_lineageOf hnumber with ⟨numbers, hnumbered, rfl⟩
  rcases hnumbers.exists_walk hparents hnumbered with ⟨walk, hwalk, hlabels⟩
  exact ⟨⟨hnumbers.spaces, hnumbers.exists_parents_iff.mp ⟨parents, hparents⟩⟩, walk, hwalk,
    hlabels⟩

/-- A cycle is reported exactly if there is one. -/
theorem exists_cycle_iff (hlinked : Linked outlines) :
    (∃ chain, batch.examine = .error (.inheritanceCycle chain)) ↔
      ∃ member, TransGen (Inherits outlines) member member := by
  rcases hnumbers.exists_parents_iff.mpr hlinked.parents with ⟨parents, hparents⟩
  have hlength := (Outcome.forall₂_of_mapM hparents).length_eq.symm
  have haccepted := (exists_lineages_iff hlength).trans (hnumbers.acyclic_iff hparents)
  have hcyclic : (∃ member, TransGen (Inherits outlines) member member) ↔
      ¬ ∃ lineages, (List.range batch.objects.length).mapM (batch.lineageOf parents) =
        .ok lineages := by
    rw [haccepted, not_forall_not]
  rw [hcyclic]
  constructor
  · rintro ⟨chain, hrun⟩ ⟨lineages, hlineages⟩
    rcases (examine_eq_error_lineages_iff rfl).mp hrun with ⟨other, hother, hrun⟩
    rw [hparents, Except.ok.injEq] at hother
    rw [← hother, hlineages] at hrun
    cases hrun
  · intro hrefused
    cases hrun : (List.range batch.objects.length).mapM (batch.lineageOf parents) with
    | ok lineages => exact absurd ⟨lineages, hrun⟩ hrefused
    | error fault =>
        have hstage := stage_of_mapM (fun _ _ => stage_of_lineageOf) hrun
        rcases SchemaError.stage_eq_lineages_iff.mp hstage with ⟨chain, rfl⟩
        exact ⟨chain, (examine_eq_error_lineages_iff rfl).mpr ⟨parents, hparents, hrun⟩⟩

end Numbers
end Batch

/-! ## Ancestors in the graph -/

namespace Graph

/-- The search for an ancestor, from an object upwards, ends with an answer. -/
inductive Searches (graph : Graph) (ancestor : ObjectId) : Option ObjectId → Bool → Prop where
  | missed : Searches graph ancestor none false
  | found : Searches graph ancestor (some ancestor) true
  | up {id : ObjectId} {result : Bool} (hother : id ≠ ancestor)
    (hparent : Searches graph ancestor (graph.object id).parent result) :
    Searches graph ancestor (some id) result

/-- Inheritance makes trees of the objects, each of them below its root. -/
structure Forest (graph : Graph) : Prop where
  root_iff : ∀ id root, id.index < graph.objects.size →
    ((graph.object id).root = root ↔
      (graph.object root).parent = none ∧ graph.IsKindOf id root)
  root_eq : ∀ id ancestor, id.index < graph.objects.size → graph.IsKindOf id ancestor →
    (graph.object id).root = (graph.object ancestor).root
  wellFounded : WellFounded fun parent child => (graph.object child).parent = some parent
  searches : ∀ id ancestor, graph.Searches ancestor (some id) (graph.isA id ancestor)
  isA_iff : ∀ id ancestor, graph.isA id ancestor = true ↔
    ReflTransGen (fun child parent => (graph.object child).parent = some parent) id ancestor
  isA_refl : ∀ id, graph.isA id id = true
  isA_trans : ∀ id middle ancestor, graph.isA id middle = true →
    graph.isA middle ancestor = true → graph.isA id ancestor = true
  isA_antisymm : ∀ id ancestor, graph.isA id ancestor = true → graph.isA ancestor id = true →
    id = ancestor
  isA_total : ∀ id first second, graph.isA id first = true → graph.isA id second = true →
    graph.isA first second = true ∨ graph.isA second first = true

variable {graph : Graph}

theorem searches_isA
    (hisA : ∀ id ancestor, graph.isA id ancestor = true ↔
      ReflTransGen (fun child parent => (graph.object child).parent = some parent) id ancestor)
    (hfounded : WellFounded fun parent child => (graph.object child).parent = some parent)
    (id ancestor : ObjectId) : graph.Searches ancestor (some id) (graph.isA id ancestor) := by
  induction id using hfounded.induction with
  | h id ih =>
      by_cases hsame : id = ancestor
      · rw [hsame, (hisA ancestor ancestor).mpr .refl]
        exact .found
      · apply Searches.up hsame
        cases hparent : (graph.object id).parent with
        | none =>
            have hmissed : graph.isA id ancestor = false := by
              rw [Bool.eq_false_iff, Ne, hisA]
              intro hpath
              rcases hpath.cases_head with rfl | ⟨parent, hup, -⟩
              · exact hsame rfl
              · rw [hparent] at hup
                cases hup
            rw [hmissed]
            exact .missed
        | some parent =>
            have hstep : graph.isA id ancestor = graph.isA parent ancestor := by
              rw [Bool.eq_iff_iff, hisA, hisA]
              constructor
              · intro hpath
                rcases hpath.cases_head with rfl | ⟨other, hup, hpath⟩
                · exact absurd rfl hsame
                · rw [hparent, Option.some.injEq] at hup
                  exact hup ▸ hpath
              · exact fun hpath => .head hparent hpath
            rw [hstep]
            exact ih parent hparent

end Graph

namespace Batch

variable {batch : Batch} {outlines : List Outline} {found : Findings}

section Ancestors

variable (hfound : batch.Examined found)

include hfound

/-- The root of an object is the only one of its ancestors that has no parent. -/
theorem root_eq_iff {id root : ObjectId} (hid : id.index < (batch.graph found).objects.size) :
    ((batch.graph found).object id).root = root ↔
      ((batch.graph found).object root).parent = none ∧ (batch.graph found).IsKindOf id root := by
  rw [size_graph] at hid
  have hplaced := List.getElem?_eq_getElem hid
  rcases hfound.exists_lineage id.index _ hplaced with ⟨lineage, hlineage, -, hchain⟩
  rcases hchain.exists_head with ⟨top, hhead, hnone⟩
  have hroot : ((batch.graph found).object id).root = ⟨top⟩ := by
    rcases List.head?_eq_some_iff.mp hhead with ⟨below, rfl⟩
    exact root_graph id.index hplaced hlineage
  rw [hroot, parent_graph_eq_none_iff hfound, isKindOf_iff hfound, ← hchain.mem_iff]
  constructor
  · rintro rfl
    exact ⟨hnone, List.mem_of_head? hhead⟩
  · rintro ⟨hnone', hmem⟩
    have hsame := hchain.head?_eq (.root hnone') hmem
    rw [hhead, List.head?_cons, Option.some.injEq] at hsame
    exact ObjectId.eq_of_index hsame

theorem wellFounded_parent :
    WellFounded fun parent child => ((batch.graph found).object child).parent = some parent := by
  constructor
  rintro ⟨number⟩
  rcases exists_lineage hfound number with ⟨lineage, hlineage, -⟩
  induction hlineage with
  | root hparent =>
      constructor
      intro parent hup
      rw [parent_graph_eq_some_iff hfound, Up, hparent] at hup
      cases hup
  | child hparent habove ih =>
      constructor
      rintro ⟨parent⟩ hup
      rw [parent_graph_eq_some_iff hfound, Up, hparent, Option.some.injEq] at hup
      cases hup
      exact ih

theorem isA_iff_reflTransGen (id ancestor : ObjectId) :
    (batch.graph found).isA id ancestor = true ↔
      ReflTransGen (fun child parent => ((batch.graph found).object child).parent = some parent)
        id ancestor := by
  rw [isA_iff_isKindOf hfound, Relation.reflTransGen_iff_eq_or_transGen, eq_comm]
  exact Iff.rfl

end Ancestors

theorem Numbers.forest_graph (hnumbers : batch.Numbers outlines) (hfound : batch.Examined found) :
    (batch.graph found).Forest where
  root_iff id root := root_eq_iff hfound
  root_eq id ancestor hid hkind := by
    have hancestor : ancestor.index < (batch.graph found).objects.size := by
      rcases hkind with rfl | hpath
      · exact hid
      · rcases hnumbers.exists_placed_of_descends hfound hpath with ⟨-, above, -, habove, -⟩
        exact lt_size_of_getElem? habove
    rcases (root_eq_iff hfound hancestor).mp rfl with ⟨hnone, habove⟩
    rw [isKindOf_iff hfound] at hkind habove
    exact (root_eq_iff hfound hid).mpr ⟨hnone, (isKindOf_iff hfound).mpr (hkind.trans habove)⟩
  wellFounded := wellFounded_parent hfound
  searches := Graph.searches_isA (isA_iff_reflTransGen hfound) (wellFounded_parent hfound)
  isA_iff := isA_iff_reflTransGen hfound
  isA_refl id := (isA_iff_reflTransGen hfound id id).mpr .refl
  isA_trans id middle ancestor hlower hupper := by
    rw [isA_iff_reflTransGen hfound] at hlower hupper ⊢
    exact hlower.trans hupper
  isA_antisymm id ancestor hup hback := by
    rw [isA_iff_isKindOf hfound, isKindOf_iff hfound] at hup
    rw [isA_iff_isKindOf hfound] at hback
    rcases hback with rfl | hpath
    · rfl
    · have hcycle := ((descends_iff hfound).mp hpath).trans_left hup
      exact absurd ((descends_iff hfound).mpr hcycle) (not_descends_self hfound ancestor)
  isA_total id first second hfirst hsecond := by
    rw [isA_iff_reflTransGen hfound] at hfirst hsecond ⊢
    rw [isA_iff_reflTransGen hfound]
    apply ReflTransGen.total_of_right_unique _ hfirst hsecond
    intro child parent other hparent hother
    rw [hparent, Option.some.injEq] at hother
    exact hother

end Batch

/-- Cycles are reported exactly where there are some, each as a walk from parent to parent, and a
graph is made of forests only.  The members of a walk are distinct, but for the last, at which it
closes; their labels may coincide, where names hold a `:`. -/
theorem Graph.compile_forest (documents : List Document) :
    (∀ outlines, documents.mapM Outline.ofDocument = .ok outlines → Linked outlines →
      ((∃ chain, compile documents = .error (.inheritanceCycle chain)) ↔
        ∃ member, TransGen (Inherits outlines) member member)) ∧
    (∀ chain, compile documents = .error (.inheritanceCycle chain) →
      ∃ outlines, documents.mapM Outline.ofDocument = .ok outlines ∧ Linked outlines ∧
        ∃ walk, Closes (Inherits outlines) walk ∧ chain = walk.map Member.label) ∧
    ∀ graph, compile documents = .ok graph → graph.Forest := by
  refine ⟨?_, ?_, ?_⟩
  · intro outlines hread hlinked
    rcases Batch.exists_ofOutlines_iff.mpr hlinked.spaces with ⟨batch, hbatch⟩
    have hnumbers := Batch.numbers_ofOutlines hbatch (proper_of_mapM hread)
    rw [← hnumbers.exists_cycle_iff hlinked]
    exact exists_congr fun chain => compile_eq_error_iff_examine hread hbatch
  · intro chain hrun
    rcases (compile_eq_error_iff (by simp [SchemaError.stage]) (by simp [SchemaError.stage])).mp
      hrun with ⟨outlines, hread, batch, hbatch, hrun⟩
    have hnumbers := Batch.numbers_ofOutlines hbatch (proper_of_mapM hread)
    rcases hnumbers.exists_walk_of_examine hrun with ⟨hlinked, hwalk⟩
    exact ⟨outlines, hread, hlinked, hwalk⟩
  · intro graph hcompile
    rcases exists_batch_of_compile hcompile with ⟨outlines, batch, found, hnumbers, hfound, rfl⟩
    exact hnumbers.forest_graph hfound

namespace Sample

/-- A family whose members inherit from one another in a circle, and an object outside of it. -/
def whirl : List Document :=
  [⟨"pond", .object [("drop@sea:wave", .object [])]⟩,
    ⟨"sea", .object [("wave@tide", .object []), ("tide@wave", .object [])]⟩]

theorem closes_whirl :
    (∃ outlines, whirl.mapM Outline.ofDocument = .ok outlines ∧
      (∃ member, TransGen (Inherits outlines) member member) ∧
        ∃ walk, Closes (Inherits outlines) walk ∧
          ["pond:drop", "sea:wave", "sea:tide", "sea:wave"] = walk.map Member.label) ∧
      (schemaOf 1 [ships, docks]).graph.Forest := by
  have hrun : Graph.compile whirl =
      .error (.inheritanceCycle ["pond:drop", "sea:wave", "sea:tide", "sea:wave"]) :=
    Outcome.eq_error_of_fault? (by decide +kernel)
  have hcompile : Graph.compile [ships, docks] = _ := compile_schemaOf 1 (by decide +kernel)
  constructor
  · rcases Graph.compile_forest whirl with ⟨hcycles, hwalks, -⟩
    rcases hwalks _ hrun with ⟨outlines, hread, hlinked, hwalk⟩
    exact ⟨outlines, hread, (hcycles outlines hread hlinked).mp ⟨_, hrun⟩, hwalk⟩
  · exact (Graph.compile_forest [ships, docks]).2.2 _ hcompile

end Sample

end WireSchema
