import Mathlib.Logic.Relation
import WireSchema.Proofs.Outcomes
import WireSchema.Schema.Resolve

/-!
# Lineages

The lineage of an object is found by climbing from parent to parent.  It contains no object twice,
so that the steps of the climb suffice, and climbing in the graph gives the same objects the other
way round.  An object inherits from exactly the members of its lineage.
-/

namespace WireSchema

/-- The objects from the root of a family down to one of its members. -/
inductive Lineage (parents : List (Option Nat)) : Nat → List Nat → Prop where
  | root {number : Nat} (hparent : parents[number]?.join = none) : Lineage parents number [number]
  | child {number parent : Nat} {above : List Nat} (hparent : parents[number]?.join = some parent)
      (habove : Lineage parents parent above) : Lineage parents number (above ++ [number])

namespace Lineage

variable {parents : List (Option Nat)} {number ancestor : Nat} {lineage : List Nat}

theorem ne_nil (hlineage : Lineage parents number lineage) : lineage ≠ [] := by
  cases hlineage <;> simp

theorem dropLast_append (hlineage : Lineage parents number lineage) :
    lineage.dropLast ++ [number] = lineage := by
  cases hlineage with
  | root => rfl
  | child => rw [List.dropLast_concat]

theorem exists_upper (hlineage : Lineage parents number lineage) (hmem : ancestor ∈ lineage) :
    ∃ above, Lineage parents ancestor above ∧ above <+: lineage := by
  induction hlineage with
  | root hparent =>
      rw [List.mem_singleton.mp hmem]
      exact ⟨_, .root hparent, List.prefix_rfl⟩
  | child hparent habove ih =>
      rcases List.mem_append.mp hmem with hmem | hmem
      · obtain ⟨above, hancestor, hupper⟩ := ih hmem
        exact ⟨above, hancestor, hupper.trans (List.prefix_append _ _)⟩
      · rw [List.mem_singleton.mp hmem]
        exact ⟨_, .child hparent habove, List.prefix_rfl⟩

theorem eq_of_lineage {other : List Nat} (hlineage : Lineage parents number lineage)
    (hother : Lineage parents number other) : lineage = other := by
  induction hlineage generalizing other with
  | root hparent =>
      cases hother with
      | root => rfl
      | child hparent' =>
          rw [hparent] at hparent'
          cases hparent'
  | child hparent habove ih =>
      cases hother with
      | root hparent' =>
          rw [hparent] at hparent'
          cases hparent'
      | child hparent' habove' =>
          rw [hparent, Option.some.injEq] at hparent'
          subst hparent'
          rw [ih habove']

/-- A lineage depends on nothing but the parents. -/
theorem congr {others : List (Option Nat)} (hlineage : Lineage parents number lineage)
    (hsame : ∀ number : Nat, parents[number]?.join = others[number]?.join) :
    Lineage others number lineage := by
  induction hlineage with
  | root hparent => exact .root (hsame _ ▸ hparent)
  | child hparent _ ih => exact .child (hsame _ ▸ hparent) ih

/-- All members of a family have the same root. -/
theorem head?_eq {above : List Nat} (hlineage : Lineage parents number lineage)
    (habove : Lineage parents ancestor above) (hmem : ancestor ∈ lineage) :
    lineage.head? = above.head? := by
  obtain ⟨other, hother, hupper⟩ := hlineage.exists_upper hmem
  rw [habove.eq_of_lineage hother]
  obtain ⟨below, rfl⟩ := hupper
  rw [List.head?_append_of_ne_nil _ hother.ne_nil]

theorem exists_child {root next : Nat} {more : List Nat}
    (hlineage : Lineage parents number (root :: next :: more)) :
    ∃ child : Nat, parents[child]?.join = some root := by
  generalize hall : root :: next :: more = lineage at hlineage
  induction hlineage generalizing next more with
  | root hparent => cases hall
  | @child number parent above hparent habove ih =>
      cases habove with
      | root hparent' =>
          cases hall
          exact ⟨number, hparent⟩
      | @child parent grandparent higher hparent' hhigher =>
          obtain ⟨first, rest, rfl⟩ := List.exists_cons_of_ne_nil hhigher.ne_nil
          rw [List.cons_append, List.cons_append, List.cons.injEq] at hall
          obtain ⟨rfl, hall⟩ := hall
          cases rest with
          | nil => exact ih rfl
          | cons second rest => exact ih rfl

theorem lt_of_join {parent : Nat} (hparent : parents[number]?.join = some parent) :
    number < parents.length := by
  cases hnumber : parents[number]? with
  | none =>
      rw [hnumber] at hparent
      cases hparent
  | some _ => exact (List.getElem?_eq_some_iff.mp hnumber).1

theorem lt_of_mem_tail (hlineage : Lineage parents number lineage) :
    ∀ member ∈ lineage.tail, member < parents.length := by
  induction hlineage with
  | root hparent => simp
  | child hparent habove ih =>
      intro member hmember
      rw [List.tail_append_of_ne_nil habove.ne_nil] at hmember
      rcases List.mem_append.mp hmember with hmember | hmember
      · exact ih member hmember
      · rw [List.mem_singleton.mp hmember]
        exact lt_of_join hparent

theorem exists_head (hlineage : Lineage parents number lineage) :
    ∃ root, lineage.head? = some root ∧ parents[root]?.join = none := by
  induction hlineage with
  | root hparent => exact ⟨_, rfl, hparent⟩
  | child hparent habove ih =>
      rw [List.head?_append_of_ne_nil _ habove.ne_nil]
      exact ih

end Lineage

/-! ## Following the parents -/

/-- The second object is the parent of the first. -/
def Up (parents : List (Option Nat)) (number parent : Nat) : Prop :=
  parents[number]?.join = some parent

namespace Lineage

variable {parents : List (Option Nat)} {number ancestor : Nat} {lineage : List Nat}

open Relation (ReflTransGen TransGen)

theorem mem_iff (hlineage : Lineage parents number lineage) :
    ancestor ∈ lineage ↔ ReflTransGen (Up parents) number ancestor := by
  induction hlineage with
  | @root number hparent =>
      rw [List.mem_singleton]
      constructor
      · rintro rfl
        exact .refl
      · intro hpath
        rcases hpath.cases_head with rfl | ⟨parent, hup, -⟩
        · rfl
        · rw [Up, hparent] at hup
          cases hup
  | @child number parent above hparent habove ih =>
      rw [List.mem_append, List.mem_singleton, ih]
      constructor
      · rintro (hpath | rfl)
        · exact .head hparent hpath
        · exact .refl
      · intro hpath
        rcases hpath.cases_head with rfl | ⟨next, hup, hpath⟩
        · exact .inr rfl
        · rw [Up, hparent, Option.some.injEq] at hup
          exact .inl (hup ▸ hpath)

theorem length_lt {above : List Nat} (hlineage : Lineage parents number lineage)
    (habove : Lineage parents ancestor above)
    (hpath : TransGen (Up parents) number ancestor) : above.length < lineage.length := by
  induction hpath using TransGen.head_induction_on generalizing lineage with
  | single hup =>
      cases hlineage with
      | root hparent =>
          rw [Up, hparent] at hup
          cases hup
      | child hparent hother =>
          rw [Up, hparent, Option.some.injEq] at hup
          subst hup
          rw [habove.eq_of_lineage hother]
          simp
  | head hup _ ih =>
      cases hlineage with
      | root hparent =>
          rw [Up, hparent] at hup
          cases hup
      | child hparent hother =>
          rw [Up, hparent, Option.some.injEq] at hup
          subst hup
          have hless := ih hother
          rw [List.length_append]
          omega

/-- What has a lineage is not reached again. -/
theorem not_transGen_self (hlineage : Lineage parents number lineage) :
    ¬ TransGen (Up parents) number number :=
  fun hpath => Nat.lt_irrefl _ (hlineage.length_lt hlineage hpath)

theorem mem_dropLast_iff (hlineage : Lineage parents number lineage) :
    ancestor ∈ lineage.dropLast ↔ TransGen (Up parents) number ancestor := by
  cases hlineage with
  | root hparent =>
      constructor
      · intro hmem
        cases hmem
      · intro hpath
        rcases TransGen.head'_iff.mp hpath with ⟨parent, hup, -⟩
        rw [Up, hparent] at hup
        cases hup
  | child hparent habove =>
      rw [List.dropLast_concat, habove.mem_iff, TransGen.head'_iff]
      constructor
      · exact fun hpath => ⟨_, hparent, hpath⟩
      · rintro ⟨parent, hup, hpath⟩
        rw [Up, hparent, Option.some.injEq] at hup
        exact hup ▸ hpath

end Lineage

theorem length_le_of_nodup {numbers : List Nat} {bound : Nat} (hnodup : numbers.Nodup)
    (hbound : ∀ number ∈ numbers, number < bound) : numbers.length ≤ bound := by
  have hsub : numbers ⊆ List.range bound := fun number hnumber =>
    List.mem_range.mpr (hbound number hnumber)
  have hlength := hnodup.length_le_of_subset hsub
  rw [List.length_range] at hlength
  exact hlength

namespace Batch

/-- A climb that comes to its end has found the lineage.  Every step is made from a member of the
chain that has a parent, so that steps are left as long as there are parents. -/
theorem exists_lineage_of_ascend {parents : List (Option Nat)} {steps current : Nat}
    {chain result : List Nat}
    (hrun : ascend parents steps (current :: chain) current = .ok result)
    (hnodup : (current :: chain).Nodup) (hchain : ∀ number ∈ chain, number < parents.length)
    (hsteps : steps + chain.length = parents.length + 1) :
    result.Nodup ∧ ∃ lineage, Lineage parents current lineage ∧ result = lineage ++ chain := by
  induction steps generalizing current chain with
  | zero =>
      -- Without a step left, the chain would hold more numbers than there are parents.
      have hlength := length_le_of_nodup (List.nodup_cons.mp hnodup).2 hchain
      omega
  | succ steps ih =>
      rw [ascend] at hrun
      split at hrun
      next parent hparent =>
        have hjoin : parents[current]?.join = some parent := by
          rw [hparent]
          rfl
        split at hrun
        · cases hrun
        next hfresh =>
          have hfresh' : parent ∉ current :: chain := by
            simpa using hfresh
          have hlonger : ∀ number ∈ current :: chain, number < parents.length :=
            List.forall_mem_cons.mpr ⟨Lineage.lt_of_join hjoin, hchain⟩
          obtain ⟨hresult, lineage, hlineage, rfl⟩ :=
            ih hrun (List.nodup_cons.mpr ⟨hfresh', hnodup⟩) hlonger
              (by rw [List.length_cons]; omega)
          refine ⟨hresult, lineage ++ [current], .child hjoin hlineage, ?_⟩
          rw [List.append_assoc, List.singleton_append]
      next hnone =>
        cases hrun
        refine ⟨hnodup, [current], .root ?_, rfl⟩
        cases hparent : parents[current]? with
        | none => rfl
        | some parent =>
            cases parent with
            | none => rfl
            | some parent => exact absurd hparent (hnone parent)

theorem lineage_of_lineageOf {batch : Batch} {parents : List (Option Nat)} {start : Nat}
    {lineage : List Nat} (hrun : batch.lineageOf parents start = .ok lineage) :
    lineage.Nodup ∧ Lineage parents start lineage := by
  unfold lineageOf at hrun
  split at hrun
  next found hfound =>
    cases hrun
    obtain ⟨hnodup, other, hother, rfl⟩ := exists_lineage_of_ascend hfound
      (by simp) (by simp) rfl
    rw [List.append_nil] at hnodup ⊢
    exact ⟨hnodup, hother⟩
  next => cases hrun

theorem exists_getElem?_lineages {batch : Batch} {parents : List (Option Nat)}
    {lineages : List (List Nat)}
    (hlineages : (List.range batch.objects.length).mapM (batch.lineageOf parents) = .ok lineages)
    {number : Nat} {placed : PlacedObject} (hplaced : batch.objects[number]? = some placed) :
    ∃ lineage, lineages[number]? = some lineage ∧ lineage.Nodup ∧
      Lineage parents number lineage := by
  have hnumber := (List.getElem?_eq_some_iff.mp hplaced).1
  rcases Outcome.exists_getElem?_of_mapM hlineages (List.getElem?_range hnumber) with
    ⟨lineage, hlineage, hrun⟩
  exact ⟨lineage, hlineage, lineage_of_lineageOf hrun⟩

theorem lineage_of_getElem? {batch : Batch} {parents : List (Option Nat)}
    {lineages : List (List Nat)}
    (hlineages : (List.range batch.objects.length).mapM (batch.lineageOf parents) = .ok lineages)
    {number : Nat} {lineage : List Nat} (hlineage : lineages[number]? = some lineage) :
    Lineage parents number lineage := by
  rcases Outcome.getElem?_of_mapM hlineages hlineage with ⟨other, hother, hrun⟩
  rcases List.getElem?_eq_some_iff.mp hother with ⟨hrange, hother⟩
  rw [List.getElem_range] at hother
  subst hother
  exact (lineage_of_lineageOf hrun).2

open Relation (ReflTransGen TransGen) in
/-- Without cycles every climb comes to its end. -/
theorem exists_ascend {parents : List (Option Nat)}
    (hacyclic : ∀ number, ¬ TransGen (Up parents) number number) {steps current : Nat}
    {chain : List Nat} (hchain : ∀ member ∈ chain, ReflTransGen (Up parents) member current) :
    ∃ lineage, ascend parents steps chain current = .ok lineage := by
  induction steps generalizing current chain with
  | zero => exact ⟨chain, rfl⟩
  | succ steps ih =>
      rw [ascend]
      split
      next parent hparent =>
        have hup : Up parents current parent := by
          rw [Up, hparent, Option.join_some]
        split
        next hmem =>
          have hpath := hchain parent (by simpa using hmem)
          exact absurd (TransGen.head' hup hpath) (hacyclic current)
        next hfresh =>
          apply ih
          intro member hmember
          rcases List.mem_cons.mp hmember with rfl | hmember
          · exact .refl
          · exact (hchain member hmember).tail hup
      next => exact ⟨chain, rfl⟩

/-- All lineages are found exactly if no object is reached again. -/
theorem exists_lineages_iff {batch : Batch} {parents : List (Option Nat)}
    (hlength : parents.length = batch.objects.length) :
    (∃ lineages, (List.range batch.objects.length).mapM (batch.lineageOf parents) =
        .ok lineages) ↔
      ∀ number, ¬ Relation.TransGen (Up parents) number number := by
  rw [Outcome.exists_mapM_iff]
  constructor
  · intro hall number hpath
    have hnumber : number < parents.length := by
      rcases Relation.TransGen.head'_iff.mp hpath with ⟨parent, hup, -⟩
      exact Lineage.lt_of_join hup
    rcases hall number (List.mem_range.mpr (hlength ▸ hnumber)) with ⟨lineage, hrun⟩
    exact (lineage_of_lineageOf hrun).2.not_transGen_self hpath
  · intro hacyclic number _
    have hclimb : ∃ lineage, ascend parents (parents.length + 1) [number] number = .ok lineage := by
      apply exists_ascend hacyclic
      intro member hmember
      rw [List.mem_singleton.mp hmember]
    rcases hclimb with ⟨lineage, hrun⟩
    exact ⟨lineage, by rw [lineageOf, hrun]⟩

end Batch

/-! ## Climbing in the graph -/

namespace Graph

variable {graph : Graph} {parents : List (Option Nat)}

theorem climb_eq {steps number : Nat} {lineage : List Nat}
    (hparents : ∀ number,
      (graph.object ⟨number⟩).parent = parents[number]?.join.map ObjectId.mk)
    (hlineage : Lineage parents number lineage) (hsteps : lineage.length ≤ steps + 1) :
    graph.climb steps ⟨number⟩ = lineage.reverse.map ObjectId.mk := by
  induction hlineage generalizing steps with
  | @root number hparent =>
      cases steps with
      | zero => rfl
      | succ steps =>
          rw [climb, hparents, hparent]
          rfl
  | @child number parent above hparent habove ih =>
      rw [List.length_append, List.length_singleton] at hsteps
      have hpositive := List.length_pos_iff.mpr habove.ne_nil
      obtain ⟨steps, rfl⟩ : ∃ fewer, steps = fewer + 1 :=
        Nat.exists_eq_add_of_le' (by omega)
      rw [climb, hparents, hparent, List.reverse_append]
      dsimp only [Option.map_some]
      rw [ih (by omega)]
      rfl

/-- An object inherits from the members of its lineage. -/
theorem isA_iff {number : Nat} {ancestor : ObjectId} {lineage : List Nat}
    (hparents : ∀ number,
      (graph.object ⟨number⟩).parent = parents[number]?.join.map ObjectId.mk)
    (hsize : parents.length = graph.objects.size) (hlineage : Lineage parents number lineage)
    (hnodup : lineage.Nodup) :
    graph.isA ⟨number⟩ ancestor = true ↔ ancestor.index ∈ lineage := by
  have hlength : lineage.length ≤ graph.objects.size + 1 := by
    have htail := length_le_of_nodup (hnodup.sublist lineage.tail_sublist) hlineage.lt_of_mem_tail
    rw [List.length_tail] at htail
    omega
  rw [isA, ancestry, climb_eq hparents hlineage hlength, List.contains_iff_mem, List.mem_map]
  constructor
  · rintro ⟨member, hmember, rfl⟩
    exact List.mem_reverse.mp hmember
  · intro hmember
    exact ⟨ancestor.index, List.mem_reverse.mpr hmember, rfl⟩

end Graph
end WireSchema
