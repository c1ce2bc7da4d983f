import Mathlib.Data.List.Forall2
import Mathlib.Data.List.Nodup
import Mathlib.Data.String.Basic

/-!
# Sorting by names

Types and arguments are taken in ascending order of their names. Sorting is stable, so in general
the result depends on the order that there was. Where the names are distinct it does not
(`mergeSort_eq_of_perm`), and the sorted names strictly ascend (`pairwise_lt_mergeSort`).
-/

namespace SignalSchema.Sorting

variable {α β : Type} {name : α → String} {name' : β → String} {xs ys : List α}

/-- Sorted names ascend. -/
theorem pairwise_le_mergeSort (name : α → String) (xs : List α) :
    (xs.mergeSort fun a b => name a ≤ name b).Pairwise fun a b => name a ≤ name b := by
  refine List.Pairwise.imp (fun h => of_decide_eq_true h) (List.pairwise_mergeSort ?_ ?_ xs)
  · intro a b c hab hbc
    exact decide_eq_true (String.le_trans (of_decide_eq_true hab) (of_decide_eq_true hbc))
  · intro a b
    simpa using String.le_total (name a) (name b)

/-- Distinct names strictly ascend when they are sorted. -/
theorem pairwise_lt_mergeSort (h : (xs.map name).Nodup) :
    (xs.mergeSort fun a b => name a ≤ name b).Pairwise fun a b => name a < name b := by
  have hdistinct : (xs.mergeSort fun a b => name a ≤ name b).Pairwise
      fun a b => name a ≠ name b :=
    List.pairwise_map.1 (((List.mergeSort_perm xs _).map name).nodup_iff.2 h)
  exact (pairwise_le_mergeSort name xs).imp₂ (fun _ _ hle hne => lt_of_le_of_ne hle hne) hdistinct

/-- Where names are distinct, the sorted list does not depend on the order that there was. -/
theorem mergeSort_eq_of_perm (hperm : xs.Perm ys) (h : (xs.map name).Nodup) :
    (xs.mergeSort fun a b => name a ≤ name b) = ys.mergeSort fun a b => name a ≤ name b := by
  have hsorted : (xs.mergeSort fun a b => name a ≤ name b).Perm
      (ys.mergeSort fun a b => name a ≤ name b) :=
    ((List.mergeSort_perm xs _).trans hperm).trans (List.mergeSort_perm ys _).symm
  refine hsorted.eq_of_pairwise ?_ (pairwise_le_mergeSort name xs) (pairwise_le_mergeSort name ys)
  intro a b ha hb hab hba
  have hmem : b ∈ xs := hperm.mem_iff.2 (List.mem_mergeSort.1 hb)
  exact List.inj_on_of_nodup_map h (List.mem_mergeSort.1 ha) hmem (String.le_antisymm hab hba)

/-- Elements that belong together, and so have the same names, still do after sorting. -/
theorem forall₂_mergeSort {r : α → β → Prop} {xs : List α} {ys : List β}
    (h : List.Forall₂ r xs ys) (hr : ∀ x y, r x y → name x = name' y) :
    List.Forall₂ r (xs.mergeSort fun a b => name a ≤ name b)
      (ys.mergeSort fun a b => name' a ≤ name' b) := by
  -- both lists are read off the list of the pairs, sorted by the names of the first parts
  obtain ⟨pairs, hpairs, rfl, rfl⟩ : ∃ pairs : List (α × β), (∀ e ∈ pairs, r e.1 e.2) ∧
      pairs.map Prod.fst = xs ∧ pairs.map Prod.snd = ys := by
    refine ⟨xs.zip ys, fun e he => (List.forall₂_iff_zip.1 h).2 he, ?_, ?_⟩
    · exact List.map_fst_zip (List.Forall₂.length_eq h).le
    · exact List.map_snd_zip (List.Forall₂.length_eq h).ge
  rw [← List.map_mergeSort (r := fun e e' => decide (name e.1 ≤ name e'.1)) fun _ _ _ _ => rfl,
    ← List.map_mergeSort (r := fun e e' => decide (name e.1 ≤ name e'.1)) ?_]
  · rw [List.forall₂_map_left_iff, List.forall₂_map_right_iff, List.forall₂_same]
    exact fun e he => hpairs e (List.mem_mergeSort.1 he)
  · intro e he e' he'
    rw [hr _ _ (hpairs e he), hr _ _ (hpairs e' he')]

end SignalSchema.Sorting
