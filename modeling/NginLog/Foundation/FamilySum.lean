import Mathlib.Algebra.Order.BigOperators.Group.Finset
import Mathlib.Tactic.Ring

/-!
# Sums over a family with one member changed

A family of threads moves one member at a time.  Counting invariants sum a
weight over the whole family, so they need to know what replacing one member
does to the sum.
-/

namespace NginLog
namespace Foundation

variable {index member : Type} [Fintype index]

theorem sum_update [DecidableEq index] (family : index -> member) (i : index)
    (new : member) (weight : member -> Int) :
    (∑ j, weight (Function.update family i new j)) =
      (∑ j, weight (family j)) - weight (family i) + weight new := by
  have hnew :
      (∑ j, weight (Function.update family i new j)) =
        weight new + ∑ j ∈ Finset.univ.erase i, weight (family j) := by
    rw [← Finset.add_sum_erase _ _ (Finset.mem_univ i), Function.update_self]
    congr 1
    apply Finset.sum_congr rfl
    intro j hj
    rw [Function.update_of_ne (Finset.ne_of_mem_erase hj)]
  have hold :
      (∑ j, weight (family j)) =
        weight (family i) + ∑ j ∈ Finset.univ.erase i, weight (family j) :=
    (Finset.add_sum_erase _ _ (Finset.mem_univ i)).symm
  rw [hnew, hold]
  ring

theorem weight_eq_zero_of_sum_eq_zero {family : index -> member}
    {weight : member -> Int} (hweight : forall m, 0 ≤ weight m)
    (hsum : (∑ j, weight (family j)) = 0) (i : index) :
    weight (family i) = 0 :=
  (Finset.sum_eq_zero_iff_of_nonneg fun j _ => hweight (family j)).mp hsum i
    (Finset.mem_univ i)

theorem sum_add_le_of_one {before after : index -> Nat} (i : index) {d : Nat}
    (hone : after i + d ≤ before i)
    (hothers : forall j, j ≠ i -> after j ≤ before j) :
    (∑ j, after j) + d ≤ ∑ j, before j := by
  classical
  have hrest : (∑ j ∈ Finset.univ.erase i, after j) ≤
      ∑ j ∈ Finset.univ.erase i, before j :=
    Finset.sum_le_sum fun j hj => hothers j (Finset.ne_of_mem_erase hj)
  rw [← Finset.add_sum_erase _ before (Finset.mem_univ i),
    ← Finset.add_sum_erase _ after (Finset.mem_univ i)]
  omega

theorem sum_add_eq_of_one {before after : index -> Nat} (i : index)
    (hothers : forall j, j ≠ i -> after j = before j) :
    (∑ j, after j) + before i = (∑ j, before j) + after i := by
  classical
  have hrest : (∑ j ∈ Finset.univ.erase i, after j) =
      ∑ j ∈ Finset.univ.erase i, before j :=
    Finset.sum_congr rfl fun j hj => hothers j (Finset.ne_of_mem_erase hj)
  rw [← Finset.add_sum_erase _ before (Finset.mem_univ i),
    ← Finset.add_sum_erase _ after (Finset.mem_univ i), hrest]
  omega

theorem sum_le_card_mul {family : index -> Nat} {bound : Nat}
    (h : forall j, family j ≤ bound) :
    (∑ j, family j) ≤ Fintype.card index * bound := by
  simpa using Finset.sum_le_card_nsmul Finset.univ family bound
    fun j _ => h j

end Foundation
end NginLog
