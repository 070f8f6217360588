import Mathlib.Data.Nat.Bitwise
import Mathlib.Data.Vector.Basic

/-!
# Rings of slots

A fixed array of slots read circularly.  The window of length `size` that
starts at slot `start` is a list; the lemmas say how the window changes when a
slot just past its end is written and when its start advances.  Together they
are the argument that a ring with two indices and a size is a first-in
first-out list.

The last section is the power-of-two arithmetic that lets a bit mask stand for
the remainder.
-/

namespace NginLog
namespace Foundation
namespace Ring

variable {alpha : Type} {capacity : Nat}

def slot (slots : Vector alpha capacity) (hpos : 0 < capacity) (i : Nat) : alpha :=
  slots.get ⟨i % capacity, Nat.mod_lt i hpos⟩

def window (slots : Vector alpha capacity) (hpos : 0 < capacity)
    (start size : Nat) : List alpha :=
  (List.range size).map fun i => slot slots hpos (start + i)

@[simp] theorem window_length (slots : Vector alpha capacity)
    (hpos : 0 < capacity) (start size : Nat) :
    (window slots hpos start size).length = size := by
  simp [window]

/-!
## Reading
-/

theorem slot_mod (slots : Vector alpha capacity) (hpos : 0 < capacity)
    (i : Nat) :
    slot slots hpos (i % capacity) = slot slots hpos i := by
  simp [slot]

theorem window_start_mod (slots : Vector alpha capacity) (hpos : 0 < capacity)
    (start size : Nat) :
    window slots hpos (start % capacity) size = window slots hpos start size := by
  unfold window
  apply List.map_congr_left
  intro i _
  rw [← slot_mod slots hpos (start % capacity + i), Nat.mod_add_mod, slot_mod]

theorem window_succ_front (slots : Vector alpha capacity) (hpos : 0 < capacity)
    (start size : Nat) :
    window slots hpos start (size + 1) =
      slot slots hpos start :: window slots hpos (start + 1) size := by
  unfold window
  rw [List.range_succ_eq_map, List.map_cons, List.map_map]
  congr 1
  apply List.map_congr_left
  intro i _
  simp [Nat.add_assoc, Nat.add_comm 1 i]

theorem window_succ_back (slots : Vector alpha capacity) (hpos : 0 < capacity)
    (start size : Nat) :
    window slots hpos start (size + 1) =
      window slots hpos start size ++ [slot slots hpos (start + size)] := by
  simp [window, List.range_succ]

/-!
## Writing
-/

theorem slot_set_self (slots : Vector alpha capacity) (hpos : 0 < capacity)
    {i : Nat} (hi : i < capacity) (x : alpha) {j : Nat} (hj : j % capacity = i) :
    slot (slots.set i x hi) hpos j = x := by
  subst hj
  exact Vector.getElem_set_self hi

theorem slot_set_ne (slots : Vector alpha capacity) (hpos : 0 < capacity)
    {i : Nat} (hi : i < capacity) (x : alpha) {j : Nat} (hj : j % capacity ≠ i) :
    slot (slots.set i x hi) hpos j = slot slots hpos j := by
  unfold slot
  exact Vector.getElem_set_ne hi (Nat.mod_lt j hpos) (Ne.symm hj)

theorem add_mod_ne {start i size : Nat} (hi : i < size) (hsize : size < capacity) :
    (start + i) % capacity ≠ (start + size) % capacity := by
  intro h
  have hdiv : capacity ∣ (start + size) - (start + i) :=
    Nat.dvd_of_mod_eq_zero (Nat.sub_mod_eq_zero_of_mod_eq h.symm)
  have hzero : (start + size) - (start + i) = 0 :=
    Nat.eq_zero_of_dvd_of_lt hdiv (by omega)
  omega

theorem window_set_back (slots : Vector alpha capacity) (hpos : 0 < capacity)
    {start size i : Nat} (hi : i < capacity) (x : alpha)
    (hback : i = (start + size) % capacity) (hsize : size < capacity) :
    window (slots.set i x hi) hpos start (size + 1) =
      window slots hpos start size ++ [x] := by
  rw [window_succ_back, slot_set_self slots hpos hi x hback.symm]
  congr 1
  unfold window
  apply List.map_congr_left
  intro k hk
  apply slot_set_ne
  rw [hback]
  exact add_mod_ne (List.mem_range.mp hk) hsize

/-!
## Masks
-/

theorem and_pred_eq_mod {n : Nat} (hn : n ≠ 0) (hpow : n &&& (n - 1) = 0)
    (x : Nat) :
    x &&& (n - 1) = x % n := by
  rcases (Nat.and_sub_one_eq_zero_iff_isPowerOfTwo hn).mp hpow with ⟨k, rfl⟩
  exact Nat.and_two_pow_sub_one_eq_mod x k

end Ring
end Foundation
end NginLog
