import Mathlib.Data.List.Infix
import Mathlib.Logic.Function.Basic

/-!
# The values of a cell over time

A cell that is only ever overwritten has had a list of values, with the current
one last.  A moment is the number of values by then.  What a reader finds
between two moments is one of the values that were current in between, and
later writes do not change which ones these are.
-/

namespace NginLog
namespace Foundation

variable {value : Type}

/-- The value was current at some time between the two moments. -/
def CurrentDuring (values : List value) (first last : Nat) (v : value) : Prop :=
  v ∈ (values.take last).drop (first - 1)

def Timeline (values : List value) (now : value) : Prop :=
  values.getLast? = some now

namespace Timeline

variable {values : List value} {now : value}

theorem singleton (v : value) : Timeline [v] v := rfl

theorem write (values : List value) (v : value) :
    Timeline (values ++ [v]) v :=
  List.getLast?_concat

theorem length_pos (h : Timeline values now) : 1 ≤ values.length := by
  cases values with
  | nil => cases h
  | cons v rest => simp

theorem current (h : Timeline values now) {first : Nat}
    (hfirst : first ≤ values.length) :
    CurrentDuring values first values.length now := by
  have hpos := h.length_pos
  have hlast : values[values.length - 1]? = some now := by
    rw [← List.getLast?_eq_getElem?]
    exact h
  unfold CurrentDuring
  rw [List.take_length, List.mem_drop_iff_getElem]
  rcases List.getElem?_eq_some_iff.mp hlast with ⟨hbound, hvalue⟩
  refine ⟨values.length - 1 - (first - 1), by omega, ?_⟩
  rw [← hvalue]
  congr 1
  omega

section

variable {cell : Type} [DecidableEq cell] {values : cell -> List value}
  {now : cell -> value}

theorem update (h : forall c, Timeline (values c) (now c)) (c : cell)
    (v : value) (c' : cell) :
    Timeline (Function.update values c (values c ++ [v]) c')
      (Function.update now c v c') := by
  by_cases hc : c' = c
  · subst hc
    rw [Function.update_self, Function.update_self]
    exact write (values c') v
  · rw [Function.update_of_ne hc, Function.update_of_ne hc]
    exact h c'

theorem prefix_update (values : cell -> List value) (c : cell) (v : value)
    (c' : cell) :
    values c' <+: Function.update values c (values c ++ [v]) c' := by
  by_cases hc : c' = c
  · subst hc
    rw [Function.update_self]
    exact List.prefix_append _ _
  · rw [Function.update_of_ne hc]

end

end Timeline

theorem CurrentDuring.mono {values : List value} {first last last' : Nat}
    {v : value} (h : CurrentDuring values first last v) (hlast : last ≤ last') :
    CurrentDuring values first last' v := by
  have hbegins : values.take last <+: values.take last' :=
    List.take_prefix_take_left hlast
  exact (hbegins.drop (first - 1)).subset h

theorem CurrentDuring.append {values : List value} {first last : Nat}
    {v : value} (h : CurrentDuring values first last v)
    (hlast : last ≤ values.length) (later : List value) :
    CurrentDuring (values ++ later) first last v := by
  unfold CurrentDuring
  rw [List.take_append_of_le_length hlast]
  exact h

end Foundation
end NginLog
