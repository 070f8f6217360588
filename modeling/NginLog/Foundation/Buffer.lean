import Mathlib.Data.List.Basic

/-!
# Buffers and slices

A buffer is a list of cells that data is copied into, from some position on.  A
slice is a range of a buffer, given by where it begins and how long it is.  It
shows what the buffer holds at the time it is read, so a later copy may change
what it shows, unless the copy begins behind it.
-/

namespace NginLog
namespace Foundation

structure Slice where
  offset : Nat := 0
  size : Nat := 0
deriving DecidableEq

namespace Buffer

variable {item : Type}

def copy (cells : List item) (position : Nat) (data : List item) : List item :=
  cells.take position ++ (data ++ cells.drop (position + data.length))

@[simp] theorem copy_nil (cells : List item) (position : Nat) :
    copy cells position [] = cells :=
  List.take_append_drop position cells

theorem copy_length {cells data : List item} {position : Nat}
    (h : position + data.length ≤ cells.length) :
    (copy cells position data).length = cells.length := by
  simp only [copy, List.length_append, List.length_take, List.length_drop]
  omega

theorem take_copy_of_le {cells data : List item} {position count : Nat}
    (hcount : count ≤ position) (hposition : position ≤ cells.length) :
    (copy cells position data).take count = cells.take count := by
  rw [copy, List.take_append_of_le_length (by rw [List.length_take]; omega),
    List.take_take, Nat.min_eq_left hcount]

theorem take_copy {cells : List item} {position : Nat}
    (h : position ≤ cells.length) (data : List item) :
    (copy cells position data).take (position + data.length) =
      cells.take position ++ data := by
  rw [copy, ← List.append_assoc]
  apply List.take_left'
  rw [List.length_append, List.length_take, Nat.min_eq_left h]

end Buffer

namespace Slice

variable {item : Type}

def read (slice : Slice) (cells : List item) : List item :=
  (cells.drop slice.offset).take slice.size

def Within (slice : Slice) (used : Nat) : Prop :=
  slice.offset + slice.size ≤ used

@[simp] theorem read_empty (cells : List item) :
    read {} cells = [] :=
  List.take_zero

theorem Within.mono {slice : Slice} {used used' : Nat} (h : slice.Within used)
    (hused : used ≤ used') :
    slice.Within used' :=
  Nat.le_trans h hused

theorem read_congr {slice : Slice} {used : Nat} {cells cells' : List item}
    (h : slice.Within used) (hsame : cells'.take used = cells.take used) :
    slice.read cells' = slice.read cells := by
  have hpart : forall buffer : List item,
      slice.read buffer =
        ((buffer.take used).take (slice.offset + slice.size)).drop
          slice.offset := by
    intro buffer
    rw [List.take_take, Nat.min_eq_left h, read, List.drop_take,
      Nat.add_sub_cancel_left]
  rw [hpart, hpart, hsame]

theorem read_copy_of_within {slice : Slice} {position : Nat}
    {cells : List item} (h : slice.Within position)
    (hposition : position ≤ cells.length) (data : List item) :
    slice.read (Buffer.copy cells position data) = slice.read cells :=
  read_congr h (Buffer.take_copy_of_le (Nat.le_refl _) hposition)

theorem read_copy_self {position : Nat} {cells : List item}
    (h : position ≤ cells.length) (data : List item) :
    read { offset := position, size := data.length }
      (Buffer.copy cells position data) = data := by
  have hdrop : (Buffer.copy cells position data).drop position =
      data ++ cells.drop (position + data.length) := by
    rw [Buffer.copy]
    apply List.drop_left'
    rw [List.length_take, Nat.min_eq_left h]
  rw [read, hdrop, List.take_left]

end Slice

end Foundation
end NginLog
