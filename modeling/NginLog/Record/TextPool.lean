import NginLog.Record.Types

/-!
# Bounded text storage

`RecordBuilder` and `Dispatch` copy attribute text into a fixed buffer that they
fill from the front and never rewrite, so a view into it keeps its bytes and is
modelled by them.  A text that does not fit is cut; what is cut is counted.

A copy depends only on the room left, and leaves that room less by the length
of the text.  This is what the rest of the development uses.
-/

namespace NginLog
namespace Record

theorem countCut_eq {length copyLength room : Nat}
    (h : copyLength = min length room) (truncatedBytes : UInt32) :
    (if length > copyLength then
      truncatedBytes + UInt32.ofNat (length - copyLength)
    else
      truncatedBytes) = truncatedBytes + UInt32.ofNat (length - room) := by
  split
  · rw [show length - copyLength = length - room by omega]
  · rw [Nat.sub_eq_zero_of_le (by omega)]
    exact (UInt32.add_zero _).symm

structure TextPool (capacity : Nat) where
  used : Bytes := []
  fits : used.length ≤ capacity := by exact Nat.zero_le _

namespace TextPool

variable {capacity : Nat}

def available (pool : TextPool capacity) : Nat :=
  capacity - pool.used.length

def copyText (pool : TextPool capacity) (input : Bytes)
    (truncatedBytes : UInt32) : Bytes × TextPool capacity × UInt32 :=
  if input = [] then
    ([], pool, truncatedBytes)
  else if pool.available = 0 then
    ([], pool, truncatedBytes + UInt32.ofNat input.length)
  else
    let copyLength := min input.length pool.available
    (input.take copyLength,
      { used := pool.used ++ input.take copyLength
        fits := by
          have hroom : copyLength ≤ capacity - pool.used.length :=
            Nat.min_le_right _ _
          have hfits := pool.fits
          rw [List.length_append, List.length_take]
          omega },
      if input.length > copyLength then
        truncatedBytes + UInt32.ofNat (input.length - copyLength)
      else
        truncatedBytes)

def copyValue (pool : TextPool capacity) (value : AttributeValue Bytes)
    (truncatedBytes : UInt32) :
    AttributeValue Bytes × TextPool capacity × UInt32 :=
  match value with
  | AttributeValue.text v =>
      let copied := pool.copyText v truncatedBytes
      (AttributeValue.text copied.1, copied.2)
  | _ => (value, pool, truncatedBytes)

theorem copyText_fst (pool : TextPool capacity) (input : Bytes)
    (truncatedBytes : UInt32) :
    (pool.copyText input truncatedBytes).1 = input.take pool.available := by
  unfold copyText
  split
  · rename_i hempty
    simp [hempty]
  · split
    · rename_i hnone
      simp [hnone]
    · simp only
      rw [Nat.min_comm]
      exact List.take_eq_take_min.symm

theorem copyText_used (pool : TextPool capacity) (input : Bytes)
    (truncatedBytes : UInt32) :
    (pool.copyText input truncatedBytes).2.1.used =
      pool.used ++ input.take pool.available := by
  unfold copyText
  split
  · rename_i hempty
    simp [hempty]
  · split
    · rename_i hnone
      simp [hnone]
    · simp only
      rw [Nat.min_comm, ← List.take_eq_take_min]

theorem copyText_available (pool : TextPool capacity) (input : Bytes)
    (truncatedBytes : UInt32) :
    (pool.copyText input truncatedBytes).2.1.available =
      pool.available - input.length := by
  have hused := congrArg List.length (pool.copyText_used input truncatedBytes)
  rw [List.length_append, List.length_take] at hused
  unfold available at hused ⊢
  omega

theorem copyText_truncatedBytes (pool : TextPool capacity) (input : Bytes)
    (truncatedBytes : UInt32) :
    (pool.copyText input truncatedBytes).2.2 =
      truncatedBytes + UInt32.ofNat (input.length - pool.available) := by
  unfold copyText
  split
  · rename_i hempty
    rw [hempty, List.length_nil, Nat.zero_sub]
    exact (UInt32.add_zero _).symm
  · split
    · rename_i hnone
      rw [hnone, Nat.sub_zero]
    · exact countCut_eq rfl truncatedBytes

theorem copyValue_fst (pool : TextPool capacity) (value : AttributeValue Bytes)
    (truncatedBytes : UInt32) :
    (pool.copyValue value truncatedBytes).1 =
      value.map (List.take pool.available) := by
  cases value with
  | text v => simp [copyValue, AttributeValue.map, copyText_fst]
  | _ => rfl

theorem copyValue_available (pool : TextPool capacity)
    (value : AttributeValue Bytes) (truncatedBytes : UInt32) :
    (pool.copyValue value truncatedBytes).2.1.available =
      pool.available - value.textLength := by
  cases value with
  | text v => exact copyText_available pool v truncatedBytes
  | _ => rfl

theorem copyValue_truncatedBytes (pool : TextPool capacity)
    (value : AttributeValue Bytes) (truncatedBytes : UInt32) :
    (pool.copyValue value truncatedBytes).2.2 =
      truncatedBytes + UInt32.ofNat (value.textLength - pool.available) := by
  cases value with
  | text v => exact copyText_truncatedBytes pool v truncatedBytes
  | _ =>
      show truncatedBytes =
        truncatedBytes + UInt32.ofNat (0 - pool.available)
      rw [Nat.zero_sub]
      exact (UInt32.add_zero _).symm

end TextPool

/-!
## Cutting values
-/

namespace AttributeValue

theorem map_take_of_le {value : AttributeValue Bytes} {room : Nat}
    (h : value.textLength ≤ room) :
    value.map (List.take room) = value := by
  cases value with
  | text v => exact congrArg text (List.take_of_length_le h)
  | _ => rfl

end AttributeValue

/-!
## Inline texts
-/

theorem assign_truncatedBytes (capacity : Nat) (input : Bytes)
    (truncatedBytes : UInt32) :
    (InlineText.assign capacity input truncatedBytes).2 =
      truncatedBytes + UInt32.ofNat (input.length - capacity) := by
  unfold InlineText.assign
  dsimp only
  split
  · rfl
  · rw [Nat.sub_eq_zero_of_le (by omega)]
    exact (UInt32.add_zero _).symm

end Record
end NginLog
