import NginLog.Foundation.Ring

/-!
# The bounded queue of the asynchronous sink

`MpscBoundedQueue` is a ring buffer under one mutex.  Each of its methods holds
the mutex for its whole body, so a call is one atomic step and a pure function
here.  The relation between its two indices and its size is a field of the
structure: a queue that breaks it cannot be built.

The module relates every method to the list of queued records.
-/

namespace NginLog
namespace Async

open Foundation

/-- The template arguments of `AsyncSink`, with its static assertions. -/
structure AsyncSinkParams where
  queueCapacity : Nat
  batchSize : Nat
  one_lt_queueCapacity : 1 < queueCapacity
  queueCapacity_pow_two : queueCapacity &&& (queueCapacity - 1) = 0
  batchSize_pos : 0 < batchSize

namespace AsyncSinkParams

theorem queueCapacity_pos (P : AsyncSinkParams) : 0 < P.queueCapacity :=
  Nat.lt_trans Nat.zero_lt_one P.one_lt_queueCapacity

theorem mask_eq_mod (P : AsyncSinkParams) (i : Nat) :
    i &&& (P.queueCapacity - 1) = i % P.queueCapacity :=
  Ring.and_pred_eq_mod (Nat.ne_of_gt P.queueCapacity_pos)
    P.queueCapacity_pow_two i

theorem mask_lt (P : AsyncSinkParams) (i : Nat) :
    i &&& (P.queueCapacity - 1) < P.queueCapacity := by
  rw [mask_eq_mod]
  exact Nat.mod_lt i P.queueCapacity_pos

end AsyncSinkParams

structure MpscBoundedQueue (alpha : Type) (P : AsyncSinkParams) where
  slots : Vector alpha P.queueCapacity
  enqueueIndex : Nat
  dequeueIndex : Nat
  size : Nat
  dequeueIndex_lt : dequeueIndex < P.queueCapacity
  size_le : size ≤ P.queueCapacity
  enqueueIndex_eq :
    enqueueIndex = (dequeueIndex + size) &&& (P.queueCapacity - 1)

namespace MpscBoundedQueue

variable {alpha : Type} {P : AsyncSinkParams}

def empty [Inhabited alpha] : MpscBoundedQueue alpha P where
  slots := Vector.replicate P.queueCapacity default
  enqueueIndex := 0
  dequeueIndex := 0
  size := 0
  dequeueIndex_lt := P.queueCapacity_pos
  size_le := Nat.zero_le _
  enqueueIndex_eq := by simp

theorem enqueueIndex_lt (q : MpscBoundedQueue alpha P) :
    q.enqueueIndex < P.queueCapacity := by
  rw [q.enqueueIndex_eq]
  exact P.mask_lt _

/--
`TryEnqueue(OwnedLogRecord&& record)`: the result, the queue, and the argument
as the call leaves it.  A full queue does not touch the argument.  Otherwise it
is moved from; every member of an owned record is trivially copyable, so the
move copies and leaves the argument as it was.
-/
def tryEnqueue (q : MpscBoundedQueue alpha P) (record : alpha) :
    Bool × MpscBoundedQueue alpha P × alpha :=
  if h : q.size ≥ P.queueCapacity then
    (false, q, record)
  else
    (true,
      { slots := q.slots.set q.enqueueIndex record q.enqueueIndex_lt
        enqueueIndex := (q.enqueueIndex + 1) &&& (P.queueCapacity - 1)
        dequeueIndex := q.dequeueIndex
        size := q.size + 1
        dequeueIndex_lt := q.dequeueIndex_lt
        size_le := by omega
        enqueueIndex_eq := by
          rw [q.enqueueIndex_eq, P.mask_eq_mod, P.mask_eq_mod, P.mask_eq_mod,
            Nat.mod_add_mod, Nat.add_assoc] },
      record)

def tryDequeue (q : MpscBoundedQueue alpha P) (outRecord : alpha) :
    Bool × MpscBoundedQueue alpha P × alpha :=
  if h : q.size = 0 then
    (false, q, outRecord)
  else
    (true,
      { slots := q.slots
        enqueueIndex := q.enqueueIndex
        dequeueIndex := (q.dequeueIndex + 1) &&& (P.queueCapacity - 1)
        size := q.size - 1
        dequeueIndex_lt := P.mask_lt _
        size_le := Nat.le_trans (Nat.sub_le _ _) q.size_le
        enqueueIndex_eq := by
          rw [q.enqueueIndex_eq, P.mask_eq_mod, P.mask_eq_mod, P.mask_eq_mod,
            Nat.mod_add_mod]
          congr 1
          omega },
      q.slots.get ⟨q.dequeueIndex, q.dequeueIndex_lt⟩)

def approxDepth (q : MpscBoundedQueue alpha P) : Nat :=
  q.size

def canEnqueue (q : MpscBoundedQueue alpha P) : Bool :=
  q.approxDepth < P.queueCapacity

def isEmpty (q : MpscBoundedQueue alpha P) : Bool :=
  q.approxDepth == 0

/-!
## The queued records

An insertion that succeeds appends the record, and a removal that succeeds takes
the oldest one.  A call that fails changes nothing.
-/

/-- The queued records, oldest first. -/
def contents (q : MpscBoundedQueue alpha P) : List alpha :=
  Ring.window q.slots P.queueCapacity_pos q.dequeueIndex q.size

@[simp] theorem contents_length (q : MpscBoundedQueue alpha P) :
    q.contents.length = q.size := by
  simp [contents]

theorem contents_eq_nil_iff (q : MpscBoundedQueue alpha P) :
    q.contents = [] ↔ q.size = 0 := by
  rw [← List.length_eq_zero_iff, contents_length]

@[simp] theorem isEmpty_iff (q : MpscBoundedQueue alpha P) :
    q.isEmpty = true ↔ q.size = 0 := by
  simp [isEmpty, approxDepth]

@[simp] theorem canEnqueue_iff (q : MpscBoundedQueue alpha P) :
    q.canEnqueue = true ↔ q.size < P.queueCapacity :=
  decide_eq_true_iff

theorem contents_tryEnqueue {q q' : MpscBoundedQueue alpha P}
    {record record' : alpha}
    (h : q.tryEnqueue record = (true, q', record')) :
    q'.contents = q.contents ++ [record] ∧ record' = record ∧
      q'.size = q.size + 1 ∧ q.size < P.queueCapacity := by
  unfold tryEnqueue at h
  split at h
  · cases h
  · rename_i hroom
    cases h
    refine ⟨?_, rfl, rfl, by omega⟩
    apply Ring.window_set_back
    · exact q.enqueueIndex_lt
    · rw [← P.mask_eq_mod]
      exact q.enqueueIndex_eq
    · omega

theorem tryEnqueue_false {q q' : MpscBoundedQueue alpha P}
    {record record' : alpha}
    (h : q.tryEnqueue record = (false, q', record')) :
    q' = q ∧ record' = record ∧ q.size = P.queueCapacity := by
  unfold tryEnqueue at h
  split at h
  · rename_i hfull
    cases h
    exact ⟨rfl, rfl, Nat.le_antisymm q.size_le hfull⟩
  · cases h

theorem contents_tryDequeue {q q' : MpscBoundedQueue alpha P}
    {outRecord record : alpha}
    (h : q.tryDequeue outRecord = (true, q', record)) :
    q.contents = record :: q'.contents ∧ q.size = q'.size + 1 := by
  unfold tryDequeue at h
  split at h
  · cases h
  · rename_i hsome
    cases h
    rcases Nat.exists_eq_succ_of_ne_zero hsome with ⟨n, hn⟩
    refine ⟨?_, by simp only; omega⟩
    unfold contents
    simp only [P.mask_eq_mod, Ring.window_start_mod, hn, Nat.succ_eq_add_one,
      Nat.add_sub_cancel]
    rw [Ring.window_succ_front]
    congr 1
    simp [Ring.slot, Nat.mod_eq_of_lt q.dequeueIndex_lt]

theorem tryDequeue_false {q q' : MpscBoundedQueue alpha P}
    {outRecord record : alpha}
    (h : q.tryDequeue outRecord = (false, q', record)) :
    q' = q ∧ record = outRecord ∧ q.size = 0 := by
  unfold tryDequeue at h
  split at h
  · rename_i hnone
    cases h
    exact ⟨rfl, rfl, hnone⟩
  · cases h

end MpscBoundedQueue

end Async
end NginLog
