import NginLog.Async.Queue
import NginLog.Foundation.BoundedFifo

/-!
# The ring buffer is a bounded queue

`MpscBoundedQueue` gives the answers of a list of at most `QueueCapacity`
records, whatever the sequence of its calls, and it always holds that list.
-/

namespace NginLog
namespace Async

open Foundation

namespace MpscBoundedQueue

variable {alpha : Type} {P : AsyncSinkParams}

/-!
## The calls
-/

def answer (q : MpscBoundedQueue alpha P) :
    BoundedFifo.Call alpha -> BoundedFifo.Reply alpha × MpscBoundedQueue alpha P
  | BoundedFifo.Call.enqueue record =>
      let result := q.tryEnqueue record
      (BoundedFifo.Reply.enqueued result.1 result.2.2, result.2.1)
  | BoundedFifo.Call.dequeue outRecord =>
      let result := q.tryDequeue outRecord
      (BoundedFifo.Reply.dequeued result.1 result.2.2, result.2.1)
  | BoundedFifo.Call.depth => (BoundedFifo.Reply.depth q.approxDepth, q)

def ring (alpha : Type) [Inhabited alpha] (P : AsyncSinkParams) :
    Object (MpscBoundedQueue alpha P) (BoundedFifo.Call alpha)
      (BoundedFifo.Reply alpha) where
  init := empty
  answer := answer

/-!
## One call
-/

theorem answer_enqueue (q : MpscBoundedQueue alpha P) (record : alpha) :
    (q.answer (BoundedFifo.Call.enqueue record)).1 =
        (BoundedFifo.answer P.queueCapacity q.contents
          (BoundedFifo.Call.enqueue record)).1 ∧
      (q.answer (BoundedFifo.Call.enqueue record)).2.contents =
        (BoundedFifo.answer P.queueCapacity q.contents
          (BoundedFifo.Call.enqueue record)).2 := by
  rw [BoundedFifo.answer, contents_length, answer]
  rcases hresult : q.tryEnqueue record with ⟨success, q', record'⟩
  cases success with
  | true =>
      rcases contents_tryEnqueue hresult with ⟨hcontents, hrecord, _, hroom⟩
      rw [if_pos hroom]
      exact ⟨congrArg _ hrecord, hcontents⟩
  | false =>
      rcases tryEnqueue_false hresult with ⟨hsame, hrecord, hfull⟩
      rw [if_neg (by omega)]
      exact ⟨congrArg _ hrecord, congrArg contents hsame⟩

theorem answer_dequeue (q : MpscBoundedQueue alpha P) (outRecord : alpha) :
    (q.answer (BoundedFifo.Call.dequeue outRecord)).1 =
        (BoundedFifo.answer P.queueCapacity q.contents
          (BoundedFifo.Call.dequeue outRecord)).1 ∧
      (q.answer (BoundedFifo.Call.dequeue outRecord)).2.contents =
        (BoundedFifo.answer P.queueCapacity q.contents
          (BoundedFifo.Call.dequeue outRecord)).2 := by
  rw [answer]
  rcases hresult : q.tryDequeue outRecord with ⟨success, q', record⟩
  cases success with
  | true =>
      rw [(contents_tryDequeue hresult).1]
      exact ⟨rfl, rfl⟩
  | false =>
      rcases tryDequeue_false hresult with ⟨hsame, houtput, hnone⟩
      rw [(contents_eq_nil_iff q).mpr hnone, houtput]
      exact ⟨rfl, by rw [hsame]; exact (contents_eq_nil_iff q).mpr hnone⟩

theorem ring_simulates (alpha : Type) [Inhabited alpha] (P : AsyncSinkParams) :
    (ring alpha P).Simulates (BoundedFifo.queue alpha P.queueCapacity)
      fun q items => q.contents = items where
  init := (contents_eq_nil_iff _).mpr rfl
  answer := by
    rintro q items call rfl
    cases call with
    | enqueue record => exact answer_enqueue q record
    | dequeue outRecord => exact answer_dequeue q outRecord
    | depth => exact ⟨congrArg _ (contents_length q).symm, rfl⟩

/-!
## Every sequence of calls
-/

/-- The queue holds the items, and answers the next call as their list does. -/
structure Represents (q : MpscBoundedQueue alpha P) (items : List alpha) :
    Prop where
  contents_eq : q.contents = items
  length_le : items.length ≤ P.queueCapacity
  enqueueIndex_lt : q.enqueueIndex < P.queueCapacity
  dequeueIndex_lt : q.dequeueIndex < P.queueCapacity
  enqueueIndex_eq :
    q.enqueueIndex = (q.dequeueIndex + q.size) &&& (P.queueCapacity - 1)
  approxDepth_eq : q.approxDepth = items.length
  enqueue_full : forall record, items.length = P.queueCapacity ->
    q.tryEnqueue record = (false, q, record)
  enqueue_room : forall record, items.length < P.queueCapacity ->
    exists q', q.tryEnqueue record = (true, q', record) ∧
      q'.contents = items ++ [record]
  dequeue_nil : forall outRecord, items = [] ->
    q.tryDequeue outRecord = (false, q, outRecord)
  dequeue_cons : forall outRecord first rest, items = first :: rest ->
    exists q', q.tryDequeue outRecord = (true, q', first) ∧ q'.contents = rest

theorem represents_contents (q : MpscBoundedQueue alpha P) :
    q.Represents q.contents where
  contents_eq := rfl
  length_le := by
    rw [contents_length]
    exact q.size_le
  enqueueIndex_lt := q.enqueueIndex_lt
  dequeueIndex_lt := q.dequeueIndex_lt
  enqueueIndex_eq := q.enqueueIndex_eq
  approxDepth_eq := (contents_length q).symm
  enqueue_full := by
    intro record hfull
    rw [contents_length] at hfull
    rw [tryEnqueue, dif_pos (Nat.le_of_eq hfull.symm)]
  enqueue_room := by
    intro record hroom
    rw [contents_length] at hroom
    rcases hresult : q.tryEnqueue record with ⟨success, q', record'⟩
    cases success with
    | true =>
        rcases contents_tryEnqueue hresult with ⟨hcontents, hrecord, _⟩
        rw [hrecord]
        exact ⟨q', rfl, hcontents⟩
    | false =>
        have hfull := (tryEnqueue_false hresult).2.2
        omega
  dequeue_nil := by
    intro outRecord hnone
    rw [tryDequeue, dif_pos ((contents_eq_nil_iff q).mp hnone)]
  dequeue_cons := by
    intro outRecord first rest hitems
    rcases hresult : q.tryDequeue outRecord with ⟨success, q', record⟩
    cases success with
    | true =>
        have hcontents := (contents_tryDequeue hresult).1
        rw [hitems, List.cons.injEq] at hcontents
        rw [hcontents.1]
        exact ⟨q', rfl, hcontents.2.symm⟩
    | false =>
        have hnone := (tryDequeue_false hresult).2.2
        rw [(contents_eq_nil_iff q).mpr hnone] at hitems
        cases hitems

/-- From construction on, over any number of laps around the ring. -/
theorem ring_is_bounded_fifo (alpha : Type) [Inhabited alpha]
    (P : AsyncSinkParams) (calls : List (BoundedFifo.Call alpha)) :
    ((ring alpha P).run calls).1 =
        ((BoundedFifo.queue alpha P.queueCapacity).run calls).1 ∧
      ((ring alpha P).run calls).2.Represents
        ((BoundedFifo.queue alpha P.queueCapacity).run calls).2 := by
  rcases (ring_simulates alpha P).run calls with ⟨hreplies, hcontents⟩
  rw [← hcontents]
  exact ⟨hreplies, represents_contents _⟩

end MpscBoundedQueue

end Async
end NginLog
