import NginLog.Async.Ledger
import NginLog.Async.Shutdown

/-!
# Exactly-once delivery in order

The queue's order, the ledger and the shutdown facts together: what the sink
promises about the records of its producers.
-/

namespace NginLog
namespace Async

open Foundation Record

variable {Thread : Type} {C : AsyncSinkConfig}

/-!
## The promise
-/

/-- The queued records reach the wrapped sink once each, unchanged, in order. -/
structure FifoDelivery (s : State Thread C) : Prop where
  order :
    delivered s.shared.sink ++ s.worker.undelivered ++
      s.shared.queue.contents = s.shared.history.accepted
  atMostOneInHand : s.worker.undelivered.length ≤ 1
  /-- Every accepted record is the owned copy of the record of its own call. -/
  unaltered : forall ticket, ticket ∈ s.shared.history.accepted ->
    exists call, s.shared.history.calls[ticket.call]? = some call ∧
      ticket.record = toOwned call.record
  once : (s.shared.history.accepted.map Ticket.call).Nodup
  programOrder : s.shared.history.accepted.Pairwise fun first second =>
    forall firstCall secondCall,
      s.shared.history.calls[first.call]? = some firstCall ->
      s.shared.history.calls[second.call]? = some secondCall ->
      firstCall.thread = secondCall.thread -> first.call < second.call

/-- The rejected records reach it once each, from their own producers. -/
structure FallbackDelivery (s : State Thread C) : Prop where
  onlySyncFallback :
    C.overflowPolicy ≠ AsyncOverflowPolicy.syncFallback ->
      fellBack s.shared.sink = []
  ownProducer : forall t ticket, (t, ticket) ∈ fellBack s.shared.sink ->
    exists record,
      s.shared.history.calls[ticket.call]? =
        some { thread := t, record := record } ∧
      ticket.record = toOwned record
  once : ((fellBack s.shared.sink).map fun p => p.2.call).Nodup
  notQueued : forall t ticket, (t, ticket) ∈ fellBack s.shared.sink ->
    ticket ∉ s.shared.history.accepted
  onlyRejected : forall t ticket, (t, ticket) ∈ fellBack s.shared.sink ->
    ticket ∈ s.shared.history.rejected
  beforeReturn :
    C.overflowPolicy = AsyncOverflowPolicy.syncFallback ->
      forall ticket, ticket ∈ s.shared.history.rejected ->
        ticket.call ∈ s.shared.history.returned ->
        exists t, (t, ticket) ∈ fellBack s.shared.sink

/-!
## What every tally satisfies
-/

structure Tally.Consistent (tally : Tally) : Prop where
  once : tally.accepted + tally.fellBack + tally.dropped ≤ 1
  fellBack_le : tally.fellBack ≤ tally.refused
  settled : 0 < tally.returned -> tally.fellBack = tally.refused

theorem Tally.consistent_zero : ({} : Tally).Consistent :=
  ⟨by decide, by decide, fun _ => rfl⟩

theorem Finished.consistent {tally : Tally} (h : Finished tally) :
    tally.Consistent := by
  cases h <;> exact ⟨by decide, by decide, fun _ => rfl⟩

theorem EnqueuePc.tally_consistent (policy : AsyncOverflowPolicy)
    (pc : EnqueuePc) :
    (pc.tally policy).Consistent := by
  have hreturned := pc.tally_returned policy
  refine ⟨?_, ?_, fun h => by omega⟩
  · cases pc <;> simp [EnqueuePc.tally]
    split <;> decide
  · cases pc <;> simp [EnqueuePc.tally]
    split <;> decide

theorem DropPc.tally_consistent (pc : DropPc) : pc.tally.Consistent := by
  cases pc <;> exact ⟨by decide, by decide, fun _ => rfl⟩

theorem ClientPc.tally_consistent (policy : AsyncOverflowPolicy)
    (pc : ClientPc) :
    (pc.tally policy).Consistent := by
  cases pc with
  | enqueue ticket pc => exact pc.tally_consistent policy
  | drop call timeout holding pc => exact pc.tally_consistent
  | _ => exact Tally.consistent_zero

namespace Ledger

variable {policy : AsyncOverflowPolicy} {b : Books Thread}
  {client : Thread -> ClientPc}

theorem consistent (h : Ledger policy b client) (call : Nat) :
    (b.tally policy call).Consistent := by
  cases hcall : b.calls[call]? with
  | none =>
      rw [h.future call (List.getElem?_eq_none_iff.mp hcall)]
      exact Tally.consistent_zero
  | some made =>
      by_cases hcarried : (client made.thread).call? = some call
      · rw [h.current made.thread call hcarried]
        exact ClientPc.tally_consistent policy _
      · exact (h.past made.thread call made.record hcall hcarried).consistent

/-!
## Reading the tallies
-/

theorem refused_zero (b : Books Thread) (call : Nat)
    (hpolicy : policy ≠ AsyncOverflowPolicy.syncFallback) :
    (b.tally policy call).refused = 0 := if_neg hpolicy

theorem accepted_pos (policy : AsyncOverflowPolicy) {ticket : Ticket}
    (hticket : ticket ∈ b.accepted) :
    0 < (b.tally policy ticket.call).accepted :=
  List.count_pos_iff.mpr (List.mem_map_of_mem hticket)

theorem fellBack_pos (policy : AsyncOverflowPolicy) {t : Thread}
    {ticket : Ticket} (hticket : (t, ticket) ∈ b.fellBack) :
    0 < (b.tally policy ticket.call).fellBack :=
  List.count_pos_iff.mpr
    (List.mem_map_of_mem (f := fun p : Thread × Ticket => p.2.call) hticket)

theorem refused_pos_iff
    (hpolicy : policy = AsyncOverflowPolicy.syncFallback) (call : Nat) :
    0 < (b.tally policy call).refused <->
      exists ticket, ticket ∈ b.rejected ∧ ticket.call = call := by
  unfold Books.tally
  rw [if_pos hpolicy, List.count_pos_iff, List.mem_map]

theorem mem_fellBack_of_pos (call : Nat)
    (hpos : 0 < (b.tally policy call).fellBack) :
    exists t ticket, (t, ticket) ∈ b.fellBack ∧ ticket.call = call := by
  rcases List.mem_map.mp (List.count_pos_iff.mp hpos) with
    ⟨⟨t, ticket⟩, hmem, hcall⟩
  exact ⟨t, ticket, hmem, hcall⟩

theorem fellBack_eq_nil (h : Ledger policy b client)
    (hpolicy : policy ≠ AsyncOverflowPolicy.syncFallback) :
    b.fellBack = [] := by
  rw [List.eq_nil_iff_forall_not_mem]
  rintro ⟨t, ticket⟩ hmem
  have hpos := fellBack_pos policy hmem
  have hle := (h.consistent ticket.call).fellBack_le
  rw [refused_zero b ticket.call hpolicy] at hle
  omega

theorem fellBack_not_accepted (h : Ledger policy b client) {t : Thread}
    {ticket : Ticket} (hmem : (t, ticket) ∈ b.fellBack) :
    ticket ∉ b.accepted := by
  intro haccepted
  have hfellBack := fellBack_pos policy hmem
  have hqueued := accepted_pos policy haccepted
  have honce := (h.consistent ticket.call).once
  omega

theorem fellBack_rejected (h : Ledger policy b client) {t : Thread}
    {ticket : Ticket} (hmem : (t, ticket) ∈ b.fellBack) :
    ticket ∈ b.rejected := by
  have hfellBack := fellBack_pos policy hmem
  have hle := (h.consistent ticket.call).fellBack_le
  by_cases hpolicy : policy = AsyncOverflowPolicy.syncFallback
  · have hrefused : 0 < (b.tally policy ticket.call).refused := by omega
    rcases (refused_pos_iff hpolicy ticket.call).mp hrefused with
      ⟨other, hrejected, hcall⟩
    rcases h.rejected other hrejected with ⟨t', hmade⟩
    cases hmade.unique (h.fellBack t ticket hmem) hcall
    exact hrejected
  · rw [h.fellBack_eq_nil hpolicy] at hmem
    cases hmem

theorem rejected_fellBack (h : Ledger policy b client)
    (hpolicy : policy = AsyncOverflowPolicy.syncFallback) {ticket : Ticket}
    (hrejected : ticket ∈ b.rejected) (hreturned : ticket.call ∈ b.returned) :
    exists t, (t, ticket) ∈ b.fellBack := by
  have hrefused : 0 < (b.tally policy ticket.call).refused :=
    (refused_pos_iff hpolicy ticket.call).mpr ⟨ticket, hrejected, rfl⟩
  have hsettled := (h.consistent ticket.call).settled
    (List.count_pos_iff.mpr hreturned)
  have hpos : 0 < (b.tally policy ticket.call).fellBack := by omega
  rcases mem_fellBack_of_pos ticket.call hpos with ⟨t, other, hmem, hcall⟩
  rcases h.rejected ticket hrejected with ⟨t', hmade⟩
  cases (h.fellBack t other hmem).unique hmade hcall
  exact ⟨t, hmem⟩

end Ledger

/-!
## The promise is kept
-/

section

variable [DecidableEq Thread]

theorem reachable_fifoDelivery {s : State Thread C}
    (hsink : C.sinkPresent = true) (h : (asyncSink Thread C).Reachable s) :
    FifoDelivery s where
  order := reachable_pipeline hsink h
  atMostOneInHand := s.worker.undelivered_length
  unaltered := by
    intro ticket hticket
    rcases (reachable_ledger hsink h).accepted ticket hticket with
      ⟨t, record, hcall, hrecord⟩
    exact ⟨_, hcall, hrecord⟩
  once := by
    rw [List.nodup_iff_count_le_one]
    intro call
    have honce := ((reachable_ledger hsink h).consistent call).once
    simp only [Books.tally, Shared.books] at honce
    omega
  programOrder := by
    have hledger := reachable_ledger hsink h
    refine List.Pairwise.imp_of_mem ?_ hledger.programOrder
    intro first second hfirst hsecond horder firstCall secondCall hcall hcall'
      hthread
    rcases hledger.accepted first hfirst with ⟨t, record, hmade, hrecord⟩
    rcases hledger.accepted second hsecond with ⟨t', record', hmade', hrecord'⟩
    have ht : firstCall = { thread := t, record := record } :=
      Option.some.inj (hcall.symm.trans hmade)
    have ht' : secondCall = { thread := t', record := record' } :=
      Option.some.inj (hcall'.symm.trans hmade')
    have hsame : t = t' := by simpa [ht, ht'] using hthread
    subst hsame
    exact horder t ⟨record, hmade, hrecord⟩ ⟨record', hmade', hrecord'⟩

theorem reachable_fallbackDelivery {s : State Thread C}
    (hsink : C.sinkPresent = true) (h : (asyncSink Thread C).Reachable s) :
    FallbackDelivery s where
  onlySyncFallback := (reachable_ledger hsink h).fellBack_eq_nil
  ownProducer := (reachable_ledger hsink h).fellBack
  once := by
    rw [List.nodup_iff_count_le_one]
    intro call
    have honce := ((reachable_ledger hsink h).consistent call).once
    simp only [Books.tally, Shared.books] at honce
    omega
  notQueued := fun _ _ hmem =>
    (reachable_ledger hsink h).fellBack_not_accepted hmem
  onlyRejected := fun _ _ hmem =>
    (reachable_ledger hsink h).fellBack_rejected hmem
  beforeReturn := fun hpolicy _ hrejected hreturned =>
    (reachable_ledger hsink h).rejected_fellBack hpolicy hrejected hreturned

/--
Exactly-once delivery in order, in every reachable state, and delivery of
everything accepted by the time an undisturbed destructor returns.
-/
theorem asyncSink_delivers_exactly_once (Thread : Type) [DecidableEq Thread]
    (C : AsyncSinkConfig) (hsink : C.sinkPresent = true) :
    (forall s, (asyncSink Thread C).Reachable s ->
      FifoDelivery s ∧ FallbackDelivery s) ∧
    (forall s, (asyncSink Thread C).ReachableUnder Undisturbed s ->
      s.owner = OwnerPc.destroyed ->
      delivered s.shared.sink = s.shared.history.accepted) := by
  constructor
  · intro s h
    exact ⟨reachable_fifoDelivery hsink h, reachable_fallbackDelivery hsink h⟩
  · intro s h hdestroyed
    exact undisturbed_delivered hsink h hdestroyed

end

def overflowingWrites : List (Action Bool) :=
  let writes (t : Bool) (steps : Nat) : List (Action Bool) :=
    Action.write t {} :: List.replicate steps (Action.client t Choice.plain)
  writes false 8 ++ writes true 8 ++ writes false 14

theorem overflowingWrites_delivered :
    exists s,
      (asyncSink Bool (smallSink AsyncOverflowPolicy.syncFallback)).Reachable s ∧
      (s.shared.history.returned = [0, 1, 2] ∧
        s.shared.history.accepted.length = 2 ∧
        (fellBack s.shared.sink).length = 1) ∧
      FifoDelivery s ∧ FallbackDelivery s := by
  have hrun :
      ((asyncSink Bool (smallSink AsyncOverflowPolicy.syncFallback)).run
        overflowingWrites).any (fun s =>
          s.shared.history.returned == [0, 1, 2] &&
          s.shared.history.accepted.length == 2 &&
          (fellBack s.shared.sink).length == 1) = true := by
    decide
  rcases Machine.exists_reachable_of_run hrun with ⟨s, hreachable, htest⟩
  refine ⟨s, hreachable, by simpa [and_assoc] using htest, ?_⟩
  exact (asyncSink_delivers_exactly_once Bool _ rfl).1 s hreachable

end Async
end NginLog
