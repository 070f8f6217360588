import NginLog.Async.Fifo
import NginLog.Foundation.Ranking

/-!
# How long a record waits for the worker

`ConsumeLoop` never turns away from a queue that holds a record: between two
deliveries it takes a bounded number of steps, whatever the other threads do
meanwhile.  The rank of a record counts the records before it and the steps that
the worker has left to its next call of the wrapped sink.
-/

namespace NginLog
namespace Async

open Foundation

variable {Thread : Type} {C : AsyncSinkConfig}

/-!
## Steps to the end of a routine
-/

def NotifyPc.left : NotifyPc -> Nat
  | NotifyPc.loadOutstanding => 5
  | NotifyPc.testEmpty => 4
  | NotifyPc.lock => 3
  | NotifyPc.notifyAll => 2
  | NotifyPc.unlock => 1

def ReportPc.left : ReportPc -> Nat
  | ReportPc.lock => 5
  | ReportPc.exchange => 4
  | ReportPc.write _ _ => 3
  | ReportPc.recordError => 2
  | ReportPc.unlock => 1

def FlushSinkPc.left : FlushSinkPc -> Nat
  | FlushSinkPc.testSink => 5
  | FlushSinkPc.lock => 4
  | FlushSinkPc.flush => 3
  | FlushSinkPc.recordError => 2
  | FlushSinkPc.unlock => 1

def DeliverPc.left : DeliverPc -> Nat
  | DeliverPc.testSink => 5
  | DeliverPc.lock => 4
  | DeliverPc.write => 3
  | DeliverPc.countDelivered => 2
  | DeliverPc.recordError => 2
  | DeliverPc.unlock => 1

def stepsLeft {pc : Type} (left : pc -> Nat) (next : Option pc) : Nat :=
  next.elim 0 left

@[simp] theorem stepsLeft_none {pc : Type} (left : pc -> Nat) :
    stepsLeft left none = 0 := rfl

@[simp] theorem stepsLeft_some {pc : Type} (left : pc -> Nat) (next : pc) :
    stepsLeft left (some next) = left next := rfl

theorem notifyFlushStep_left {me : Agent Thread} {s s' : Shared Thread C}
    {pc : NotifyPc} {next : Option NotifyPc}
    (h : notifyFlushStep me s pc = some (s', next)) :
    stepsLeft NotifyPc.left next < pc.left := by
  cases pc <;> simp only [notifyFlushStep] at h
  case lock =>
    split at h <;> cases h
    decide
  case loadOutstanding | testEmpty =>
    cases h
    split <;> decide
  all_goals
    cases h
    decide

theorem deliverStep_left {me : Agent Thread} {event : SinkEvent Thread}
    {choice : Choice} {s s' : Shared Thread C} {pc : DeliverPc}
    {next : Option DeliverPc}
    (h : deliverStep me event choice s pc = some (s', next)) :
    stepsLeft DeliverPc.left next < pc.left := by
  cases pc <;> simp only [deliverStep] at h
  case lock =>
    split at h <;> cases h
    decide
  case testSink | write =>
    cases h
    split <;> decide
  all_goals
    cases h
    decide

theorem reportStep_left {me : Agent Thread} {choice : Choice}
    {s s' : Shared Thread C} {pc : ReportPc} {next : Option ReportPc}
    (h : reportStep me choice s pc = some (s', next)) :
    stepsLeft ReportPc.left next < pc.left := by
  cases pc <;> simp only [reportStep] at h
  case lock =>
    split at h <;> cases h
    decide
  case exchange | write =>
    cases h
    split <;> simp [ReportPc.left]
  all_goals
    cases h
    decide

theorem flushSinkStep_left {me : Agent Thread} {choice : Choice}
    {s s' : Shared Thread C} {pc : FlushSinkPc} {next : Option FlushSinkPc}
    (h : flushSinkStep me choice s pc = some (s', next)) :
    stepsLeft FlushSinkPc.left next < pc.left := by
  cases pc <;> simp only [flushSinkStep] at h
  case lock =>
    split at h <;> cases h
    decide
  case testSink | flush =>
    cases h
    split <;> decide
  all_goals
    cases h
    decide

/-!
## Steps to the next delivery

A record in the hand of the worker is at most three steps away.  After a batch
the worker comes back to the queue within its rank.
-/

def DeliverPc.toDelivery (pc : DeliverPc) : Nat :=
  if pc.handed then 21 + pc.left else pc.left - 2

/-- The most steps that the worker takes before it calls the sink again. -/
def WorkerPc.toDelivery (C : AsyncSinkConfig) : WorkerPc -> Nat
  | WorkerPc.testRunning => 6
  | WorkerPc.testEmpty => 5
  | WorkerPc.dequeue drained => if drained < C.batchSize then 4 else 19
  | WorkerPc.deliver _ _ pc => pc.toDelivery
  | WorkerPc.subOutstanding _ => 21
  | WorkerPc.notifySpace _ => 20
  | WorkerPc.report _ pc => 13 + pc.left
  | WorkerPc.notifyFlush _ pc => 8 + pc.left
  | WorkerPc.idleRunning _ => 8
  | WorkerPc.idleEmpty _ => 7
  | WorkerPc.idleAsleep => 9
  | WorkerPc.lastReport pc => 10 + pc.left
  | WorkerPc.lastFlush pc => 5 + pc.left
  | WorkerPc.lastNotify pc => pc.left
  | WorkerPc.finished => 0

theorem NotifyPc.left_le (pc : NotifyPc) : pc.left ≤ 5 := by
  cases pc <;> decide

theorem ReportPc.left_le (pc : ReportPc) : pc.left ≤ 5 := by
  cases pc <;> simp [ReportPc.left]

theorem FlushSinkPc.left_le (pc : FlushSinkPc) : pc.left ≤ 5 := by
  cases pc <;> decide

theorem deliverStep_toDelivery {me : Agent Thread} {ticket : Ticket}
    {choice : Choice} {s s' : Shared Thread C} {pc : DeliverPc}
    {next : Option DeliverPc} (hsink : C.sinkPresent = true)
    (h : deliverStep me (SinkEvent.deliver ticket) choice s pc =
      some (s', next)) :
    next.elim 21 DeliverPc.toDelivery + 23 * (delivered s.sink).length <
      pc.toDelivery + 23 * (delivered s'.sink).length := by
  cases pc <;> simp only [deliverStep] at h
  case testSink =>
    rw [hsink] at h
    cases h
    simp [DeliverPc.toDelivery, DeliverPc.handed, DeliverPc.left]
  case lock =>
    split at h <;> cases h
    simp [DeliverPc.toDelivery, DeliverPc.handed, DeliverPc.left]
  case write =>
    cases h
    simp only [delivered_append, List.length_append]
    split <;>
      simp [DeliverPc.toDelivery, DeliverPc.handed, DeliverPc.left, delivered,
        SinkEvent.deliver?] <;>
      omega
  all_goals
    cases h
    simp [DeliverPc.toDelivery, DeliverPc.handed, DeliverPc.left]

theorem DeliverPc.toDelivery_le (pc : DeliverPc) : pc.toDelivery ≤ 23 := by
  cases pc <;> decide

theorem WorkerPc.toDelivery_le (pc : WorkerPc) : pc.toDelivery C ≤ 23 := by
  cases pc with
  | dequeue drained =>
      simp only [toDelivery]
      split <;> decide
  | deliver ticket drained pc => exact pc.toDelivery_le
  | report drained pc | lastReport pc =>
      have hleft := pc.left_le
      simp only [toDelivery]
      omega
  | notifyFlush drained pc | lastNotify pc =>
      have hleft := pc.left_le
      simp only [toDelivery]
      omega
  | lastFlush pc =>
      have hleft := pc.left_le
      simp only [toDelivery]
      omega
  | _ => simp [toDelivery]

theorem afterBatch_toDelivery (drained : Nat) :
    (afterBatch C drained).toDelivery C ≤ 18 := by
  unfold afterBatch
  split <;> simp [WorkerPc.toDelivery, ReportPc.left, NotifyPc.left]

theorem afterIteration_toDelivery (drained : Nat) :
    (afterIteration drained).toDelivery C ≤ 8 := by
  unfold afterIteration
  split <;> simp [WorkerPc.toDelivery]

theorem dequeue_zero_toDelivery :
    (WorkerPc.dequeue 0).toDelivery C = 4 := by
  simp [WorkerPc.toDelivery, C.batchSize_pos]

theorem dequeue_toDelivery_le (drained : Nat) :
    (WorkerPc.dequeue drained).toDelivery C ≤ 19 := by
  simp only [WorkerPc.toDelivery]
  split <;> decide

theorem workerStep_toDelivery {choice : Choice} {s s' : Shared Thread C}
    {pc pc' : WorkerPc} (hsink : C.sinkPresent = true)
    (hwork : pc.undelivered ≠ [] ∨ s.queue.size ≠ 0)
    (h : workerStep choice s pc = some (s', pc')) :
    pc'.toDelivery C + 23 * (delivered s.sink).length <
      pc.toDelivery C + 23 * (delivered s'.sink).length := by
  cases pc <;> simp only [workerStep] at h
  case testRunning =>
    cases h
    have hzero := dequeue_zero_toDelivery (C := C)
    split <;> simp only [WorkerPc.toDelivery] at hzero ⊢ <;> omega
  case testEmpty =>
    have hsize : s.queue.size ≠ 0 := hwork.resolve_left (absurd rfl)
    have hzero := dequeue_zero_toDelivery (C := C)
    simp only [MpscBoundedQueue.isEmpty_iff, hsize, if_false] at h
    cases h
    rw [hzero]
    simp only [WorkerPc.toDelivery]
    omega
  case dequeue drained =>
    have hsize : s.queue.size ≠ 0 := hwork.resolve_left (absurd rfl)
    have hbatch := afterBatch_toDelivery (C := C) drained
    split at h
    · rename_i hroom
      split at h
      · have hhand : DeliverPc.testSink.toDelivery = 3 := rfl
        cases h
        simp [WorkerPc.toDelivery, hhand, hroom]
      · rename_i hdequeue
        exact absurd (MpscBoundedQueue.tryDequeue_false hdequeue).2.2 hsize
    · rename_i hroom
      cases h
      simp only [WorkerPc.toDelivery, hroom, if_false] at hbatch ⊢
      omega
  case deliver ticket drained pc =>
    rcases Option.map_eq_some_iff.mp h with ⟨⟨s1, next⟩, hstep, hpair⟩
    have hnearer := deliverStep_toDelivery hsink hstep
    cases next <;> cases hpair <;> exact hnearer
  case subOutstanding drained =>
    cases h
    simp [WorkerPc.toDelivery]
  case notifySpace drained =>
    have hnext := dequeue_toDelivery_le (C := C) (drained + 1)
    cases h
    simp only [WorkerPc.toDelivery] at hnext ⊢
    omega
  case report drained pc | lastReport pc =>
    rcases Option.map_eq_some_iff.mp h with ⟨⟨s1, next⟩, hstep, hpair⟩
    have hleft := reportStep_left hstep
    rcases reportStep_shape hstep with ⟨_, _, _, _, _, rfl, rfl⟩
    cases next <;> cases hpair <;>
      simp [WorkerPc.toDelivery, NotifyPc.left, FlushSinkPc.left] at hleft ⊢ <;>
      omega
  case notifyFlush drained pc =>
    rcases Option.map_eq_some_iff.mp h with ⟨⟨s1, next⟩, hstep, hpair⟩
    have hleft := notifyFlushStep_left hstep
    have hnext := afterIteration_toDelivery (C := C) drained
    rcases notifyFlushStep_shape hstep with ⟨_, _, rfl⟩
    cases next <;> cases hpair <;>
      simp [WorkerPc.toDelivery] at hleft hnext ⊢ <;> omega
  case lastFlush pc =>
    rcases Option.map_eq_some_iff.mp h with ⟨⟨s1, next⟩, hstep, hpair⟩
    have hleft := flushSinkStep_left hstep
    rcases flushSinkStep_shape hstep with ⟨_, _, _, rfl, rfl⟩
    cases next <;> cases hpair <;>
      simp [WorkerPc.toDelivery, NotifyPc.left] at hleft ⊢ <;> omega
  case lastNotify pc =>
    rcases Option.map_eq_some_iff.mp h with ⟨⟨s1, next⟩, hstep, hpair⟩
    have hleft := notifyFlushStep_left hstep
    rcases notifyFlushStep_shape hstep with ⟨_, _, rfl⟩
    cases next <;> cases hpair <;>
      simp [WorkerPc.toDelivery] at hleft ⊢ <;> omega
  case idleRunning expired =>
    cases h
    split <;> simp [WorkerPc.toDelivery]
  case idleEmpty expired =>
    have hsize : s.queue.size ≠ 0 := hwork.resolve_left (absurd rfl)
    simp only [MpscBoundedQueue.isEmpty_iff, hsize, false_and, if_false] at h
    cases h
    simp [WorkerPc.toDelivery]
  case idleAsleep =>
    (repeat' split at h) <;> cases h <;> simp [WorkerPc.toDelivery]
  case finished => cases h

/-!
## Runs

Only the worker delivers, and its records come off the queue.
-/

def Action.isWorker : Action Thread -> Bool
  | Action.worker _ => true
  | _ => false

section

variable [DecidableEq Thread]

def deliveryRank (records : Nat) (s : State Thread C) : Nat :=
  23 * (records - (delivered s.shared.sink).length - 1) + s.worker.toDelivery C

theorem step_accepted {s s' : State Thread C} {a : Action Thread}
    (hsink : C.sinkPresent = true) (h : s.step a = some s') :
    s.shared.history.accepted <+: s'.shared.history.accepted := by
  cases a with
  | write t record | flush t | getStats t =>
      rcases State.begin_some h with ⟨_, rfl⟩
      exact List.prefix_rfl
  | client t choice =>
      rcases Option.map_eq_some_iff.mp h with ⟨⟨shared, pc⟩, hclient, rfl⟩
      rcases (clientStep_queue hclient).2 with ⟨inserted, _, haccepted⟩
      simp only [haccepted]
      exact List.prefix_append _ _
  | worker choice =>
      rcases Option.map_eq_some_iff.mp h with ⟨⟨shared, pc⟩, hworker, rfl⟩
      simp only [(workerStep_pipeline hsink hworker).2]
      exact List.prefix_rfl
  | owner =>
      rcases Option.map_eq_some_iff.mp h with ⟨⟨shared, pc⟩, howner, rfl⟩
      rcases ownerStep_shape howner with ⟨_, _, _, rfl⟩
      exact List.prefix_rfl

theorem step_delivered {s s' : State Thread C} {a : Action Thread}
    (h : s.step a = some s') (ha : a.isWorker = false) :
    delivered s'.shared.sink = delivered s.shared.sink ∧
      s'.worker = s.worker := by
  cases a with
  | write t record | flush t | getStats t =>
      rcases State.begin_some h with ⟨_, rfl⟩
      exact ⟨rfl, rfl⟩
  | client t choice =>
      rcases Option.map_eq_some_iff.mp h with ⟨⟨shared, pc⟩, hclient, rfl⟩
      exact ⟨(clientStep_queue hclient).1, rfl⟩
  | worker choice => cases ha
  | owner =>
      rcases Option.map_eq_some_iff.mp h with ⟨⟨shared, pc⟩, howner, rfl⟩
      rcases ownerStep_shape howner with ⟨_, _, _, rfl⟩
      exact ⟨rfl, rfl⟩

theorem reachable_lag {s : State Thread C} (hsink : C.sinkPresent = true)
    (h : (asyncSink Thread C).Reachable s) :
    (delivered s.shared.sink).length + s.worker.undelivered.length +
      s.shared.queue.size = s.shared.history.accepted.length := by
  have hlength := congrArg List.length (reachable_pipeline hsink h)
  simpa [pipeline, Nat.add_assoc] using hlength

theorem ranked_delivery (hsink : C.sinkPresent = true) (records : Nat) :
    (asyncSink Thread C).Ranked (fun _ => True) Action.isWorker
      (fun s => (asyncSink Thread C).Reachable s ∧
        records ≤ s.shared.history.accepted.length)
      (fun s => records ≤ (delivered s.shared.sink).length)
      (deliveryRank records) where
  keeps := fun s a s' hs _ hstep =>
    ⟨hs.1.step hstep, Nat.le_trans hs.2 (step_accepted hsink hstep).length_le⟩
  stays := by
    intro s a s' hs _ hdone hstep
    change s.step a = some s' at hstep
    cases a with
    | worker choice =>
        rcases Option.map_eq_some_iff.mp hstep with
          ⟨⟨shared, pc⟩, hworker, rfl⟩
        rcases workerStep_shape hworker with
          ⟨_, _, _, _, _, _, _, _, _, _, _, _, rfl, rfl⟩
        simp only [delivered_append, List.length_append]
        omega
    | _ => rwa [(step_delivered hstep rfl).1]
  lowers := by
    intro s a s' hs _ hdone hstep
    have hlag := reachable_lag hsink hs.1
    change s.step a = some s' at hstep
    cases a with
    | worker choice =>
        rcases Option.map_eq_some_iff.mp hstep with
          ⟨⟨shared, pc⟩, hworker, rfl⟩
        have hwork : s.worker.undelivered ≠ [] ∨ s.shared.queue.size ≠ 0 := by
          by_contra hnone
          simp only [not_or, not_not] at hnone
          simp only [hnone.1, hnone.2, List.length_nil] at hlag
          omega
        have hnearer := workerStep_toDelivery hsink hwork hworker
        have hnext := pc.toDelivery_le (C := C)
        simp only [deliveryRank, Action.isWorker, Bool.toNat_true]
        omega
    | _ =>
        rcases step_delivered hstep rfl with ⟨hdelivered, hworker⟩
        simp only [deliveryRank, Action.isWorker, Bool.toNat_false, hdelivered,
          hworker]
        exact Or.inr (Nat.le_refl _)

theorem runFrom_accepted {s s' : State Thread C} {trace : List (Action Thread)}
    (hsink : C.sinkPresent = true)
    (hrun : (asyncSink Thread C).runFrom s trace = some s') :
    s.shared.history.accepted <+: s'.shared.history.accepted :=
  @Machine.related_of_runFrom _ _ (asyncSink Thread C)
    (fun s s' => s.shared.history.accepted <+: s'.shared.history.accepted)
    (fun _ => List.prefix_rfl) (fun _ _ _ => List.IsPrefix.trans)
    (fun _ _ _ hstep => step_accepted hsink hstep) _ _ _ hrun

/--
Everything accepted so far is delivered, in its order, before the worker has
taken more than 23 steps for each queued record and one record in its hand,
whatever the clients do in between and whichever calls of the sink throw.
-/
theorem delivered_within_worker_steps (Thread : Type) [DecidableEq Thread]
    (C : AsyncSinkConfig) (hsink : C.sinkPresent = true) :
    forall s s' trace, (asyncSink Thread C).Reachable s ->
      (asyncSink Thread C).runFrom s trace = some s' ->
      23 * (s.shared.queue.size + 1) < trace.countP Action.isWorker ->
      s.shared.history.accepted <+: delivered s'.shared.sink := by
  intro s s' trace h hrun heffort
  have hrank : deliveryRank s.shared.history.accepted.length s ≤
      23 * (s.shared.queue.size + 1) := by
    have hlag := reachable_lag hsink h
    have hhand := s.worker.undelivered_length
    have hworker := s.worker.toDelivery_le (C := C)
    unfold deliveryRank
    omega
  have hdone := (ranked_delivery hsink _).done_of_effort
    ⟨h, Nat.le_refl _⟩ (fun _ _ => trivial) hrun
    (Nat.lt_of_le_of_lt hrank heffort)
  have hdelivered : delivered s'.shared.sink <+: s'.shared.history.accepted := by
    have hpipeline := reachable_pipeline hsink
      (Machine.reachable_of_runFrom h hrun)
    rw [← hpipeline, pipeline, List.append_assoc]
    exact List.prefix_append _ _
  exact List.prefix_of_prefix_length_le (runFrom_accepted hsink hrun)
    hdelivered hdone

end

def patientWorker : List (Action Unit) :=
  Action.write () {} :: List.replicate 8 (Action.client () Choice.plain)

theorem patientWorker_delivers :
    exists s s' : State Unit (smallSink AsyncOverflowPolicy.block),
      (asyncSink Unit (smallSink AsyncOverflowPolicy.block)).Reachable s ∧
      s.shared.history.accepted ≠ [] ∧
      s.shared.history.accepted <+: delivered s'.shared.sink := by
  have hrun : ((asyncSink Unit (smallSink AsyncOverflowPolicy.block)).run
      patientWorker).any (fun s =>
        decide (s.shared.queue.size = 1) &&
        decide (s.shared.history.accepted ≠ []) &&
        ((asyncSink Unit (smallSink AsyncOverflowPolicy.block)).runFrom s
          (List.replicate 47 (Action.worker Choice.expires))).isSome) =
        true := by
    decide
  rcases Machine.exists_reachable_of_run hrun with ⟨s, hreachable, htest⟩
  simp only [Bool.and_eq_true, decide_eq_true_eq, Option.isSome_iff_exists]
    at htest
  rcases htest with ⟨⟨hsize, haccepted⟩, s', hrest⟩
  refine ⟨s, s', hreachable, haccepted, ?_⟩
  refine delivered_within_worker_steps Unit _ rfl s s' _ hreachable hrest ?_
  rw [hsize]
  decide

end Async
end NginLog
