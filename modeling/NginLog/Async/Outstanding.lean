import NginLog.Async.Routines
import NginLog.Foundation.FamilySum

/-!
# What the outstanding counter counts

`m_outstanding` is raised before a queue insertion and lowered after the
delivery, or after the failed attempt.  In every reachable state it is the
number of queued records plus one for each thread that stands between raising it
and either inserting or lowering it.  In particular it is never negative, and it
bounds the records that are still on their way to the wrapped sink.
-/

namespace NginLog
namespace Async

open Foundation

variable {Thread : Type} {C : AsyncSinkConfig}

def EnqueuePc.owes : EnqueuePc -> Int
  | EnqueuePc.tryEnqueue => 1
  | EnqueuePc.subOutstanding => 1
  | EnqueuePc.countFallback => 1
  | EnqueuePc.deliver _ => 1
  | EnqueuePc.subFallback => 1
  | _ => 0

def ClientPc.owes : ClientPc -> Int
  | ClientPc.enqueue _ pc => pc.owes
  | _ => 0

def WorkerPc.owes : WorkerPc -> Int
  | WorkerPc.deliver _ _ _ => 1
  | WorkerPc.subOutstanding _ => 1
  | _ => 0

theorem EnqueuePc.owes_nonneg (pc : EnqueuePc) : 0 ≤ pc.owes := by
  cases pc <;> simp [EnqueuePc.owes]

theorem ClientPc.owes_nonneg (pc : ClientPc) : 0 ≤ pc.owes := by
  cases pc with
  | enqueue ticket pc => exact pc.owes_nonneg
  | _ => simp [ClientPc.owes]

theorem WorkerPc.owes_nonneg (pc : WorkerPc) : 0 ≤ pc.owes := by
  cases pc <;> simp [WorkerPc.owes]

/-!
## One step
-/

/-- The counter moves with the queue and with what the stepping thread owes. -/
def Balanced (s s' : Shared Thread C) (owes owes' : Int) : Prop :=
  s'.outstanding - s'.queue.size - owes' = s.outstanding - s.queue.size - owes

theorem Balanced.of_eq {s s' : Shared Thread C} {owes owes' : Int}
    (houtstanding : s'.outstanding = s.outstanding)
    (hqueue : s'.queue = s.queue) (howes : owes' = owes) :
    Balanced s s' owes owes' := by
  unfold Balanced
  rw [houtstanding, hqueue, howes]

section

variable [DecidableEq Thread]

theorem enqueueStep_balanced {t : Thread} {choice : Choice}
    {s s' : Shared Thread C} {ticket : Ticket} {pc : EnqueuePc} {pc' : ClientPc}
    (h : enqueueStep t choice s ticket pc = some (s', pc')) :
    Balanced s s' pc.owes pc'.owes := by
  cases pc <;> simp only [enqueueStep] at h
  case addOutstanding | subOutstanding | addFallback | subFallback =>
    cases h
    simp only [Balanced, ClientPc.owes, EnqueuePc.owes]
    omega
  case tryEnqueue =>
    split at h
    · rename_i htry
      have hsize := (MpscBoundedQueue.contents_tryEnqueue htry).2.2.1
      cases h
      simp only [Balanced, ClientPc.owes, EnqueuePc.owes]
      omega
    · rename_i htry
      have hsame := (MpscBoundedQueue.tryEnqueue_false htry).1
      cases h
      exact Balanced.of_eq rfl hsame rfl
  case notifyFlush pc =>
    rcases Option.map_eq_some_iff.mp h with ⟨⟨s1, next⟩, hstep, hpair⟩
    rcases notifyFlushStep_shape hstep with ⟨_, _, rfl⟩
    cases next <;> cases hpair
    · exact Balanced.of_eq rfl rfl
        (afterRejection_eq ClientPc.owes rfl rfl rfl)
    · exact Balanced.of_eq rfl rfl rfl
  case deliver pc =>
    rcases Option.map_eq_some_iff.mp h with ⟨⟨s1, next⟩, hstep, hpair⟩
    rcases deliverStep_shape hstep with ⟨_, _, _, _, rfl, _⟩
    cases next <;> cases hpair <;> exact Balanced.of_eq rfl rfl rfl
  case notifyFallback pc =>
    rcases Option.map_eq_some_iff.mp h with ⟨⟨s1, next⟩, hstep, hpair⟩
    rcases notifyFlushStep_shape hstep with ⟨_, _, rfl⟩
    cases next <;> cases hpair <;> exact Balanced.of_eq rfl rfl rfl
  all_goals
    (repeat' split at h) <;> cases h <;> exact Balanced.of_eq rfl rfl rfl

theorem clientStep_balanced {t : Thread} {choice : Choice}
    {s s' : Shared Thread C} {pc pc' : ClientPc}
    (h : clientStep t choice s pc = some (s', pc')) :
    Balanced s s' pc.owes pc'.owes := by
  cases pc with
  | idle => cases h
  | enter call record =>
      cases h
      apply Balanced.of_eq rfl rfl
      split
      · exact enqueueEntry_eq ClientPc.owes rfl rfl
      · rfl
  | enqueue ticket pc => exact enqueueStep_balanced h
  | drop call timeout holding pc =>
      rcases dropStep_shape h with ⟨⟨_, _, _, _, _, _, _, _, rfl⟩, hpc⟩
      rcases hpc with rfl | ⟨_, rfl⟩ <;> exact Balanced.of_eq rfl rfl rfl
  | flush before pc =>
      rcases flushStep_shape h with ⟨⟨_, _, _, _, _, _, _, _, rfl, _⟩, hpc⟩
      rcases hpc with rfl | ⟨_, rfl⟩ <;> exact Balanced.of_eq rfl rfl rfl
  | stats loaded pc =>
      rcases statsStep_shape (Option.some.inj h) with ⟨⟨_, rfl⟩, hpc⟩
      rcases hpc with rfl | ⟨_, _, rfl⟩ <;> exact Balanced.of_eq rfl rfl rfl

end

theorem workerStep_balanced {choice : Choice} {s s' : Shared Thread C}
    {pc pc' : WorkerPc} (h : workerStep choice s pc = some (s', pc')) :
    Balanced s s' pc.owes pc'.owes := by
  cases pc <;> simp only [workerStep] at h
  case testRunning =>
    cases h
    apply Balanced.of_eq rfl rfl
    split <;> rfl
  case testEmpty =>
    cases h
    apply Balanced.of_eq rfl rfl
    split
    · exact afterLoop_eq WorkerPc.owes rfl rfl
    · rfl
  case dequeue drained =>
    split at h
    · split at h
      · rename_i hdequeue
        have hsize := (MpscBoundedQueue.contents_tryDequeue hdequeue).2
        cases h
        simp only [Balanced, WorkerPc.owes]
        omega
      · rename_i hdequeue
        have hsame := (MpscBoundedQueue.tryDequeue_false hdequeue).1
        cases h
        exact Balanced.of_eq rfl hsame (afterBatch_eq WorkerPc.owes rfl rfl)
    · cases h
      exact Balanced.of_eq rfl rfl (afterBatch_eq WorkerPc.owes rfl rfl)
  case deliver ticket drained pc =>
    rcases Option.map_eq_some_iff.mp h with ⟨⟨s1, next⟩, hstep, hpair⟩
    rcases deliverStep_shape hstep with ⟨_, _, _, _, rfl, _⟩
    cases next <;> cases hpair <;> exact Balanced.of_eq rfl rfl rfl
  case subOutstanding drained =>
    cases h
    simp only [Balanced, WorkerPc.owes]
    omega
  case report drained pc | lastReport pc =>
    rcases Option.map_eq_some_iff.mp h with ⟨⟨s1, next⟩, hstep, hpair⟩
    rcases reportStep_shape hstep with ⟨_, _, _, _, _, rfl, _⟩
    cases next <;> cases hpair <;> exact Balanced.of_eq rfl rfl rfl
  case notifyFlush drained pc =>
    rcases Option.map_eq_some_iff.mp h with ⟨⟨s1, next⟩, hstep, hpair⟩
    rcases notifyFlushStep_shape hstep with ⟨_, _, rfl⟩
    cases next <;> cases hpair
    · exact Balanced.of_eq rfl rfl (afterIteration_eq WorkerPc.owes rfl rfl)
    · exact Balanced.of_eq rfl rfl rfl
  case lastNotify pc =>
    rcases Option.map_eq_some_iff.mp h with ⟨⟨s1, next⟩, hstep, hpair⟩
    rcases notifyFlushStep_shape hstep with ⟨_, _, rfl⟩
    cases next <;> cases hpair <;> exact Balanced.of_eq rfl rfl rfl
  case lastFlush pc =>
    rcases Option.map_eq_some_iff.mp h with ⟨⟨s1, next⟩, hstep, hpair⟩
    rcases flushSinkStep_shape hstep with ⟨_, _, _, rfl, _⟩
    cases next <;> cases hpair <;> exact Balanced.of_eq rfl rfl rfl
  case idleRunning expired =>
    cases h
    apply Balanced.of_eq rfl rfl
    split <;> rfl
  all_goals
    (repeat' split at h) <;> cases h <;> exact Balanced.of_eq rfl rfl rfl

/-!
## Every reachable state
-/

section

variable [Fintype Thread]

def OutstandingCounts (s : State Thread C) : Prop :=
  s.shared.outstanding =
    s.shared.queue.size + s.worker.owes + ∑ t, (s.client t).owes

theorem OutstandingCounts.client [DecidableEq Thread] {s : State Thread C}
    {t : Thread} {shared : Shared Thread C} {pc : ClientPc} (hs : OutstandingCounts s)
    (hbalanced : Balanced s.shared shared (s.client t).owes pc.owes) :
    OutstandingCounts
      { s with shared := shared, client := Function.update s.client t pc } := by
  unfold OutstandingCounts at hs ⊢
  unfold Balanced at hbalanced
  rw [sum_update s.client t pc ClientPc.owes]
  simp only
  omega

theorem outstandingCounts_step [DecidableEq Thread] {s s' : State Thread C}
    {a : Action Thread} (hs : OutstandingCounts s) (h : s.step a = some s') :
    OutstandingCounts s' := by
  cases a with
  | write t record =>
      rcases State.begin_some h with ⟨hidle, rfl⟩
      apply hs.client
      rw [hidle]
      exact Balanced.of_eq rfl rfl rfl
  | flush t =>
      rcases State.begin_some h with ⟨hidle, rfl⟩
      apply hs.client
      rw [hidle]
      exact Balanced.of_eq rfl rfl rfl
  | getStats t =>
      rcases State.begin_some h with ⟨hidle, rfl⟩
      apply hs.client
      rw [hidle]
      exact Balanced.of_eq rfl rfl rfl
  | client t choice =>
      rcases Option.map_eq_some_iff.mp h with ⟨⟨shared, pc⟩, hstep, rfl⟩
      exact hs.client (clientStep_balanced hstep)
  | worker choice =>
      rcases Option.map_eq_some_iff.mp h with ⟨⟨shared, pc⟩, hstep, rfl⟩
      have hbalanced := workerStep_balanced hstep
      unfold OutstandingCounts at hs ⊢
      unfold Balanced at hbalanced
      simp only
      omega
  | owner =>
      rcases Option.map_eq_some_iff.mp h with ⟨⟨shared, pc⟩, hstep, rfl⟩
      rcases ownerStep_shape hstep with ⟨_, _, _, rfl⟩
      exact hs

theorem reachable_outstandingCounts [DecidableEq Thread]
    {s : State Thread C}
    (h : (asyncSink Thread C).Reachable s) :
    OutstandingCounts s := by
  refine Machine.invariant ?_ (fun s a s' _ hs hstep => ?_) h
  · simp [OutstandingCounts, asyncSink, ClientPc.owes, WorkerPc.owes,
      MpscBoundedQueue.empty]
  · exact outstandingCounts_step hs hstep

theorem clients_owe_nonneg (s : State Thread C) :
    0 ≤ ∑ t, (s.client t).owes :=
  Finset.sum_nonneg fun t _ => (s.client t).owes_nonneg

theorem OutstandingCounts.size_le {s : State Thread C}
    (hs : OutstandingCounts s) :
    s.shared.queue.size ≤ s.shared.outstanding := by
  unfold OutstandingCounts at hs
  have hworker := s.worker.owes_nonneg
  have hclients := clients_owe_nonneg s
  omega

theorem OutstandingCounts.of_zero {s : State Thread C}
    (hs : OutstandingCounts s) (hzero : s.shared.outstanding = 0) :
    s.shared.queue.size = 0 ∧ s.worker.owes = 0 ∧
      forall t, (s.client t).owes = 0 := by
  unfold OutstandingCounts at hs
  have hworker := s.worker.owes_nonneg
  have hclients := clients_owe_nonneg s
  have hsum : (∑ t, (s.client t).owes) = 0 := by omega
  exact ⟨by omega, by omega,
    weight_eq_zero_of_sum_eq_zero ClientPc.owes_nonneg hsum⟩

end

end Async
end NginLog
