import NginLog.Async.Outstanding
import NginLog.Foundation.ConditionVariable

/-!
# Waking the callers of Flush

`NotifyFlushWaiters` tests the flush condition outside `m_flushMutex` and skips
the notification when the condition looks false.  A thread that makes the
condition true comes to `NotifyFlushWaiters` afterwards, and takes the mutex
before it notifies, so that no caller of `Flush` can be between its test and its
sleep.  The skipped notifications are made up for by the thread that lowers
`m_outstanding` last.
-/

namespace NginLog
namespace Async

open Foundation

variable {Thread : Type} {C : AsyncSinkConfig}

/-!
## Who holds the flush mutex
-/

def NotifyPc.holds : NotifyPc -> Bool
  | NotifyPc.notifyAll => true
  | NotifyPc.unlock => true
  | _ => false

def FlushPc.holds : FlushPc -> Bool
  | FlushPc.testOutstanding => true
  | FlushPc.testEmpty => true
  | FlushPc.sleep => true
  | FlushPc.unlock => true
  | _ => false

def ClientPc.holdsFlush : ClientPc -> Bool
  | ClientPc.enqueue _ (EnqueuePc.notifyFlush pc) => pc.holds
  | ClientPc.enqueue _ (EnqueuePc.notifyFallback pc) => pc.holds
  | ClientPc.flush _ pc => pc.holds
  | _ => false

def WorkerPc.holdsFlush : WorkerPc -> Bool
  | WorkerPc.notifyFlush _ pc => pc.holds
  | WorkerPc.lastNotify pc => pc.holds
  | _ => false

theorem notifyFlushStep_flushLock {me : Agent Thread} {s s' : Shared Thread C}
    {pc : NotifyPc} {next : Option NotifyPc}
    (h : notifyFlushStep me s pc = some (s', next)) :
    LockStep me pc.holds (next.any NotifyPc.holds)
      s.flushMutex s'.flushMutex := by
  cases pc <;> simp only [notifyFlushStep] at h
  case lock =>
    split at h
    · rename_i hfree
      cases h
      exact LockStep.of_free hfree
    · cases h
  case unlock =>
    cases h
    exact LockStep.release
  case loadOutstanding | testEmpty =>
    cases h
    split <;> exact LockStep.keep
  case notifyAll =>
    cases h
    exact LockStep.keep

section

variable [DecidableEq Thread]

theorem enqueueStep_flushLock {t : Thread} {choice : Choice}
    {s s' : Shared Thread C} {ticket : Ticket} {pc : EnqueuePc} {pc' : ClientPc}
    (h : enqueueStep t choice s ticket pc = some (s', pc')) :
    LockStep (Agent.client t) (ClientPc.enqueue ticket pc).holdsFlush
      pc'.holdsFlush s.flushMutex s'.flushMutex := by
  cases pc <;> simp only [enqueueStep] at h
  case notifyFlush pc =>
    rcases Option.map_eq_some_iff.mp h with ⟨⟨s1, next⟩, hstep, hpair⟩
    have hlock := notifyFlushStep_flushLock hstep
    cases next <;> cases hpair
    · rw [afterRejection_eq ClientPc.holdsFlush rfl rfl rfl]
      exact hlock
    · exact hlock
  case deliver pc =>
    rcases Option.map_eq_some_iff.mp h with ⟨⟨s1, next⟩, hstep, hpair⟩
    rcases deliverStep_shape hstep with ⟨_, _, _, _, rfl, _⟩
    cases next <;> cases hpair <;> exact LockStep.keep
  case notifyFallback pc =>
    rcases Option.map_eq_some_iff.mp h with ⟨⟨s1, next⟩, hstep, hpair⟩
    have hlock := notifyFlushStep_flushLock hstep
    cases next <;> cases hpair <;> exact hlock
  all_goals
    (repeat' split at h) <;> cases h <;> exact LockStep.keep

theorem flushStep_flushLock {t : Thread} {choice : Choice}
    {s s' : Shared Thread C} {before : List Nat} {pc : FlushPc} {pc' : ClientPc}
    (h : flushStep t choice s before pc = some (s', pc')) :
    LockStep (Agent.client t) pc.holds pc'.holdsFlush
      s.flushMutex s'.flushMutex := by
  cases pc <;> simp only [flushStep] at h
  case lock | relock =>
    split at h
    · rename_i hfree
      cases h
      exact LockStep.of_free hfree
    · cases h
  case testOutstanding | testEmpty =>
    cases h
    split <;> exact LockStep.keep
  case sleep =>
    cases h
    exact LockStep.release
  case asleep =>
    split at h
    · cases h
      exact LockStep.keep
    · cases h
  case unlock =>
    cases h
    split <;> exact LockStep.release
  case report pc =>
    rcases Option.map_eq_some_iff.mp h with ⟨⟨s1, next⟩, hstep, hpair⟩
    rcases reportStep_shape hstep with ⟨_, _, _, _, _, rfl, _⟩
    cases next <;> cases hpair <;> exact LockStep.keep
  case flushSink pc =>
    rcases Option.map_eq_some_iff.mp h with ⟨⟨s1, next⟩, hstep, hpair⟩
    rcases flushSinkStep_shape hstep with ⟨_, _, _, rfl, _⟩
    cases next <;> cases hpair <;> exact LockStep.keep

theorem clientStep_flushLock {t : Thread} {choice : Choice}
    {s s' : Shared Thread C} {pc pc' : ClientPc}
    (h : clientStep t choice s pc = some (s', pc')) :
    LockStep (Agent.client t) pc.holdsFlush pc'.holdsFlush
      s.flushMutex s'.flushMutex := by
  cases pc with
  | idle => cases h
  | enter call record =>
      cases h
      apply LockStep.of_eq _ rfl
      split
      · exact enqueueEntry_eq ClientPc.holdsFlush rfl rfl
      · rfl
  | enqueue ticket pc => exact enqueueStep_flushLock h
  | drop call timeout holding pc =>
      rcases dropStep_shape h with ⟨⟨_, _, _, _, _, _, _, _, rfl⟩, hpc⟩
      rcases hpc with rfl | ⟨_, rfl⟩ <;> exact LockStep.keep
  | flush before pc => exact flushStep_flushLock h
  | stats loaded pc =>
      rcases statsStep_shape (Option.some.inj h) with ⟨⟨_, rfl⟩, hpc⟩
      rcases hpc with rfl | ⟨_, _, rfl⟩ <;> exact LockStep.keep

end

theorem workerStep_flushLock {choice : Choice} {s s' : Shared Thread C}
    {pc pc' : WorkerPc} (h : workerStep choice s pc = some (s', pc')) :
    LockStep Agent.worker pc.holdsFlush pc'.holdsFlush
      s.flushMutex s'.flushMutex := by
  cases pc <;> simp only [workerStep] at h
  case testRunning | idleRunning expired =>
    cases h
    split <;> exact LockStep.keep
  case testEmpty =>
    cases h
    split
    · exact LockStep.of_eq (afterLoop_eq WorkerPc.holdsFlush rfl rfl) rfl
    · exact LockStep.keep
  case dequeue drained =>
    (repeat' split at h) <;> cases h
    · exact LockStep.keep
    · exact LockStep.of_eq (afterBatch_eq WorkerPc.holdsFlush rfl rfl) rfl
    · exact LockStep.of_eq (afterBatch_eq WorkerPc.holdsFlush rfl rfl) rfl
  case deliver ticket drained pc =>
    rcases Option.map_eq_some_iff.mp h with ⟨⟨s1, next⟩, hstep, hpair⟩
    rcases deliverStep_shape hstep with ⟨_, _, _, _, rfl, _⟩
    cases next <;> cases hpair <;> exact LockStep.keep
  case report drained pc | lastReport pc =>
    rcases Option.map_eq_some_iff.mp h with ⟨⟨s1, next⟩, hstep, hpair⟩
    rcases reportStep_shape hstep with ⟨_, _, _, _, _, rfl, _⟩
    cases next <;> cases hpair <;> exact LockStep.keep
  case notifyFlush drained pc =>
    rcases Option.map_eq_some_iff.mp h with ⟨⟨s1, next⟩, hstep, hpair⟩
    have hlock := notifyFlushStep_flushLock hstep
    cases next <;> cases hpair
    · rw [afterIteration_eq WorkerPc.holdsFlush rfl rfl]
      exact hlock
    · exact hlock
  case lastNotify pc =>
    rcases Option.map_eq_some_iff.mp h with ⟨⟨s1, next⟩, hstep, hpair⟩
    have hlock := notifyFlushStep_flushLock hstep
    cases next <;> cases hpair <;> exact hlock
  case lastFlush pc =>
    rcases Option.map_eq_some_iff.mp h with ⟨⟨s1, next⟩, hstep, hpair⟩
    rcases flushSinkStep_shape hstep with ⟨_, _, _, rfl, _⟩
    cases next <;> cases hpair <;> exact LockStep.keep
  all_goals
    (repeat' split at h) <;> cases h <;> exact LockStep.keep

theorem disciplined_flush [DecidableEq Thread] :
    Disciplined (fun s : Shared Thread C => s.flushMutex)
      ClientPc.holdsFlush WorkerPc.holdsFlush where
  idle := rfl
  enter := fun _ _ => rfl
  flush := fun _ => rfl
  stats := fun _ => rfl
  testRunning := rfl
  frame := fun _ _ _ _ _ => rfl
  clientStep := fun _ _ _ _ _ _ h => clientStep_flushLock h
  workerStep := fun _ _ _ _ _ h => workerStep_flushLock h

/-!
## Who owes a notification
-/

/-- This call of `NotifyFlushWaiters` may still notify. -/
def NotifyPc.due : NotifyPc -> Bool
  | NotifyPc.unlock => false
  | _ => true

/--
The client has lowered `m_outstanding` and not yet executed the
`NotifyFlushWaiters` that follows, up to its `notify_all`.
-/
def ClientPc.owesFlush : ClientPc -> Bool
  | ClientPc.enqueue _ (EnqueuePc.notifyFlush pc) => pc.due
  | ClientPc.enqueue _ (EnqueuePc.notifyFallback pc) => pc.due
  | _ => false

/-- The worker calls it once for a batch, so `drained` tells whether it owes. -/
def WorkerPc.owesFlush : WorkerPc -> Bool
  | WorkerPc.notifySpace _ => true
  | WorkerPc.dequeue drained => decide (0 < drained)
  | WorkerPc.deliver _ drained _ => decide (0 < drained)
  | WorkerPc.subOutstanding drained => decide (0 < drained)
  | WorkerPc.report drained _ => decide (0 < drained)
  | WorkerPc.notifyFlush drained pc => decide (0 < drained) && pc.due
  | _ => false

def State.owesFlush (s : State Thread C) : Agent Thread -> Bool
  | Agent.worker => s.worker.owesFlush
  | Agent.client t => (s.client t).owesFlush

def ClientPc.aboutToWait : ClientPc -> Bool
  | ClientPc.flush _ FlushPc.sleep => true
  | _ => false

def ClientPc.asleepInFlush : ClientPc -> Bool
  | ClientPc.flush _ FlushPc.asleep => true
  | _ => false

/-- The client is asleep on `m_flushCondition` and has not been notified. -/
def AsleepInFlush (s : State Thread C) (t : Thread) : Prop :=
  (s.client t).asleepInFlush = true ∧ t ∈ s.shared.flushSleepers

/-- The predicate that `Flush` waits for and `NotifyFlushWaiters` tests. -/
def Shared.Drained (s : Shared Thread C) : Prop :=
  s.outstanding = 0 ∧ s.queue.isEmpty = true

/--
The condition variable of `Flush`.  Its predicate comes down to its first half,
because `m_outstanding` counts the queued records as well.
-/
def State.flushWait (s : State Thread C) : WaitState (Agent Thread) where
  ready := s.shared.outstanding = 0
  asleep
    | Agent.worker => False
    | Agent.client t => t ∈ s.shared.flushSleepers
  aboutToSleep
    | Agent.worker => false
    | Agent.client t => (s.client t).aboutToWait
  owes := s.owesFlush

/-!
## One step

A thread that raises `m_outstanding` makes the condition false, and one that
lowers it is on its way to notify.  The counter covers the queued records, so at
zero the queue is empty.
-/

/--
What a step does to the sleepers and to `m_outstanding`, where the flags say
what the stepping thread is and owes before and after it.
-/
structure FlushStep (s s' : Shared Thread C)
    (holds about about' owes owes' : Bool) : Prop where
  ready : s'.outstanding = 0 -> s.outstanding = 0 ∨ owes' = true
  owes : owes = true -> s'.outstanding = 0 ->
    owes' = true ∨ (holds = true ∧ s'.flushSleepers = [])
  sleepers : forall t, t ∈ s'.flushSleepers ->
    t ∈ s.flushSleepers ∨ about = true
  aboutToWait : about' = true -> s'.outstanding ≠ 0

theorem FlushStep.of_eq {s s' : Shared Thread C}
    {holds about about' owes owes' : Bool}
    (houtstanding : s'.outstanding = s.outstanding)
    (hsleepers : s'.flushSleepers = s.flushSleepers)
    (habout : about' = false) (howes : owes = true -> owes' = true) :
    FlushStep s s' holds about about' owes owes' where
  ready := fun hready => Or.inl (houtstanding ▸ hready)
  owes := fun h _ => Or.inl (howes h)
  sleepers := fun t ht => Or.inl (hsleepers ▸ ht)
  aboutToWait := fun h => by
    rw [habout] at h
    cases h

theorem FlushStep.raises {s s' : Shared Thread C}
    {holds about about' owes owes' : Bool} (hnonneg : 0 ≤ s.outstanding)
    (houtstanding : s'.outstanding = s.outstanding + 1)
    (hsleepers : s'.flushSleepers = s.flushSleepers) (habout : about' = false) :
    FlushStep s s' holds about about' owes owes' where
  ready := fun hready => by omega
  owes := fun _ hready => by omega
  sleepers := fun t ht => Or.inl (hsleepers ▸ ht)
  aboutToWait := fun h => by
    rw [habout] at h
    cases h

theorem FlushStep.lowers {s s' : Shared Thread C}
    {holds about about' owes : Bool}
    (hsleepers : s'.flushSleepers = s.flushSleepers) (habout : about' = false) :
    FlushStep s s' holds about about' owes true where
  ready := fun _ => Or.inr rfl
  owes := fun _ _ => Or.inl rfl
  sleepers := fun t ht => Or.inl (hsleepers ▸ ht)
  aboutToWait := fun h => by
    rw [habout] at h
    cases h

theorem outstanding_ne_zero_of_nonempty {s : Shared Thread C}
    (hcovers : s.queue.size ≤ s.outstanding)
    (h : ¬ s.queue.isEmpty = true) :
    s.outstanding ≠ 0 := by
  intro hzero
  apply h
  rw [MpscBoundedQueue.isEmpty_iff]
  omega

theorem notifyFlushStep_wakes {me : Agent Thread} {s s' : Shared Thread C}
    {pc : NotifyPc} {next : Option NotifyPc} (owing : Bool)
    (hcovers : s.queue.size ≤ s.outstanding)
    (h : notifyFlushStep me s pc = some (s', next)) :
    FlushStep s s' pc.holds false false (owing && pc.due)
      (owing && next.any NotifyPc.due) := by
  cases pc <;> simp only [notifyFlushStep] at h
  case loadOutstanding =>
    cases h
    split
    · exact FlushStep.of_eq rfl rfl rfl id
    · rename_i hnonzero
      exact ⟨Or.inl, fun _ hzero => absurd hzero hnonzero, fun _ => Or.inl,
        fun habout => absurd habout Bool.false_ne_true⟩
  case testEmpty =>
    cases h
    split
    · exact FlushStep.of_eq rfl rfl rfl id
    · rename_i hnonempty
      have hnonzero := outstanding_ne_zero_of_nonempty hcovers hnonempty
      exact ⟨Or.inl, fun _ hzero => absurd hzero hnonzero, fun _ => Or.inl,
        fun habout => absurd habout Bool.false_ne_true⟩
  case lock =>
    split at h
    · cases h
      exact FlushStep.of_eq rfl rfl rfl id
    · cases h
  case notifyAll =>
    cases h
    exact ⟨Or.inl, fun _ _ => Or.inr ⟨rfl, rfl⟩,
      fun _ ht => absurd ht List.not_mem_nil,
      fun habout => absurd habout Bool.false_ne_true⟩
  case unlock =>
    cases h
    exact FlushStep.of_eq rfl rfl rfl id

section

variable [DecidableEq Thread]

theorem enqueueStep_wakes {t : Thread} {choice : Choice}
    {s s' : Shared Thread C} {ticket : Ticket} {pc : EnqueuePc} {pc' : ClientPc}
    (hcovers : s.queue.size ≤ s.outstanding)
    (h : enqueueStep t choice s ticket pc = some (s', pc')) :
    FlushStep s s' (ClientPc.enqueue ticket pc).holdsFlush
      (ClientPc.enqueue ticket pc).aboutToWait pc'.aboutToWait
      (ClientPc.enqueue ticket pc).owesFlush pc'.owesFlush := by
  cases pc <;> simp only [enqueueStep] at h
  case addOutstanding | addFallback =>
    cases h
    exact FlushStep.raises (by omega) rfl rfl rfl
  case subOutstanding | subFallback =>
    cases h
    exact FlushStep.lowers rfl rfl
  case notifyFlush pc =>
    rcases Option.map_eq_some_iff.mp h with ⟨⟨s1, next⟩, hstep, hpair⟩
    have hwakes := notifyFlushStep_wakes true hcovers hstep
    cases next <;> cases hpair
    · rw [afterRejection_eq ClientPc.aboutToWait rfl rfl rfl,
        afterRejection_eq ClientPc.owesFlush rfl rfl rfl]
      exact hwakes
    · exact hwakes
  case deliver pc =>
    rcases Option.map_eq_some_iff.mp h with ⟨⟨s1, next⟩, hstep, hpair⟩
    rcases deliverStep_shape hstep with ⟨_, _, _, _, rfl, _⟩
    cases next <;> cases hpair <;> exact FlushStep.of_eq rfl rfl rfl id
  case notifyFallback pc =>
    rcases Option.map_eq_some_iff.mp h with ⟨⟨s1, next⟩, hstep, hpair⟩
    have hwakes := notifyFlushStep_wakes true hcovers hstep
    cases next <;> cases hpair
    · exact ⟨hwakes.ready, hwakes.owes, hwakes.sleepers, hwakes.aboutToWait⟩
    · exact hwakes
  all_goals
    (repeat' split at h) <;> cases h <;> exact FlushStep.of_eq rfl rfl rfl id

theorem flushStep_wakes {t : Thread} {choice : Choice}
    {s s' : Shared Thread C} {before : List Nat} {pc : FlushPc} {pc' : ClientPc}
    (hcovers : s.queue.size ≤ s.outstanding)
    (h : flushStep t choice s before pc = some (s', pc')) :
    FlushStep s s' pc.holds (ClientPc.flush before pc).aboutToWait
      pc'.aboutToWait false pc'.owesFlush := by
  cases pc <;> simp only [flushStep] at h
  case testOutstanding =>
    cases h
    split
    · exact FlushStep.of_eq rfl rfl rfl id
    · rename_i hnonzero
      exact ⟨Or.inl, fun howes => absurd howes Bool.false_ne_true,
        fun _ => Or.inl, fun _ => hnonzero⟩
  case testEmpty =>
    cases h
    split
    · exact FlushStep.of_eq rfl rfl rfl id
    · rename_i hnonempty
      have hnonzero := outstanding_ne_zero_of_nonempty hcovers hnonempty
      exact ⟨Or.inl, fun howes => absurd howes Bool.false_ne_true,
        fun _ => Or.inl, fun _ => hnonzero⟩
  case sleep =>
    cases h
    exact ⟨Or.inl, fun howes => absurd howes Bool.false_ne_true,
      fun _ _ => Or.inr rfl, fun habout => absurd habout Bool.false_ne_true⟩
  case asleep =>
    split at h
    · cases h
      exact ⟨Or.inl, fun howes => absurd howes Bool.false_ne_true,
        fun _ ht => Or.inl (List.mem_of_mem_filter ht),
        fun habout => absurd habout Bool.false_ne_true⟩
    · cases h
  case unlock =>
    cases h
    split <;> exact FlushStep.of_eq rfl rfl rfl id
  case report pc =>
    rcases Option.map_eq_some_iff.mp h with ⟨⟨s1, next⟩, hstep, hpair⟩
    rcases reportStep_shape hstep with ⟨_, _, _, _, _, rfl, _⟩
    cases next <;> cases hpair <;> exact FlushStep.of_eq rfl rfl rfl id
  case flushSink pc =>
    rcases Option.map_eq_some_iff.mp h with ⟨⟨s1, next⟩, hstep, hpair⟩
    rcases flushSinkStep_shape hstep with ⟨_, _, _, rfl, _⟩
    cases next <;> cases hpair <;> exact FlushStep.of_eq rfl rfl rfl id
  all_goals
    split at h <;> cases h
    exact FlushStep.of_eq rfl rfl rfl id

theorem clientStep_wakes {t : Thread} {choice : Choice}
    {s s' : Shared Thread C} {pc pc' : ClientPc}
    (hcovers : s.queue.size ≤ s.outstanding)
    (h : clientStep t choice s pc = some (s', pc')) :
    FlushStep s s' pc.holdsFlush pc.aboutToWait pc'.aboutToWait
      pc.owesFlush pc'.owesFlush := by
  cases pc with
  | idle => cases h
  | enter call record =>
      cases h
      apply FlushStep.of_eq rfl rfl
      · split
        · rfl
        · rfl
      · exact fun howes => absurd howes Bool.false_ne_true
  | enqueue ticket pc => exact enqueueStep_wakes hcovers h
  | drop call timeout holding pc =>
      rcases dropStep_shape h with ⟨⟨_, _, _, _, _, _, _, _, rfl⟩, hpc⟩
      rcases hpc with rfl | ⟨_, rfl⟩ <;> exact FlushStep.of_eq rfl rfl rfl id
  | flush before pc => exact flushStep_wakes hcovers h
  | stats loaded pc =>
      rcases statsStep_shape (Option.some.inj h) with ⟨⟨_, rfl⟩, hpc⟩
      rcases hpc with rfl | ⟨_, _, rfl⟩ <;> exact FlushStep.of_eq rfl rfl rfl id

end

theorem workerStep_wakes {choice : Choice} {s s' : Shared Thread C}
    {pc pc' : WorkerPc} (hcovers : s.queue.size ≤ s.outstanding)
    (h : workerStep choice s pc = some (s', pc')) :
    FlushStep s s' pc.holdsFlush false false pc.owesFlush pc'.owesFlush := by
  cases pc <;> simp only [workerStep] at h
  case dequeue drained =>
    (repeat' split at h) <;> cases h
    · exact FlushStep.of_eq rfl rfl rfl id
    · rw [afterBatch_eq WorkerPc.owesFlush rfl (Bool.and_true _)]
      exact FlushStep.of_eq rfl rfl rfl id
    · rw [afterBatch_eq WorkerPc.owesFlush rfl (Bool.and_true _)]
      exact FlushStep.of_eq rfl rfl rfl id
  case deliver ticket drained pc =>
    rcases Option.map_eq_some_iff.mp h with ⟨⟨s1, next⟩, hstep, hpair⟩
    rcases deliverStep_shape hstep with ⟨_, _, _, _, rfl, _⟩
    cases next <;> cases hpair <;> exact FlushStep.of_eq rfl rfl rfl id
  case subOutstanding drained =>
    cases h
    exact FlushStep.lowers rfl rfl
  case notifySpace drained =>
    cases h
    exact FlushStep.of_eq rfl rfl rfl fun _ => decide_eq_true drained.succ_pos
  case report drained pc =>
    rcases Option.map_eq_some_iff.mp h with ⟨⟨s1, next⟩, hstep, hpair⟩
    rcases reportStep_shape hstep with ⟨_, _, _, _, _, rfl, _⟩
    cases next <;> cases hpair
    · exact FlushStep.of_eq rfl rfl rfl fun howes =>
        (Bool.and_true _).trans howes
    · exact FlushStep.of_eq rfl rfl rfl id
  case notifyFlush drained pc =>
    rcases Option.map_eq_some_iff.mp h with ⟨⟨s1, next⟩, hstep, hpair⟩
    have hwakes := notifyFlushStep_wakes (decide (0 < drained)) hcovers hstep
    cases next <;> cases hpair
    · rw [Option.any_none, Bool.and_false] at hwakes
      rw [afterIteration_eq WorkerPc.owesFlush rfl rfl]
      exact hwakes
    · exact hwakes
  case lastReport pc =>
    rcases Option.map_eq_some_iff.mp h with ⟨⟨s1, next⟩, hstep, hpair⟩
    rcases reportStep_shape hstep with ⟨_, _, _, _, _, rfl, _⟩
    cases next <;> cases hpair <;> exact FlushStep.of_eq rfl rfl rfl id
  case lastFlush pc =>
    rcases Option.map_eq_some_iff.mp h with ⟨⟨s1, next⟩, hstep, hpair⟩
    rcases flushSinkStep_shape hstep with ⟨_, _, _, rfl, _⟩
    cases next <;> cases hpair <;> exact FlushStep.of_eq rfl rfl rfl id
  case lastNotify pc =>
    rcases Option.map_eq_some_iff.mp h with ⟨⟨s1, next⟩, hstep, hpair⟩
    have hwakes := notifyFlushStep_wakes false hcovers hstep
    cases next <;> cases hpair <;> exact hwakes
  all_goals
    (repeat' split at h) <;> cases h <;>
      exact FlushStep.of_eq rfl rfl rfl fun howes =>
        absurd howes Bool.false_ne_true

/-!
## Every reachable state
-/

theorem FlushStep.client [DecidableEq Thread] {s : State Thread C} {t : Thread}
    {shared : Shared Thread C} {pc : ClientPc}
    (h : FlushStep s.shared shared (s.client t).holdsFlush
      (s.client t).aboutToWait pc.aboutToWait (s.client t).owesFlush
      pc.owesFlush) :
    WaitStep (Agent.client t) (s.client t).holdsFlush s.flushWait
      (State.flushWait
        { s with
          shared := shared
          client := Function.update s.client t pc }) where
  ready := fun hready => by
    simpa [State.flushWait, State.owesFlush] using h.ready hready
  owes := fun howes hready => by
    rcases h.owes howes hready with hstill | ⟨hinside, hawake⟩
    · exact Or.inl (by simpa [State.flushWait, State.owesFlush] using hstill)
    · refine Or.inr ⟨hinside, ?_⟩
      rintro (_ | t') <;> simp [State.flushWait, hawake]
  asleep := by
    rintro (_ | t') hasleep
    · exact absurd hasleep id
    · exact h.sleepers t' hasleep
  aboutToSleep := fun habout => by
    have hpc : pc.aboutToWait = true := by
      simpa [State.flushWait] using habout
    exact h.aboutToWait hpc
  others := by
    rintro (_ | t') ht'
    · exact ⟨rfl, rfl⟩
    · have hne : t' ≠ t := fun heq => ht' (congrArg Agent.client heq)
      simp [State.flushWait, State.owesFlush, hne]

theorem FlushStep.worker {s : State Thread C} {shared : Shared Thread C}
    {pc : WorkerPc}
    (h : FlushStep s.shared shared s.worker.holdsFlush false false
      s.worker.owesFlush pc.owesFlush) :
    WaitStep Agent.worker s.worker.holdsFlush s.flushWait
      (State.flushWait { s with shared := shared, worker := pc }) where
  ready := h.ready
  owes := fun howes hready => by
    rcases h.owes howes hready with hstill | ⟨hinside, hawake⟩
    · exact Or.inl hstill
    · refine Or.inr ⟨hinside, ?_⟩
      rintro (_ | t') <;> simp [State.flushWait, hawake]
  asleep := by
    rintro (_ | t') hasleep
    · exact absurd hasleep id
    · exact h.sleepers t' hasleep
  aboutToSleep := h.aboutToWait
  others := by
    rintro (_ | t') ht'
    · exact absurd rfl ht'
    · exact ⟨rfl, rfl⟩

theorem holdsFlush_of_aboutToWait {s : State Thread C} (agent : Agent Thread)
    (habout : s.flushWait.aboutToSleep agent = true) :
    s.inside ClientPc.holdsFlush WorkerPc.holdsFlush agent = true := by
  cases agent with
  | worker => cases habout
  | client t =>
      cases hpc : s.client t with
      | flush before pc =>
          simp only [State.flushWait, hpc] at habout
          cases pc with
          | sleep => simp only [State.inside, hpc, ClientPc.holdsFlush,
              FlushPc.holds]
          | _ => cases habout
      | _ =>
          simp only [State.flushWait, hpc] at habout
          cases habout

theorem attended_step [DecidableEq Thread] {s s' : State Thread C}
    {a : Action Thread} (hs : s.flushWait.Attended)
    (hcovers : s.shared.queue.size ≤ s.shared.outstanding)
    (hexclusive : Exclusive (s.inside ClientPc.holdsFlush WorkerPc.holdsFlush)
      s.shared.flushMutex)
    (h : s.step a = some s') :
    s'.flushWait.Attended := by
  have hbegin : forall {t : Thread} {shared : Shared Thread C} {pc : ClientPc},
      s.client t = ClientPc.idle -> pc.aboutToWait = false ->
      shared.outstanding = s.shared.outstanding ->
      shared.flushSleepers = s.shared.flushSleepers ->
      (State.flushWait
        { s with
          shared := shared
          client := Function.update s.client t pc }).Attended := by
    intro t shared pc hidle hpc houtstanding hsleepers
    have howes : (s.client t).owesFlush = true -> pc.owesFlush = true := by
      rw [hidle]
      exact fun howes => absurd howes Bool.false_ne_true
    exact hs.step hexclusive holdsFlush_of_aboutToWait
      (FlushStep.client (FlushStep.of_eq houtstanding hsleepers hpc howes))
  cases a with
  | write t record | flush t | getStats t =>
      rcases State.begin_some h with ⟨hidle, rfl⟩
      exact hbegin hidle rfl rfl rfl
  | client t choice =>
      rcases Option.map_eq_some_iff.mp h with ⟨⟨shared, pc⟩, hstep, rfl⟩
      exact hs.step hexclusive holdsFlush_of_aboutToWait
        (FlushStep.client (clientStep_wakes hcovers hstep))
  | worker choice =>
      rcases Option.map_eq_some_iff.mp h with ⟨⟨shared, pc⟩, hstep, rfl⟩
      exact hs.step hexclusive holdsFlush_of_aboutToWait
        (FlushStep.worker (workerStep_wakes hcovers hstep))
  | owner =>
      rcases Option.map_eq_some_iff.mp h with ⟨⟨shared, pc⟩, hstep, rfl⟩
      rcases ownerStep_shape hstep with ⟨_, _, _, rfl⟩
      exact hs

section

variable [Fintype Thread]

theorem reachable_attended [DecidableEq Thread] {s : State Thread C}
    (h : (asyncSink Thread C).Reachable s) :
    s.flushWait.Attended := by
  apply Machine.invariant (P := fun s => s.flushWait.Attended) ?_
    (fun s a s' hreach hs hstep => ?_) h
  · rintro _ ⟨_ | t, hasleep | habout⟩
    · exact absurd hasleep id
    · cases habout
    · cases hasleep
    · cases habout
  · exact attended_step hs (reachable_outstandingCounts hreach).size_le
      (disciplined_flush.reachable_exclusive hreach) hstep

/--
No caller of `Flush` is stranded: while one sleeps on a condition that holds,
some thread has yet to notify it after lowering `m_outstanding`.
-/
theorem no_stranded_flush (Thread : Type) [Fintype Thread] [DecidableEq Thread]
    (C : AsyncSinkConfig) (s : State Thread C)
    (h : (asyncSink Thread C).Reachable s) (t : Thread)
    (hasleep : AsleepInFlush s t) (hdrained : s.shared.Drained) :
    exists agent, s.owesFlush agent = true :=
  reachable_attended h hdrained.1 ⟨Agent.client t, Or.inl hasleep.2⟩

end

def sleepingFlush : List (Action Bool) :=
  Action.write false {} ::
    List.replicate 8 (Action.client false Choice.plain) ++
    Action.flush true :: List.replicate 3 (Action.client true Choice.plain) ++
    List.replicate 8 (Action.worker Choice.plain)

theorem sleepingFlush_attended :
    exists s,
      (asyncSink Bool (smallSink AsyncOverflowPolicy.block)).Reachable s ∧
      AsleepInFlush s true ∧
      s.shared.Drained ∧
      exists agent, s.owesFlush agent = true := by
  have hrun : ((asyncSink Bool (smallSink AsyncOverflowPolicy.block)).run
      sleepingFlush).any (fun s =>
        (s.client true).asleepInFlush &&
        decide (true ∈ s.shared.flushSleepers) &&
        decide (s.shared.outstanding = 0) && s.shared.queue.isEmpty) = true := by
    decide
  rcases Machine.exists_reachable_of_run hrun with ⟨s, hreachable, htest⟩
  simp only [Bool.and_eq_true, decide_eq_true_eq] at htest
  rcases htest with ⟨⟨⟨hasleep, hsleeper⟩, hzero⟩, hempty⟩
  have hwaits : AsleepInFlush s true := ⟨hasleep, hsleeper⟩
  have hdrained : s.shared.Drained := ⟨hzero, hempty⟩
  exact ⟨s, hreachable, hwaits, hdrained,
    no_stranded_flush Bool _ s hreachable true hwaits hdrained⟩

end Async
end NginLog
