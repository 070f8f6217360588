import NginLog.Async.Routines

/-!
# Waking producers that wait for space

A producer tests the queue under `m_spaceMutex` and goes to sleep in a later
step; the worker notifies `m_spaceCondition` without taking that mutex.  A
notification can therefore fall between the test and the sleep, and if it was
the last one the producer sleeps on while the queue is empty.
`NotifyFlushWaiters` takes the mutex of its condition variable and has no such
window.

The module proves that this window is the only way to lose a wakeup.
-/

namespace NginLog
namespace Async

open Foundation

variable {Thread : Type} {C : AsyncSinkConfig}

/-!
## Sleeping and being due a notification
-/

def ClientPc.aboutToSleep : ClientPc -> Bool
  | ClientPc.enqueue _ EnqueuePc.sleepSpace => true
  | _ => false

def ClientPc.asleep : ClientPc -> Bool
  | ClientPc.enqueue _ EnqueuePc.asleepSpace => true
  | _ => false

/-- The producer is asleep on `m_spaceCondition` and has not been notified. -/
def AsleepForSpace (s : State Thread C) (t : Thread) : Prop :=
  (s.client t).asleep = true ∧ t ∈ s.shared.spaceSleepers

def WorkerPc.owesNotify : WorkerPc -> Bool
  | WorkerPc.deliver _ _ _ => true
  | WorkerPc.subOutstanding _ => true
  | WorkerPc.notifySpace _ => true
  | _ => false

def WorkerPc.asleep : WorkerPc -> Bool
  | WorkerPc.idleAsleep => true
  | _ => false

def NotifyDue (s : Shared Thread C) (worker : WorkerPc) : Prop :=
  worker.owesNotify = true ∨ s.queue.size ≠ 0

/-- No sleeper waits for space that is there without a notification to come. -/
def NoLostWakeup (s : State Thread C) : Prop :=
  forall t, AsleepForSpace s t -> s.shared.queue.size < C.queueCapacity ->
    NotifyDue s.shared s.worker

/--
A step of the worker does not call `notify_all` on an empty queue while a
producer is between its test of the queue and its sleep.
-/
def NoEarlyNotify (s : State Thread C) : Action Thread -> Prop
  | Action.worker _ =>
      (exists drained, s.worker = WorkerPc.notifySpace drained) ->
        s.shared.queue.size = 0 ->
        forall t, (s.client t).aboutToSleep = false
  | _ => True

/-!
## One step
-/

theorem NotifyDue.size_ne_zero {s : Shared Thread C} {worker : WorkerPc}
    (h : NotifyDue s worker) (howes : worker.owesNotify = false) :
    s.queue.size ≠ 0 := by
  rcases h with hworker | hsize
  · rw [howes] at hworker
    cases hworker
  · exact hsize

/-- What a client's step may do to the queue and to the sleepers. -/
structure SpaceStep (s s' : Shared Thread C) (pc pc' : ClientPc) : Prop where
  size_le : s.queue.size ≤ s'.queue.size
  sleepers : forall t', t' ∈ s'.spaceSleepers ->
    t' ∈ s.spaceSleepers ∨ pc.aboutToSleep = true
  aboutToSleep : pc'.aboutToSleep = true -> s'.queue.size ≠ 0

theorem SpaceStep.of_eq {s s' : Shared Thread C}
    {pc pc' : ClientPc} (hqueue : s'.queue = s.queue)
    (hsleepers : s'.spaceSleepers = s.spaceSleepers)
    (hpc : pc'.aboutToSleep = false) :
    SpaceStep s s' pc pc' where
  size_le := by rw [hqueue]
  sleepers := fun t' ht' => Or.inl (hsleepers ▸ ht')
  aboutToSleep := fun h => by
    rw [hpc] at h
    cases h

section

variable [DecidableEq Thread]

theorem enqueueStep_space {t : Thread} {choice : Choice}
    {s s' : Shared Thread C} {ticket : Ticket} {pc : EnqueuePc} {pc' : ClientPc}
    (h : enqueueStep t choice s ticket pc = some (s', pc')) :
    SpaceStep s s' (ClientPc.enqueue ticket pc) pc' := by
  cases pc <;> simp only [enqueueStep] at h
  case tryEnqueue =>
    split at h
    · rename_i htry
      have hsize := (MpscBoundedQueue.contents_tryEnqueue htry).2.2.1
      cases h
      exact ⟨by simp only; omega, fun _ => Or.inl, fun hpc => (by cases hpc)⟩
    · rename_i htry
      have hsame := (MpscBoundedQueue.tryEnqueue_false htry).1
      cases h
      exact SpaceStep.of_eq hsame rfl rfl
  case notifyFlush pc =>
    rcases Option.map_eq_some_iff.mp h with ⟨⟨s1, next⟩, hstep, hpair⟩
    rcases notifyFlushStep_shape hstep with ⟨_, _, rfl⟩
    cases next <;> cases hpair
    · exact SpaceStep.of_eq rfl rfl
        (afterRejection_eq ClientPc.aboutToSleep rfl rfl rfl)
    · exact SpaceStep.of_eq rfl rfl rfl
  case deliver pc =>
    rcases Option.map_eq_some_iff.mp h with ⟨⟨s1, next⟩, hstep, hpair⟩
    rcases deliverStep_shape hstep with ⟨_, _, _, _, rfl, _⟩
    cases next <;> cases hpair <;> exact SpaceStep.of_eq rfl rfl rfl
  case notifyFallback pc =>
    rcases Option.map_eq_some_iff.mp h with ⟨⟨s1, next⟩, hstep, hpair⟩
    rcases notifyFlushStep_shape hstep with ⟨_, _, rfl⟩
    cases next <;> cases hpair <;> exact SpaceStep.of_eq rfl rfl rfl
  case testSpace expired =>
    split at h
    · cases h
      exact SpaceStep.of_eq rfl rfl rfl
    · rename_i hfull
      split at h
      · cases h
        exact SpaceStep.of_eq rfl rfl rfl
      · -- The predicate is false because the queue is full.
        rw [MpscBoundedQueue.canEnqueue_iff] at hfull
        have hcapacity := C.queueCapacity_pos
        cases h
        exact ⟨Nat.le_refl _, fun _ => Or.inl, fun _ => by omega⟩
  case sleepSpace =>
    cases h
    exact ⟨Nat.le_refl _, fun _ _ => Or.inr rfl, fun hpc => by cases hpc⟩
  case asleepSpace =>
    (repeat' split at h) <;> cases h
    all_goals
      refine ⟨Nat.le_refl _, fun t' ht' => Or.inl ?_, fun hpc => by cases hpc⟩
      exact List.mem_of_mem_filter ht'
  all_goals
    (repeat' split at h) <;> cases h <;> exact SpaceStep.of_eq rfl rfl rfl

theorem clientStep_space {t : Thread} {choice : Choice}
    {s s' : Shared Thread C} {pc pc' : ClientPc}
    (h : clientStep t choice s pc = some (s', pc')) :
    SpaceStep s s' pc pc' := by
  cases pc with
  | idle => cases h
  | enter call record =>
      cases h
      apply SpaceStep.of_eq rfl rfl
      split
      · cases C.overflowPolicy <;> rfl
      · rfl
  | enqueue ticket pc => exact enqueueStep_space h
  | drop call timeout holding pc =>
      rcases dropStep_shape h with ⟨⟨_, _, _, _, _, _, _, _, rfl⟩, hpc⟩
      rcases hpc with rfl | ⟨_, rfl⟩ <;> exact SpaceStep.of_eq rfl rfl rfl
  | flush before pc =>
      rcases flushStep_shape h with ⟨⟨_, _, _, _, _, _, _, _, rfl, _⟩, hpc⟩
      rcases hpc with rfl | ⟨_, rfl⟩ <;> exact SpaceStep.of_eq rfl rfl rfl
  | stats loaded pc =>
      rcases statsStep_shape (Option.some.inj h) with ⟨⟨_, rfl⟩, hpc⟩
      rcases hpc with rfl | ⟨_, _, rfl⟩ <;> exact SpaceStep.of_eq rfl rfl rfl

end

theorem workerStep_space {choice : Choice} {s s' : Shared Thread C}
    {pc pc' : WorkerPc} (h : workerStep choice s pc = some (s', pc'))
    (hpc : forall drained, pc ≠ WorkerPc.notifySpace drained) :
    s'.spaceSleepers = s.spaceSleepers ∧
      (NotifyDue s pc -> NotifyDue s' pc') := by
  cases pc <;> simp only [workerStep] at h
  case notifySpace drained => exact absurd rfl (hpc drained)
  case dequeue drained =>
    split at h
    · split at h
      · cases h
        exact ⟨rfl, fun _ => Or.inl rfl⟩
      · rename_i hdequeue
        have hempty := (MpscBoundedQueue.tryDequeue_false hdequeue).2.2
        cases h
        exact ⟨rfl, fun hdue => absurd hempty (hdue.size_ne_zero rfl)⟩
    · cases h
      exact ⟨rfl, fun hdue => Or.inr (hdue.size_ne_zero rfl)⟩
  case deliver ticket drained pc =>
    rcases Option.map_eq_some_iff.mp h with ⟨⟨s1, next⟩, hstep, hpair⟩
    rcases deliverStep_shape hstep with ⟨_, _, _, _, rfl, _⟩
    cases next <;> cases hpair <;> exact ⟨rfl, fun _ => Or.inl rfl⟩
  case subOutstanding drained =>
    cases h
    exact ⟨rfl, fun _ => Or.inl rfl⟩
  case report drained pc | lastReport pc =>
    rcases Option.map_eq_some_iff.mp h with ⟨⟨s1, next⟩, hstep, hpair⟩
    rcases reportStep_shape hstep with ⟨_, _, _, _, _, rfl, _⟩
    cases hpair
    exact ⟨rfl, fun hdue => Or.inr (hdue.size_ne_zero rfl)⟩
  case notifyFlush drained pc | lastNotify pc =>
    rcases Option.map_eq_some_iff.mp h with ⟨⟨s1, next⟩, hstep, hpair⟩
    rcases notifyFlushStep_shape hstep with ⟨_, _, rfl⟩
    cases hpair
    exact ⟨rfl, fun hdue => Or.inr (hdue.size_ne_zero rfl)⟩
  case lastFlush pc =>
    rcases Option.map_eq_some_iff.mp h with ⟨⟨s1, next⟩, hstep, hpair⟩
    rcases flushSinkStep_shape hstep with ⟨_, _, _, rfl, _⟩
    cases hpair
    exact ⟨rfl, fun hdue => Or.inr (hdue.size_ne_zero rfl)⟩
  all_goals
    (repeat' split at h) <;> cases h <;>
      exact ⟨rfl, fun hdue => Or.inr (hdue.size_ne_zero rfl)⟩

theorem ownerStep_sleepers {s s' : Shared Thread C} {worker : WorkerPc}
    {pc pc' : OwnerPc} (h : ownerStep s worker pc = some (s', pc')) :
    forall t, t ∈ s'.spaceSleepers -> t ∈ s.spaceSleepers := by
  intro t ht
  cases pc <;> simp only [ownerStep] at h
  case notifySpace =>
    cases h
    cases ht
  case join =>
    split at h
    · cases h
      exact ht
    · cases h
  case destroyed => cases h
  all_goals
    cases h
    exact ht

/-!
## Runs without an early notification
-/

/--
Whoever sleeps, or is about to, is due a notification.  Being about to sleep
has to be part of the invariant: the queue that the producer found full may
have been drained since.
-/
structure WakeupInvariant (s : State Thread C) : Prop where
  aboutToSleep : forall t, (s.client t).aboutToSleep = true ->
    NotifyDue s.shared s.worker
  sleepers : forall t, t ∈ s.shared.spaceSleepers ->
    NotifyDue s.shared s.worker

theorem wakeupInvariant_step [DecidableEq Thread] {s s' : State Thread C}
    {a : Action Thread} (hs : WakeupInvariant s) (hguard : NoEarlyNotify s a)
    (h : s.step a = some s') :
    WakeupInvariant s' := by
  have hbegin : forall {t : Thread} {pc : ClientPc} (t' : Thread),
      pc.aboutToSleep = false ->
        (Function.update s.client t pc t').aboutToSleep = true ->
        (s.client t').aboutToSleep = true := by
    intro t pc t' hpc habout
    by_cases ht : t' = t
    · subst ht
      rw [Function.update_self, hpc] at habout
      cases habout
    · rwa [Function.update_of_ne ht] at habout
  cases a with
  | write t record =>
      rcases State.begin_some h with ⟨_, rfl⟩
      exact ⟨fun t' habout => hs.aboutToSleep t' (hbegin t' rfl habout),
        hs.sleepers⟩
  | flush t =>
      rcases State.begin_some h with ⟨_, rfl⟩
      exact ⟨fun t' habout => hs.aboutToSleep t' (hbegin t' rfl habout),
        hs.sleepers⟩
  | getStats t =>
      rcases State.begin_some h with ⟨_, rfl⟩
      exact ⟨fun t' habout => hs.aboutToSleep t' (hbegin t' rfl habout),
        hs.sleepers⟩
  | client t choice =>
      rcases Option.map_eq_some_iff.mp h with ⟨⟨shared, pc⟩, hclient, rfl⟩
      have hspace := clientStep_space hclient
      have hkeep : NotifyDue s.shared s.worker -> NotifyDue shared s.worker := by
        intro hcase
        rcases hcase with howes | hsize
        · exact Or.inl howes
        · have hle := hspace.size_le
          exact Or.inr (by omega)
      refine ⟨fun t' habout => ?_, fun t' hsleeper => ?_⟩
      · by_cases ht : t' = t
        · subst ht
          simp only [Function.update_self] at habout
          exact Or.inr (hspace.aboutToSleep habout)
        · simp only [Function.update_of_ne ht] at habout
          exact hkeep (hs.aboutToSleep t' habout)
      · rcases hspace.sleepers t' hsleeper with hold | habout
        · exact hkeep (hs.sleepers t' hold)
        · exact hkeep (hs.aboutToSleep t habout)
  | worker choice =>
      rcases Option.map_eq_some_iff.mp h with ⟨⟨shared, pc⟩, hworker, rfl⟩
      by_cases hnotify : exists drained, s.worker = WorkerPc.notifySpace drained
      · rcases hnotify with ⟨drained, hpc⟩
        rw [hpc] at hworker
        cases hworker
        refine ⟨fun t habout => Or.inr fun hempty => ?_,
          fun t hsleeper => by cases hsleeper⟩
        have hnone := hguard ⟨drained, hpc⟩ hempty t
        exact Bool.false_ne_true (hnone.symm.trans habout)
      · rcases workerStep_space hworker (fun drained hpc =>
          hnotify ⟨drained, hpc⟩) with ⟨hsleepers, hkeep⟩
        refine ⟨fun t habout => hkeep (hs.aboutToSleep t habout),
          fun t hsleeper => ?_⟩
        simp only [hsleepers] at hsleeper
        exact hkeep (hs.sleepers t hsleeper)
  | owner =>
      rcases Option.map_eq_some_iff.mp h with ⟨⟨shared, pc⟩, howner, rfl⟩
      have hsleepers := ownerStep_sleepers howner
      rcases ownerStep_shape howner with ⟨_, _, _, rfl⟩
      exact ⟨hs.aboutToSleep, fun t ht => hs.sleepers t (hsleepers t ht)⟩

theorem noEarlyNotify_noLostWakeup [DecidableEq Thread] {s : State Thread C}
    (h : (asyncSink Thread C).ReachableUnder NoEarlyNotify s) :
    NoLostWakeup s := by
  have hinvariant : WakeupInvariant s := by
    refine Machine.invariantUnder ?_ ?_ h
    · exact ⟨fun t habout => (by cases habout), fun t ht => (by cases ht)⟩
    · intro s a s' _ hs hguard hstep
      exact wakeupInvariant_step hs hguard hstep
  intro t hasleep _
  exact hinvariant.sleepers t hasleep.2

/-!
## The window is what loses a wakeup

After an early notification the producer goes to sleep in its next step, on an
empty queue and with nothing to wake it.
-/

theorem early_notify_loses_wakeup [DecidableEq Thread]
    {s s' : State Thread C} {choice : Choice}
    (hearly : ¬NoEarlyNotify s (Action.worker choice))
    (hstep : s.step (Action.worker choice) = some s') :
    exists t s'', s'.step (Action.client t Choice.plain) = some s'' ∧
      ¬NoLostWakeup s'' := by
  simp only [NoEarlyNotify, Classical.not_imp, not_forall,
    Bool.not_eq_false] at hearly
  rcases hearly with ⟨⟨drained, hworker⟩, hempty, t, habout⟩
  rcases Option.map_eq_some_iff.mp hstep with ⟨⟨shared, pc⟩, hnotify, rfl⟩
  rw [hworker] at hnotify
  cases hnotify
  cases hclient : s.client t with
  | enqueue ticket pc =>
      rw [hclient] at habout
      cases pc with
      | sleepSpace =>
          refine ⟨t, _, by simp only [State.step, hclient]; rfl, fun hlost => ?_⟩
          have hdue := hlost t ⟨by simp [ClientPc.asleep], by simp⟩
            (by simp only [hempty]; exact C.queueCapacity_pos)
          exact hdue.size_ne_zero rfl hempty
      | _ => cases habout
  | _ =>
      rw [hclient] at habout
      cases habout

/--
The exact condition under which no wakeup is lost: runs whose steps all meet it
lose none, and after a step that does not meet it the next step of one of the
producers loses one.
-/
theorem space_wakeup_exact (Thread : Type) [DecidableEq Thread]
    (C : AsyncSinkConfig) :
    (forall s, (asyncSink Thread C).ReachableUnder NoEarlyNotify s ->
      NoLostWakeup s) ∧
    (forall s choice s', (asyncSink Thread C).Reachable s ->
      s.step (Action.worker choice) = some s' ->
      ¬NoEarlyNotify s (Action.worker choice) ->
      exists t s'', s'.step (Action.client t Choice.plain) = some s'' ∧
        (asyncSink Thread C).Reachable s'' ∧ ¬NoLostWakeup s'') := by
  constructor
  · intro s h
    exact noEarlyNotify_noLostWakeup h
  · intro s choice s' h hstep hearly
    rcases early_notify_loses_wakeup hearly hstep with ⟨t, s'', hsleep, hlost⟩
    have h' : (asyncSink Thread C).Reachable s' :=
      Machine.Reachable.step (a := Action.worker choice) h hstep
    exact ⟨t, s'', hsleep,
      Machine.Reachable.step (a := Action.client t _) h' hsleep, hlost⟩

/--
Two records fill the smallest sink and a third call finds it full; the worker
drains it, notifies and goes idle; then the producer goes to sleep.
-/
def lostWakeupRun : List (Action Unit) :=
  let accepted :=
    Action.write () {} :: List.replicate 9 (Action.client () Choice.plain)
  accepted ++ accepted ++ accepted ++
    List.replicate 44 (Action.worker Choice.plain) ++
    [Action.client () Choice.plain]

theorem block_loses_wakeup :
    exists s, (asyncSink Unit (smallSink AsyncOverflowPolicy.block)).Reachable s ∧
      s.owner = OwnerPc.alive ∧ AsleepForSpace s () ∧
      s.shared.queue.size = 0 ∧ s.worker.asleep = true ∧ ¬NoLostWakeup s := by
  have hrun : ((asyncSink Unit (smallSink AsyncOverflowPolicy.block)).run
      lostWakeupRun).any (fun s =>
        decide (s.owner = OwnerPc.alive) && (s.client ()).asleep &&
        decide (() ∈ s.shared.spaceSleepers) &&
        decide (s.shared.queue.size = 0) && s.worker.asleep) = true := by
    decide
  rcases Machine.exists_reachable_of_run hrun with ⟨s, hreachable, htest⟩
  simp only [Bool.and_eq_true, decide_eq_true_eq] at htest
  rcases htest with ⟨⟨⟨⟨howner, hasleep⟩, hsleeper⟩, hempty⟩, hworker⟩
  refine ⟨s, hreachable, howner, ⟨hasleep, hsleeper⟩, hempty, hworker, ?_⟩
  intro hlost
  have hdue := hlost () ⟨hasleep, hsleeper⟩ (by rw [hempty]; decide)
  refine hdue.size_ne_zero ?_ hempty
  cases hpc : s.worker <;> rw [hpc] at hworker <;> first | rfl | cases hworker

end Async
end NginLog
