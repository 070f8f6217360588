import NginLog.Async.Fifo

/-!
# Shutdown drains the queue

`ConsumeLoop` leaves its loop only when it has found `m_running` false and the
queue empty.  If no `Write` is in progress by then, nothing can be queued any
more, and a worker that has finished has delivered everything.
-/

namespace NginLog
namespace Async

open Foundation

variable {Thread : Type} {C : AsyncSinkConfig}

def ClientPc.away : ClientPc -> Bool
  | ClientPc.idle => true
  | ClientPc.stats _ _ => true
  | _ => false

/-- Neither `Write` nor `Flush` overlaps the destructor. -/
def Undisturbed (s : State Thread C) : Action Thread -> Prop
  | Action.write _ _ => s.owner = OwnerPc.alive
  | Action.flush _ => s.owner = OwnerPc.alive
  | Action.owner => forall t, (s.client t).away = true
  | _ => True

def WorkerPc.pastLoop : WorkerPc -> Bool
  | WorkerPc.lastReport _ => true
  | WorkerPc.lastFlush _ => true
  | WorkerPc.lastNotify _ => true
  | WorkerPc.finished => true
  | _ => false

/-!
## One step
-/

section

variable [DecidableEq Thread]

theorem enqueueStep_running {t : Thread} {choice : Choice}
    {s s' : Shared Thread C} {ticket : Ticket} {pc : EnqueuePc} {pc' : ClientPc}
    (h : enqueueStep t choice s ticket pc = some (s', pc')) :
    s'.running = s.running := by
  cases pc <;> simp only [enqueueStep] at h
  case notifyFlush pc | notifyFallback pc =>
    rcases Option.map_eq_some_iff.mp h with ⟨⟨s1, next⟩, hstep, hpair⟩
    rcases notifyFlushStep_shape hstep with ⟨_, _, rfl⟩
    cases next <;> cases hpair <;> rfl
  case deliver pc =>
    rcases Option.map_eq_some_iff.mp h with ⟨⟨s1, next⟩, hstep, hpair⟩
    rcases deliverStep_shape hstep with ⟨_, _, _, _, rfl, _⟩
    cases hpair
    rfl
  all_goals
    (repeat' split at h) <;> cases h <;> rfl

theorem clientStep_running {t : Thread} {choice : Choice}
    {s s' : Shared Thread C} {pc pc' : ClientPc}
    (h : clientStep t choice s pc = some (s', pc')) :
    s'.running = s.running := by
  cases pc with
  | idle => cases h
  | enter call record =>
      cases h
      rfl
  | enqueue ticket pc => exact enqueueStep_running h
  | drop call timeout holding pc =>
      rcases dropStep_shape h with ⟨⟨_, _, _, _, _, _, _, _, rfl⟩, _⟩
      rfl
  | flush before pc =>
      rcases flushStep_shape h with ⟨⟨_, _, _, _, _, _, _, _, rfl, _⟩, _⟩
      rfl
  | stats loaded pc =>
      rcases statsStep_shape (Option.some.inj h) with ⟨⟨_, rfl⟩, _⟩
      rfl

theorem clientStep_away {t : Thread} {choice : Choice}
    {s s' : Shared Thread C} {pc pc' : ClientPc} (haway : pc.away = true)
    (h : clientStep t choice s pc = some (s', pc')) :
    pc'.away = true ∧ s'.queue = s.queue := by
  cases pc with
  | idle => cases h
  | stats loaded pc =>
      rcases statsStep_shape (Option.some.inj h) with ⟨⟨_, rfl⟩, hpc⟩
      rcases hpc with rfl | ⟨_, _, rfl⟩ <;> exact ⟨rfl, rfl⟩
  | _ => cases haway

end

/-- What the worker knows when it stands before, or behind, the loop's exit. -/
structure WorkerPc.LoopFacts (s : Shared Thread C) (pc : WorkerPc) : Prop where
  testEmpty : pc = WorkerPc.testEmpty -> s.running = false
  pastLoop : pc.pastLoop = true -> s.running = false ∧ s.queue.size = 0

theorem WorkerPc.LoopFacts.inLoop {s : Shared Thread C} {pc : WorkerPc}
    (hloop : pc.pastLoop = false) (htest : pc ≠ WorkerPc.testEmpty) :
    pc.LoopFacts s where
  testEmpty := fun h => absurd h htest
  pastLoop := fun h => by
    rw [hloop] at h
    cases h

theorem WorkerPc.LoopFacts.congr {s s' : Shared Thread C} {pc : WorkerPc}
    (h : pc.LoopFacts s) (hrunning : s'.running = s.running)
    (hqueue : s'.queue = s.queue) :
    pc.LoopFacts s' where
  testEmpty := fun hpc => hrunning ▸ h.testEmpty hpc
  pastLoop := fun hpc => by
    rw [hrunning, hqueue]
    exact h.pastLoop hpc

theorem afterBatch_ne_testEmpty (drained : Nat) :
    afterBatch C drained ≠ WorkerPc.testEmpty := by
  unfold afterBatch
  split <;> simp

theorem afterIteration_ne_testEmpty (drained : Nat) :
    afterIteration drained ≠ WorkerPc.testEmpty := by
  unfold afterIteration
  split <;> simp

theorem afterLoop_ne_testEmpty : afterLoop C ≠ WorkerPc.testEmpty := by
  unfold afterLoop
  split <;> simp

theorem workerStep_loopFacts {choice : Choice} {s s' : Shared Thread C}
    {pc pc' : WorkerPc} (hpc : pc.LoopFacts s)
    (h : workerStep choice s pc = some (s', pc')) :
    s'.running = s.running ∧ pc'.LoopFacts s' := by
  cases pc <;> simp only [workerStep] at h
  case testRunning =>
    cases h
    refine ⟨rfl, ?_⟩
    split
    · exact WorkerPc.LoopFacts.inLoop rfl (by simp)
    · rename_i hrunning
      exact ⟨fun _ => by simpa using hrunning, fun hpast => by cases hpast⟩
  case testEmpty =>
    cases h
    refine ⟨rfl, ?_⟩
    split
    · rename_i hempty
      exact ⟨fun heq => absurd heq afterLoop_ne_testEmpty,
        fun _ => ⟨hpc.testEmpty rfl, (MpscBoundedQueue.isEmpty_iff _).mp hempty⟩⟩
    · exact WorkerPc.LoopFacts.inLoop rfl (by simp)
  case dequeue drained =>
    (repeat' split at h) <;> cases h <;> refine ⟨rfl, ?_⟩
    · exact WorkerPc.LoopFacts.inLoop rfl (by simp)
    · exact WorkerPc.LoopFacts.inLoop (afterBatch_eq WorkerPc.pastLoop rfl rfl)
        (afterBatch_ne_testEmpty drained)
    · exact WorkerPc.LoopFacts.inLoop (afterBatch_eq WorkerPc.pastLoop rfl rfl)
        (afterBatch_ne_testEmpty drained)
  case deliver ticket drained pc =>
    rcases Option.map_eq_some_iff.mp h with ⟨⟨s1, next⟩, hstep, hpair⟩
    rcases deliverStep_shape hstep with ⟨_, _, _, _, rfl, _⟩
    cases next <;> cases hpair <;>
      exact ⟨rfl, WorkerPc.LoopFacts.inLoop rfl (by simp)⟩
  case report drained pc =>
    rcases Option.map_eq_some_iff.mp h with ⟨⟨s1, next⟩, hstep, hpair⟩
    rcases reportStep_shape hstep with ⟨_, _, _, _, _, rfl, _⟩
    cases next <;> cases hpair <;>
      exact ⟨rfl, WorkerPc.LoopFacts.inLoop rfl (by simp)⟩
  case notifyFlush drained pc =>
    rcases Option.map_eq_some_iff.mp h with ⟨⟨s1, next⟩, hstep, hpair⟩
    rcases notifyFlushStep_shape hstep with ⟨_, _, rfl⟩
    cases next <;> cases hpair
    · exact ⟨rfl, WorkerPc.LoopFacts.inLoop
        (afterIteration_eq WorkerPc.pastLoop rfl rfl)
        (afterIteration_ne_testEmpty drained)⟩
    · exact ⟨rfl, WorkerPc.LoopFacts.inLoop rfl (by simp)⟩
  case lastReport pc =>
    rcases Option.map_eq_some_iff.mp h with ⟨⟨s1, next⟩, hstep, hpair⟩
    rcases reportStep_shape hstep with ⟨_, _, _, _, _, rfl, _⟩
    cases next <;> cases hpair <;>
      exact ⟨rfl, fun heq => (by cases heq), fun _ => hpc.pastLoop rfl⟩
  case lastFlush pc =>
    rcases Option.map_eq_some_iff.mp h with ⟨⟨s1, next⟩, hstep, hpair⟩
    rcases flushSinkStep_shape hstep with ⟨_, _, _, rfl, _⟩
    cases next <;> cases hpair <;>
      exact ⟨rfl, fun heq => (by cases heq), fun _ => hpc.pastLoop rfl⟩
  case lastNotify pc =>
    rcases Option.map_eq_some_iff.mp h with ⟨⟨s1, next⟩, hstep, hpair⟩
    rcases notifyFlushStep_shape hstep with ⟨_, _, rfl⟩
    cases next <;> cases hpair <;>
      exact ⟨rfl, fun heq => (by cases heq), fun _ => hpc.pastLoop rfl⟩
  all_goals
    (repeat' split at h) <;> cases h <;>
      exact ⟨rfl, WorkerPc.LoopFacts.inLoop rfl (by simp)⟩

/-!
## Undisturbed runs
-/

structure ShutdownFacts (s : State Thread C) : Prop where
  running : s.shared.running = true <-> s.owner = OwnerPc.alive
  away : s.owner ≠ OwnerPc.alive -> forall t, (s.client t).away = true
  worker : s.worker.LoopFacts s.shared
  destroyed : s.owner = OwnerPc.destroyed -> s.worker = WorkerPc.finished

theorem shutdownFacts_step [DecidableEq Thread] {s s' : State Thread C}
    {a : Action Thread} (hs : ShutdownFacts s) (hguard : Undisturbed s a)
    (h : s.step a = some s') :
    ShutdownFacts s' := by
  cases a with
  | write t record =>
      rcases State.begin_some h with ⟨_, rfl⟩
      exact ⟨hs.running, fun hdead => absurd hguard hdead,
        hs.worker.congr rfl rfl, hs.destroyed⟩
  | flush t =>
      rcases State.begin_some h with ⟨_, rfl⟩
      exact ⟨hs.running, fun hdead => absurd hguard hdead, hs.worker,
        hs.destroyed⟩
  | getStats t =>
      rcases State.begin_some h with ⟨_, rfl⟩
      refine ⟨hs.running, fun hdead t' => ?_, hs.worker, hs.destroyed⟩
      by_cases ht : t' = t
      · subst ht
        simp [ClientPc.away]
      · simpa [ht] using hs.away hdead t'
  | client t choice =>
      rcases Option.map_eq_some_iff.mp h with ⟨⟨shared, pc⟩, hclient, rfl⟩
      have hrunning := clientStep_running hclient
      refine ⟨?_, fun hdead t' => ?_, ?_, hs.destroyed⟩
      · simp only [hrunning]
        exact hs.running
      · by_cases ht : t' = t
        · subst ht
          simpa using (clientStep_away (hs.away hdead t') hclient).1
        · simpa [ht] using hs.away hdead t'
      · by_cases hdead : s.owner = OwnerPc.alive
        · -- The loop goes on, so the worker is not at its exit.
          have halive := hs.running.mpr hdead
          refine ⟨fun htest => ?_, fun hpast => ?_⟩
          · cases halive.symm.trans (hs.worker.testEmpty htest)
          · cases halive.symm.trans (hs.worker.pastLoop hpast).1
        · exact hs.worker.congr hrunning
            (clientStep_away (hs.away hdead t) hclient).2
  | worker choice =>
      rcases Option.map_eq_some_iff.mp h with ⟨⟨shared, pc⟩, hworker, rfl⟩
      rcases workerStep_loopFacts hs.worker hworker with ⟨hrunning, hfacts⟩
      refine ⟨?_, hs.away, hfacts, fun hdestroyed => ?_⟩
      · simp only [hrunning]
        exact hs.running
      · simp only [hs.destroyed hdestroyed, workerStep] at hworker
        cases hworker
  | owner =>
      rcases Option.map_eq_some_iff.mp h with ⟨⟨shared, pc⟩, howner, rfl⟩
      cases hpc : s.owner with
      | alive =>
          have halive := hs.running.mpr hpc
          rw [hpc] at howner
          simp only [ownerStep, halive] at howner
          cases howner
          refine ⟨by simp, fun _ => hguard, ⟨fun _ => rfl, fun hpast => ?_⟩,
            fun heq => by cases heq⟩
          cases halive.symm.trans (hs.worker.pastLoop hpast).1
      | notifyWake =>
          rw [hpc] at howner
          cases howner
          refine ⟨?_, fun _ => hguard, hs.worker.congr rfl rfl,
            fun heq => by cases heq⟩
          simpa [hpc] using hs.running
      | notifySpace =>
          rw [hpc] at howner
          cases howner
          refine ⟨?_, fun _ => hguard, hs.worker.congr rfl rfl,
            fun heq => by cases heq⟩
          simpa [hpc] using hs.running
      | join =>
          rw [hpc] at howner
          simp only [ownerStep] at howner
          split at howner
          · rename_i hfinished
            cases howner
            refine ⟨?_, fun _ => hguard, hs.worker, fun _ => hfinished⟩
            simpa [hpc] using hs.running
          · cases howner
      | destroyed =>
          rw [hpc] at howner
          cases howner

theorem undisturbed_shutdownFacts [DecidableEq Thread] {s : State Thread C}
    (h : (asyncSink Thread C).ReachableUnder Undisturbed s) :
    ShutdownFacts s := by
  refine Machine.invariantUnder ?_ ?_ h
  · exact ⟨⟨fun _ => rfl, fun _ => rfl⟩, fun hdead => absurd rfl hdead,
      WorkerPc.LoopFacts.inLoop rfl (by simp [asyncSink]), fun h => by cases h⟩
  · intro s a s' _ hs hguard hstep
    exact shutdownFacts_step hs hguard hstep

theorem undisturbed_delivered [DecidableEq Thread] {s : State Thread C}
    (hsink : C.sinkPresent = true)
    (h : (asyncSink Thread C).ReachableUnder Undisturbed s)
    (hdestroyed : s.owner = OwnerPc.destroyed) :
    delivered s.shared.sink = s.shared.history.accepted := by
  have hfacts := undisturbed_shutdownFacts h
  have hpipeline :=
    reachable_pipeline hsink (Machine.reachable_of_reachableUnder h)
  have hfinished := hfacts.destroyed hdestroyed
  have hempty : s.shared.queue.contents = [] := by
    rw [MpscBoundedQueue.contents_eq_nil_iff]
    exact (hfacts.worker.pastLoop (by rw [hfinished]; rfl)).2
  rw [pipeline, hfinished, hempty] at hpipeline
  simpa [WorkerPc.undelivered] using hpipeline

end Async
end NginLog
