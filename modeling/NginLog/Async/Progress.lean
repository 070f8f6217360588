import NginLog.Async.DropReports
import NginLog.Async.FlushWakeup
import NginLog.Async.SpaceWakeup

/-!
# Nobody waits for somebody who waits

The sink has three mutexes that are held over several steps: one for the
callers of `Flush`, one for the producers that wait for space, and one for the
calls of the wrapped sink.  No thread asks for one of them while it holds one,
and nobody goes to sleep with one, so whoever holds a mutex can go on.  The
worker's sleep has a deadline, so the worker can go on from there as well.

A call of the wrapped sink is a step here: it waits for no other thread and does
not come back to the same sink, so it returns.
-/

namespace NginLog
namespace Async

open Foundation

variable {Thread : Type} {C : AsyncSinkConfig}

/-!
## The space mutex
-/

def ClientPc.holdsSpace : ClientPc -> Bool
  | ClientPc.enqueue _ (EnqueuePc.testRunning _) => true
  | ClientPc.enqueue _ (EnqueuePc.testSpace _) => true
  | ClientPc.enqueue _ EnqueuePc.sleepSpace => true
  | ClientPc.enqueue _ EnqueuePc.unlockSpace => true
  | ClientPc.drop _ _ holding pc => holding || pc == DropPc.unlock
  | _ => false

section

variable [DecidableEq Thread]

theorem enqueueStep_spaceLock {t : Thread} {choice : Choice}
    {s s' : Shared Thread C} {ticket : Ticket} {pc : EnqueuePc} {pc' : ClientPc}
    (h : enqueueStep t choice s ticket pc = some (s', pc')) :
    LockStep (Agent.client t) (ClientPc.enqueue ticket pc).holdsSpace
      pc'.holdsSpace s.spaceMutex s'.spaceMutex := by
  cases pc <;> simp only [enqueueStep] at h
  case notifyFlush pc =>
    rcases Option.map_eq_some_iff.mp h with ⟨⟨s1, next⟩, hstep, hpair⟩
    rcases notifyFlushStep_shape hstep with ⟨_, _, rfl⟩
    cases next <;> cases hpair
    · exact LockStep.of_eq (afterRejection_eq ClientPc.holdsSpace rfl rfl rfl)
        rfl
    · exact LockStep.keep
  case deliver pc =>
    rcases Option.map_eq_some_iff.mp h with ⟨⟨s1, next⟩, hstep, hpair⟩
    rcases deliverStep_shape hstep with ⟨_, _, _, _, rfl, _⟩
    cases next <;> cases hpair <;> exact LockStep.keep
  case notifyFallback pc =>
    rcases Option.map_eq_some_iff.mp h with ⟨⟨s1, next⟩, hstep, hpair⟩
    rcases notifyFlushStep_shape hstep with ⟨_, _, rfl⟩
    cases next <;> cases hpair <;> exact LockStep.keep
  case lockSpace | relockSpace =>
    split at h
    · rename_i hfree
      cases h
      exact LockStep.of_free hfree
    · cases h
  case sleepSpace | unlockSpace =>
    cases h
    exact LockStep.release
  all_goals
    (repeat' split at h) <;> cases h <;> exact LockStep.keep

omit [DecidableEq Thread] in
theorem dropStep_spaceLock {t : Thread} {s s' : Shared Thread C} {call : Nat}
    {timeout holding : Bool} {pc : DropPc} {pc' : ClientPc}
    (h : dropStep s call timeout holding pc = some (s', pc')) :
    LockStep (Agent.client t)
      (ClientPc.drop call timeout holding pc).holdsSpace pc'.holdsSpace
      s.spaceMutex s'.spaceMutex := by
  cases holding <;> cases timeout <;> cases pc <;> cases h
  case false.false.unlock | false.true.unlock | true.false.unlock |
      true.true.unlock =>
    exact LockStep.release
  all_goals exact LockStep.keep

theorem clientStep_spaceLock {t : Thread} {choice : Choice}
    {s s' : Shared Thread C} {pc pc' : ClientPc}
    (h : clientStep t choice s pc = some (s', pc')) :
    LockStep (Agent.client t) pc.holdsSpace pc'.holdsSpace
      s.spaceMutex s'.spaceMutex := by
  cases pc with
  | idle => cases h
  | enter call record =>
      cases h
      apply LockStep.of_eq _ rfl
      split
      · exact enqueueEntry_eq ClientPc.holdsSpace rfl rfl
      · rfl
  | enqueue ticket pc => exact enqueueStep_spaceLock h
  | drop call timeout holding pc => exact dropStep_spaceLock h
  | flush before pc =>
      rcases flushStep_shape h with ⟨⟨_, _, _, _, _, _, _, _, rfl, _⟩, hpc⟩
      rcases hpc with rfl | ⟨_, rfl⟩ <;> exact LockStep.keep
  | stats loaded pc =>
      rcases statsStep_shape (Option.some.inj h) with ⟨⟨_, rfl⟩, hpc⟩
      rcases hpc with rfl | ⟨_, _, rfl⟩ <;> exact LockStep.keep

end

theorem workerStep_spaceLock {choice : Choice} {s s' : Shared Thread C}
    {pc pc' : WorkerPc} (h : workerStep choice s pc = some (s', pc')) :
    LockStep (Agent.worker : Agent Thread) false false
      s.spaceMutex s'.spaceMutex := by
  rcases workerStep_shape h with ⟨_, _, _, _, _, _, _, _, _, _, _, _, rfl, _⟩
  exact LockStep.keep

theorem disciplined_space [DecidableEq Thread] :
    Disciplined (fun s : Shared Thread C => s.spaceMutex)
      ClientPc.holdsSpace (fun _ => false) where
  idle := rfl
  enter := fun _ _ => rfl
  flush := fun _ => rfl
  stats := fun _ => rfl
  testRunning := rfl
  frame := fun _ _ _ _ _ => rfl
  clientStep := fun _ _ _ _ _ _ h => clientStep_spaceLock h
  workerStep := fun _ _ _ _ _ h => workerStep_spaceLock h

/-!
## Waiting
-/

inductive SinkMutex where
  | space
  | delivery
  | flush

def Shared.owner (s : Shared Thread C) : SinkMutex -> Option (Agent Thread)
  | SinkMutex.space => s.spaceMutex
  | SinkMutex.delivery => s.deliveryMutex
  | SinkMutex.flush => s.flushMutex

/-- The mutex that the next step of a routine takes, if any. -/
def NotifyPc.wants : NotifyPc -> Option SinkMutex
  | NotifyPc.lock => some SinkMutex.flush
  | _ => none

def DeliverPc.wants : DeliverPc -> Option SinkMutex
  | DeliverPc.lock => some SinkMutex.delivery
  | _ => none

def ReportPc.wants : ReportPc -> Option SinkMutex
  | ReportPc.lock => some SinkMutex.delivery
  | _ => none

def FlushSinkPc.wants : FlushSinkPc -> Option SinkMutex
  | FlushSinkPc.lock => some SinkMutex.delivery
  | _ => none

def EnqueuePc.wants : EnqueuePc -> Option SinkMutex
  | EnqueuePc.notifyFlush pc => pc.wants
  | EnqueuePc.lockSpace => some SinkMutex.space
  | EnqueuePc.relockSpace _ => some SinkMutex.space
  | EnqueuePc.deliver pc => pc.wants
  | EnqueuePc.notifyFallback pc => pc.wants
  | _ => none

def FlushPc.wants : FlushPc -> Option SinkMutex
  | FlushPc.lock => some SinkMutex.flush
  | FlushPc.relock => some SinkMutex.flush
  | FlushPc.report pc => pc.wants
  | FlushPc.flushSink pc => pc.wants
  | _ => none

def ClientPc.wants : ClientPc -> Option SinkMutex
  | ClientPc.enqueue _ pc => pc.wants
  | ClientPc.flush _ pc => pc.wants
  | _ => none

def WorkerPc.wants : WorkerPc -> Option SinkMutex
  | WorkerPc.deliver _ _ pc => pc.wants
  | WorkerPc.report _ pc => pc.wants
  | WorkerPc.notifyFlush _ pc => pc.wants
  | WorkerPc.lastReport pc => pc.wants
  | WorkerPc.lastFlush pc => pc.wants
  | WorkerPc.lastNotify pc => pc.wants
  | _ => none

def State.wants (s : State Thread C) : Agent Thread -> Option SinkMutex
  | Agent.worker => s.worker.wants
  | Agent.client t => (s.client t).wants

def State.Busy (s : State Thread C) : Agent Thread -> Prop
  | Agent.worker => s.worker ≠ WorkerPc.finished
  | Agent.client t => s.client t ≠ ClientPc.idle

/-- The thread sleeps without a deadline, and nobody has notified it. -/
def State.Sleeps (s : State Thread C) : Agent Thread -> Prop
  | Agent.worker => False
  | Agent.client t => AsleepForSpace s t ∨ AsleepInFlush s t

def Agent.act : Agent Thread -> Choice -> Action Thread
  | Agent.worker, choice => Action.worker choice
  | Agent.client t, choice => Action.client t choice

/-- The thread can take a step that is not a spurious one. -/
def State.CanMove [DecidableEq Thread] (s : State Thread C)
    (a : Agent Thread) : Prop :=
  exists choice, choice ≠ Choice.spurious ∧ (s.step (a.act choice)).isSome

/-!
## The next step of each thread
-/

theorem notifyFlushStep_isSome {me : Agent Thread} {s : Shared Thread C}
    {pc : NotifyPc} (hfree : forall m, pc.wants = some m -> s.owner m = none) :
    (notifyFlushStep me s pc).isSome := by
  cases pc with
  | lock =>
      have hmutex : s.flushMutex = none := hfree SinkMutex.flush rfl
      simp [notifyFlushStep, hmutex]
  | _ => rfl

theorem deliverStep_isSome {me : Agent Thread} {event : SinkEvent Thread}
    {choice : Choice} {s : Shared Thread C} {pc : DeliverPc}
    (hfree : forall m, pc.wants = some m -> s.owner m = none) :
    (deliverStep me event choice s pc).isSome := by
  cases pc with
  | lock =>
      have hmutex : s.deliveryMutex = none := hfree SinkMutex.delivery rfl
      simp [deliverStep, hmutex]
  | _ => rfl

theorem reportStep_isSome {me : Agent Thread} {choice : Choice}
    {s : Shared Thread C} {pc : ReportPc}
    (hfree : forall m, pc.wants = some m -> s.owner m = none) :
    (reportStep me choice s pc).isSome := by
  cases pc with
  | lock =>
      have hmutex : s.deliveryMutex = none := hfree SinkMutex.delivery rfl
      simp [reportStep, hmutex]
  | _ => rfl

theorem flushSinkStep_isSome {me : Agent Thread} {choice : Choice}
    {s : Shared Thread C} {pc : FlushSinkPc}
    (hfree : forall m, pc.wants = some m -> s.owner m = none) :
    (flushSinkStep me choice s pc).isSome := by
  cases pc with
  | lock =>
      have hmutex : s.deliveryMutex = none := hfree SinkMutex.delivery rfl
      simp [flushSinkStep, hmutex]
  | _ => rfl

theorem workerStep_isSome {s : Shared Thread C} {pc : WorkerPc}
    (hbusy : pc ≠ WorkerPc.finished)
    (hfree : forall m, pc.wants = some m -> s.owner m = none) :
    (workerStep Choice.expires s pc).isSome := by
  cases pc with
  | finished => exact absurd rfl hbusy
  | dequeue drained =>
      simp only [workerStep]
      (repeat' split) <;> rfl
  | idleEmpty expired =>
      simp only [workerStep]
      split <;> rfl
  | deliver ticket drained pc =>
      simpa [workerStep] using deliverStep_isSome hfree
  | report drained pc | lastReport pc =>
      simpa [workerStep] using reportStep_isSome hfree
  | notifyFlush drained pc | lastNotify pc =>
      simpa [workerStep] using notifyFlushStep_isSome hfree
  | lastFlush pc => simpa [workerStep] using flushSinkStep_isSome hfree
  | _ => rfl

section

variable [DecidableEq Thread]

theorem enqueueStep_isSome {t : Thread} {s : Shared Thread C}
    {ticket : Ticket} {pc : EnqueuePc}
    (hawake : pc = EnqueuePc.asleepSpace -> t ∉ s.spaceSleepers)
    (hfree : forall m, pc.wants = some m -> s.owner m = none) :
    (enqueueStep t Choice.plain s ticket pc).isSome := by
  cases pc with
  | lockSpace | relockSpace expired =>
      have hmutex : s.spaceMutex = none := hfree SinkMutex.space rfl
      simp [enqueueStep, hmutex]
  | asleepSpace =>
      have hnotified := hawake rfl
      simp [enqueueStep, hnotified]
  | notifyFlush pc | notifyFallback pc =>
      simpa [enqueueStep] using notifyFlushStep_isSome hfree
  | deliver pc => simpa [enqueueStep] using deliverStep_isSome hfree
  | loopRunning | tryEnqueue | exchangeWatermark depth current
  | testRunning expired | testSpace expired =>
      simp only [enqueueStep]
      (repeat' split) <;> rfl
  | _ => rfl

theorem flushStep_isSome {t : Thread} {s : Shared Thread C}
    {before : List Nat} {pc : FlushPc}
    (hawake : pc = FlushPc.asleep -> t ∉ s.flushSleepers)
    (hfree : forall m, pc.wants = some m -> s.owner m = none) :
    (flushStep t Choice.plain s before pc).isSome := by
  cases pc with
  | lock | relock =>
      have hmutex : s.flushMutex = none := hfree SinkMutex.flush rfl
      simp [flushStep, hmutex]
  | asleep =>
      have hnotified := hawake rfl
      simp [flushStep, hnotified]
  | report pc => simpa [flushStep] using reportStep_isSome hfree
  | flushSink pc => simpa [flushStep] using flushSinkStep_isSome hfree
  | _ => rfl

theorem clientStep_isSome {t : Thread} {s : Shared Thread C} {pc : ClientPc}
    (hbusy : pc ≠ ClientPc.idle)
    (hspace : pc.asleep = true -> t ∉ s.spaceSleepers)
    (hflush : pc.asleepInFlush = true -> t ∉ s.flushSleepers)
    (hfree : forall m, pc.wants = some m -> s.owner m = none) :
    (clientStep t Choice.plain s pc).isSome := by
  cases pc with
  | idle => exact absurd rfl hbusy
  | enter call record => rfl
  | enqueue ticket pc =>
      refine enqueueStep_isSome (fun hasleep => hspace ?_) hfree
      rw [hasleep]
      rfl
  | drop call timeout holding pc => cases pc <;> rfl
  | flush before pc =>
      refine flushStep_isSome (fun hasleep => hflush ?_) hfree
      rw [hasleep]
      rfl
  | stats loaded pc => rfl

theorem State.canMove_of_free {s : State Thread C} {a : Agent Thread}
    (hbusy : s.Busy a) (hawake : ¬s.Sleeps a)
    (hfree : forall m, s.wants a = some m -> s.shared.owner m = none) :
    s.CanMove a := by
  cases a with
  | worker =>
      refine ⟨Choice.expires, by decide, ?_⟩
      simpa [Agent.act, State.step] using workerStep_isSome hbusy hfree
  | client t =>
      refine ⟨Choice.plain, by decide, ?_⟩
      have hspace : (s.client t).asleep = true ->
          t ∉ s.shared.spaceSleepers := fun hasleep hmem =>
        hawake (Or.inl ⟨hasleep, hmem⟩)
      have hflush : (s.client t).asleepInFlush = true ->
          t ∉ s.shared.flushSleepers := fun hasleep hmem =>
        hawake (Or.inr ⟨hasleep, hmem⟩)
      simpa [Agent.act, State.step] using
        clientStep_isSome hbusy hspace hflush hfree

end

/-!
## Whoever holds a mutex can go on

The owner of a mutex is in its critical section.  There it wants no other mutex,
does not sleep, and can go on.
-/

structure ClientPc.Unhindered (pc : ClientPc) : Prop where
  wants : pc.wants = none
  asleep : pc.asleep = false
  asleepInFlush : pc.asleepInFlush = false
  busy : pc ≠ ClientPc.idle

theorem ClientPc.unhindered_of_holds {pc : ClientPc}
    (h : pc.holdsSpace = true ∨ pc.holdsDelivery = true ∨
      pc.holdsFlush = true) :
    pc.Unhindered := by
  cases pc with
  | idle | enter call record | stats loaded pc =>
      rcases h with h | h | h <;> cases h
  | drop call timeout holding pc => exact ⟨rfl, rfl, rfl, nofun⟩
  | enqueue ticket pc =>
      cases pc with
      | notifyFlush pc | notifyFallback pc | deliver pc =>
          cases pc <;>
            first
              | exact ⟨rfl, rfl, rfl, nofun⟩
              | rcases h with h | h | h <;> cases h
      | _ =>
          first
            | exact ⟨rfl, rfl, rfl, nofun⟩
            | rcases h with h | h | h <;> cases h
  | flush before pc =>
      cases pc with
      | report pc | flushSink pc =>
          cases pc <;>
            first
              | exact ⟨rfl, rfl, rfl, nofun⟩
              | rcases h with h | h | h <;> cases h
      | _ =>
          first
            | exact ⟨rfl, rfl, rfl, nofun⟩
            | rcases h with h | h | h <;> cases h

theorem WorkerPc.unhindered_of_holds {pc : WorkerPc}
    (h : pc.holdsDelivery = true ∨ pc.holdsFlush = true) :
    pc.wants = none ∧ pc ≠ WorkerPc.finished := by
  cases pc with
  | deliver ticket drained pc | report drained pc | notifyFlush drained pc
  | lastReport pc | lastFlush pc | lastNotify pc =>
      cases pc <;>
        first
          | exact ⟨rfl, nofun⟩
          | rcases h with h | h <;> cases h
  | _ => rcases h with h | h <;> cases h

section

variable [DecidableEq Thread]

theorem owner_holds {s : State Thread C} {m : SinkMutex} {a : Agent Thread}
    (h : (asyncSink Thread C).Reachable s) (howner : s.shared.owner m = some a) :
    match a with
    | Agent.worker =>
        s.worker.holdsDelivery = true ∨ s.worker.holdsFlush = true
    | Agent.client t =>
        (s.client t).holdsSpace = true ∨ (s.client t).holdsDelivery = true ∨
          (s.client t).holdsFlush = true := by
  cases m with
  | space =>
      have hholds := disciplined_space.reachable_manned rfl h a howner
      cases a with
      | worker => cases hholds
      | client t => exact Or.inl hholds
  | delivery =>
      have hholds := disciplined_delivery.reachable_manned rfl h a howner
      cases a with
      | worker => exact Or.inl hholds
      | client t => exact Or.inr (Or.inl hholds)
  | flush =>
      have hholds := disciplined_flush.reachable_manned rfl h a howner
      cases a with
      | worker => exact Or.inr hholds
      | client t => exact Or.inr (Or.inr hholds)

theorem owner_canMove {s : State Thread C} {m : SinkMutex} {a : Agent Thread}
    (h : (asyncSink Thread C).Reachable s) (howner : s.shared.owner m = some a) :
    s.wants a = none ∧ s.CanMove a := by
  have hholds := owner_holds h howner
  cases a with
  | worker =>
      rcases WorkerPc.unhindered_of_holds hholds with ⟨hwants, hbusy⟩
      have hfree : forall m, s.worker.wants = some m ->
          s.shared.owner m = none := by
        rw [hwants]
        exact nofun
      exact ⟨hwants, State.canMove_of_free hbusy id hfree⟩
  | client t =>
      have hpc := ClientPc.unhindered_of_holds hholds
      have hfree : forall m, (s.client t).wants = some m ->
          s.shared.owner m = none := by
        rw [hpc.wants]
        exact nofun
      refine ⟨hpc.wants, State.canMove_of_free hpc.busy ?_ hfree⟩
      rintro (⟨hasleep, _⟩ | ⟨hasleep, _⟩)
      · cases hpc.asleep.symm.trans hasleep
      · cases hpc.asleepInFlush.symm.trans hasleep

theorem busy_waits {s : State Thread C} (h : (asyncSink Thread C).Reachable s)
    {a : Agent Thread} (hbusy : s.Busy a) :
    s.CanMove a ∨ s.Sleeps a ∨
      exists m other, s.wants a = some m ∧ s.shared.owner m = some other ∧
        s.wants other = none ∧ s.CanMove other := by
  by_cases hsleeps : s.Sleeps a
  · exact Or.inr (Or.inl hsleeps)
  cases hwants : s.wants a with
  | none =>
      refine Or.inl (State.canMove_of_free hbusy hsleeps ?_)
      rw [hwants]
      exact nofun
  | some m =>
      cases howner : s.shared.owner m with
      | none =>
          refine Or.inl (State.canMove_of_free hbusy hsleeps ?_)
          intro m' hm'
          cases hwants.symm.trans hm'
          exact howner
      | some other =>
          exact Or.inr (Or.inr ⟨m, other, rfl, howner, owner_canMove h howner⟩)

/--
A thread that has something to do can go on, or sleeps until it is notified, or
waits for a mutex whose owner can go on and wants no mutex itself.  The worker
never sleeps without a deadline, so until it has finished somebody can go on.
-/
theorem no_deadlock (Thread : Type) [DecidableEq Thread] (C : AsyncSinkConfig) :
    forall s, (asyncSink Thread C).Reachable s ->
      (forall a, s.Busy a ->
        s.CanMove a ∨ s.Sleeps a ∨
          exists m other, s.wants a = some m ∧ s.shared.owner m = some other ∧
            s.wants other = none ∧ s.CanMove other) ∧
      (s.worker ≠ WorkerPc.finished -> exists a, s.CanMove a) := by
  intro s h
  refine ⟨fun a hbusy => busy_waits h hbusy, fun hbusy => ?_⟩
  rcases @busy_waits _ _ _ s h Agent.worker hbusy with
    hmove | hsleeps | ⟨_, other, _, _, _, hmove⟩
  · exact ⟨_, hmove⟩
  · exact absurd hsleeps id
  · exact ⟨other, hmove⟩

end

/--
The queue is full again while the worker holds the wrapped sink, and a producer
that falls back waits for it.
-/
def contendedFallback : List (Action Bool) :=
  let writes (t : Bool) (steps : Nat) : List (Action Bool) :=
    Action.write t {} :: List.replicate steps (Action.client t Choice.plain)
  writes true 8 ++ writes true 8 ++
    List.replicate 4 (Action.worker Choice.plain) ++
    writes true 8 ++ writes false 8

theorem contendedFallback_moves :
    exists s,
      (asyncSink Bool (smallSink AsyncOverflowPolicy.syncFallback)).Reachable s ∧
      (s.wants (Agent.client false)).isSome = true ∧
      s.shared.deliveryMutex = some Agent.worker ∧
      exists a, s.CanMove a := by
  have hrun :
      ((asyncSink Bool (smallSink AsyncOverflowPolicy.syncFallback)).run
        contendedFallback).any (fun s =>
          (s.wants (Agent.client false)).isSome &&
          decide (s.shared.deliveryMutex = some Agent.worker)) = true := by
    decide
  rcases Machine.exists_reachable_of_run hrun with ⟨s, hreachable, htest⟩
  simp only [Bool.and_eq_true, decide_eq_true_eq] at htest
  rcases htest with ⟨hwants, howner⟩
  have hbusy : s.worker ≠ WorkerPc.finished := by
    intro hfinished
    have hholds : s.worker.holdsDelivery = true :=
      disciplined_delivery.reachable_manned rfl hreachable Agent.worker howner
    rw [hfinished] at hholds
    cases hholds
  exact ⟨s, hreachable, hwants, howner,
    (no_deadlock Bool _ s hreachable).2 hbusy⟩

end Async
end NginLog
