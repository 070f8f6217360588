import NginLog.Async.SettlingRank
import NginLog.Async.Shutdown

/-!
# Every call returns

While the sink is in service and no new call begins, the calls in progress take
a bounded number of steps altogether.  A client that cannot move sleeps or waits
for a mutex of the worker, and the worker brings some client to move again
within a round of its loop for each queued record.  Together: if the worker
keeps running and whoever can move is allowed to, every call returns.
-/

namespace NginLog
namespace Async

open Foundation

variable {Thread : Type} {C : AsyncSinkConfig}

/-!
## The sink in service

The sink is in service until the destructor begins.  The worker is then in its
loop and does not test for its end.
-/

/-- The calls in progress and the worker go on, and nothing begins. -/
def Action.Settling : Action Thread -> Prop
  | Action.client _ choice => choice ≠ Choice.spurious
  | Action.worker choice => choice ≠ Choice.spurious
  | _ => False

def Action.isClient : Action Thread -> Bool
  | Action.client _ _ => true
  | _ => false

section

variable [DecidableEq Thread]

structure InService (s : State Thread C) : Prop where
  reachable : (asyncSink Thread C).Reachable s
  alive : s.owner = OwnerPc.alive

theorem alive_before {s s' : State Thread C} {a : Action Thread}
    (hstep : s.step a = some s') (halive : s'.owner = OwnerPc.alive) :
    s.owner = OwnerPc.alive ∧ a ≠ Action.owner := by
  cases a with
  | write t record | flush t | getStats t =>
      rcases State.begin_some hstep with ⟨_, rfl⟩
      exact ⟨halive, nofun⟩
  | client t choice | worker choice =>
      rcases Option.map_eq_some_iff.mp hstep with ⟨_, _, rfl⟩
      exact ⟨halive, nofun⟩
  | owner =>
      rcases Option.map_eq_some_iff.mp hstep with ⟨⟨_, pc⟩, howner, rfl⟩
      cases hpc : s.owner <;> rw [hpc] at howner <;>
        simp only [ownerStep] at howner <;>
        (repeat' split at howner) <;> cases howner <;> cases halive

theorem InService.undisturbed {s : State Thread C} (h : InService s) :
    (asyncSink Thread C).ReachableUnder Undisturbed s := by
  refine @Machine.invariant _ _ (asyncSink Thread C)
    (fun s => s.owner = OwnerPc.alive ->
      (asyncSink Thread C).ReachableUnder Undisturbed s)
    (fun _ => Machine.ReachableUnder.init) ?_ s h.reachable h.alive
  intro s a s' _ hs hstep halive
  have hown : s.owner = OwnerPc.alive ∧ a ≠ Action.owner :=
    alive_before hstep halive
  refine Machine.ReachableUnder.step (hs hown.1) ?_ hstep
  cases a with
  | write t record | flush t => exact hown.1
  | owner => exact absurd rfl hown.2
  | _ => trivial

theorem InService.running {s : State Thread C} (h : InService s) :
    s.shared.running = true :=
  (undisturbed_shutdownFacts h.undisturbed).running.mpr h.alive

theorem InService.worker {s : State Thread C} (h : InService s) :
    s.worker ≠ WorkerPc.testEmpty ∧ s.worker.pastLoop = false := by
  have hfacts := (undisturbed_shutdownFacts h.undisturbed).worker
  constructor
  · intro htest
    cases h.running.symm.trans (hfacts.testEmpty htest)
  · cases hpast : s.worker.pastLoop with
    | false => rfl
    | true => cases h.running.symm.trans (hfacts.pastLoop hpast).1

theorem InService.step {s s' : State Thread C} {a : Action Thread}
    (h : InService s) (ha : a.Settling) (hstep : s.step a = some s') :
    InService s' := by
  refine ⟨h.reachable.step hstep, ?_⟩
  cases a with
  | client t choice | worker choice =>
      rcases Option.map_eq_some_iff.mp hstep with ⟨_, _, rfl⟩
      exact h.alive
  | _ => exact absurd ha id

end

/-!
## The steps of the clients

Every step of a client pays, and no step of the worker raises the rank.
-/

section

variable [Fintype Thread] [DecidableEq Thread]

theorem settlingRank_step {s s' : State Thread C} {a : Action Thread}
    (hs : InService s) (ha : a.Settling) (hstep : s.step a = some s') :
    settlingRank s' + a.isClient.toNat ≤ settlingRank s := by
  have hafter := reachable_gauged (hs.step ha hstep).reachable
  have hgauged := reachable_gauged hs.reachable
  have hcounts := reachable_outstandingCounts hs.reachable
  cases a with
  | client t choice =>
      rcases Option.map_eq_some_iff.mp hstep with ⟨⟨shared, pc⟩, hclient, rfl⟩
      cases hcall : (s.client t).call?.isSome with
      | true =>
          exact (clientStep_writeStep hs.running ha (hgauged.fresh t) hcall
            hclient).lowers hafter
      | false =>
          refine (clientStep_readStep ha (fun hzero => ?_) hcall hclient).lowers
          rw [MpscBoundedQueue.isEmpty_iff]
          exact (hcounts.of_zero hzero).1
  | worker choice =>
      rcases Option.map_eq_some_iff.mp hstep with ⟨⟨shared, pc⟩, hworker, rfl⟩
      refine (workerStep_workStep (fun howes hzero => ?_) hworker).lowers hafter
      exact howes (hcounts.of_zero hzero).2.1
  | _ => exact absurd ha id

theorem ranked_settling :
    (asyncSink Thread C).Ranked Action.Settling Action.isClient InService
      (fun _ => False) settlingRank where
  keeps := fun _ _ _ hs ha hstep => hs.step ha hstep
  stays := fun _ _ _ _ _ hdone _ => absurd hdone id
  lowers := fun _ _ _ hs ha _ hstep => Or.inr (settlingRank_step hs ha hstep)

/-- The most steps of all calls that can be in progress at one time. -/
def settlingBound (Thread : Type) [Fintype Thread] (C : AsyncSinkConfig) : Nat :=
  lexRank (flushLimit Thread)
    (lexRank (aloneLimit Thread C)
      (3 * Fintype.card Thread + 2 * C.queueCapacity + 1)
      (aloneLimit Thread C))
    (flushLimit Thread)

omit [Fintype Thread] [DecidableEq Thread] in
theorem ClientPc.mayInsert_le (pc : ClientPc) : pc.mayInsert ≤ 1 := by
  cases pc with
  | enqueue ticket pc =>
      simp only [mayInsert, EnqueuePc.mayInsert]
      split <;> decide
  | _ => simp [mayInsert]

theorem settlingRank_le {s : State Thread C}
    (h : (asyncSink Thread C).Reachable s) :
    settlingRank s ≤ settlingBound Thread C := by
  have hinserts : (∑ t, (s.client t).mayInsert) ≤ Fintype.card Thread * 1 :=
    sum_le_card_mul fun t => (s.client t).mayInsert_le
  have hsize : s.shared.queue.size ≤ C.queueCapacity := s.shared.queue.size_le
  have howes := Bool.toNat_le s.worker.owesNotify
  have hchanges : changesLeft s ≤
      3 * Fintype.card Thread + 2 * C.queueCapacity + 1 := by
    unfold changesLeft
    omega
  exact lexRank_of_inner (d := 0)
    (lexRank_of_inner (d := 0) hchanges (alone_le_limit (reachable_gauged h)))
    (flushRank_le s)

end

/-!
## When no client can move

A client that cannot move sleeps, or waits for the worker.  A wait with a
deadline goes on when the deadline has passed, and two of the policies never
wait for space, so whoever waits for space will be notified.
-/

def State.Pending (s : State Thread C) : Prop :=
  exists t, s.client t ≠ ClientPc.idle

section

variable [DecidableEq Thread]

def State.Stuck (s : State Thread C) : Prop :=
  forall t, ¬s.CanMove (Agent.client t)

theorem State.Stuck.waits {s : State Thread C} (hstuck : s.Stuck)
    (h : (asyncSink Thread C).Reachable s) {t : Thread}
    (hbusy : s.client t ≠ ClientPc.idle) :
    AsleepForSpace s t ∨ AsleepInFlush s t ∨
      exists m, (s.client t).wants = some m ∧
        s.shared.owner m = some Agent.worker := by
  have hbusy' : s.Busy (Agent.client t) := hbusy
  rcases busy_waits h hbusy' with
    hmove | hsleeps | ⟨m, other, hwants, howner, _, hmove⟩
  · exact absurd hmove (hstuck t)
  · rcases hsleeps with hspace | hflush
    · exact Or.inl hspace
    · exact Or.inr (Or.inl hflush)
  · cases other with
    | worker => exact Or.inr (Or.inr ⟨m, hwants, howner⟩)
    | client t' => exact absurd hmove (hstuck t')

theorem State.Stuck.block {s : State Thread C} (hstuck : s.Stuck)
    (h : (asyncSink Thread C).Reachable s) {t : Thread}
    (hasleep : AsleepForSpace s t) :
    C.overflowPolicy = AsyncOverflowPolicy.block := by
  rcases hasleep with ⟨hasleep, _⟩
  cases hpolicy : C.overflowPolicy with
  | block => rfl
  | blockForTimeout =>
      refine absurd ⟨Choice.expires, by decide, ?_⟩ (hstuck t)
      cases hpc : s.client t with
      | enqueue ticket pc =>
          rw [hpc] at hasleep
          cases pc with
          | asleepSpace =>
              simp [Agent.act, State.step, hpc, clientStep, enqueueStep,
                hpolicy]
          | _ => cases hasleep
      | _ =>
          rw [hpc] at hasleep
          cases hasleep
  | dropNewest | syncFallback =>
      have hprompt : C.overflowPolicy.Prompt := by
        simp [AsyncOverflowPolicy.Prompt, hpolicy]
      have hawake := (ClientPc.prompt_wants
        ((reachable_promptClients hprompt h).prompt t)).2
      cases hasleep.symm.trans hawake

/--
The sink is in service, and under the policy that waits for ever no wakeup has
been lost.
-/
structure Served (s : State Thread C) : Prop extends InService s where
  noEarly : C.overflowPolicy = AsyncOverflowPolicy.block ->
    (asyncSink Thread C).ReachableUnder NoEarlyNotify s

theorem State.Stuck.due {s : State Thread C} (hstuck : s.Stuck)
    (hs : Served s) {t : Thread} (hasleep : AsleepForSpace s t) :
    NotifyDue s.shared s.worker := by
  have hlost := noEarlyNotify_noLostWakeup
    (hs.noEarly (hstuck.block hs.reachable hasleep))
  by_cases hroom : s.shared.queue.size < C.queueCapacity
  · exact hlost t hasleep hroom
  · have hcapacity := C.queueCapacity_pos
    exact Or.inr (by omega)

theorem State.Stuck.asleep {s : State Thread C} (hstuck : s.Stuck)
    (h : (asyncSink Thread C).Reachable s)
    (hdelivery : s.worker.holdsDelivery = false)
    (hflush : s.worker.holdsFlush = false) {t : Thread}
    (hbusy : s.client t ≠ ClientPc.idle) :
    AsleepForSpace s t ∨ AsleepInFlush s t := by
  rcases hstuck.waits h hbusy with hspace | hwait | ⟨m, _, howner⟩
  · exact Or.inl hspace
  · exact Or.inr hwait
  · rcases owner_holds h howner with hholds | hholds
    · cases hdelivery.symm.trans hholds
    · cases hflush.symm.trans hholds

end

/-!
## Steps to the next notification
-/

/--
The most steps that the worker takes until it has woken a client, apart from 22
for each queued record, when the queue is empty.  `wanted` says whether a client
waits for the flush mutex.
-/
def NotifyPc.toWake (wanted : Bool) : NotifyPc -> Nat
  | NotifyPc.loadOutstanding => 5
  | NotifyPc.testEmpty => 4
  | NotifyPc.lock => 3
  | NotifyPc.notifyAll => 2
  | NotifyPc.unlock => if wanted then 1 else 18

def WorkerPc.toWake (C : AsyncSinkConfig) (wanted asleep : Bool)
    (queued : Nat) : WorkerPc -> Nat
  | WorkerPc.testRunning => if queued = 0 then 12 else 1
  | WorkerPc.dequeue drained =>
      if queued = 0 then 11 else if drained < C.batchSize then 0 else 14
  | WorkerPc.deliver _ _ pc => 16 + pc.left
  | WorkerPc.subOutstanding _ => 16
  | WorkerPc.notifySpace _ => 15
  | WorkerPc.report _ pc => (if queued = 0 then 5 else 8) + pc.left
  | WorkerPc.notifyFlush _ pc =>
      if queued = 0 then pc.toWake wanted else 3 + pc.left
  | WorkerPc.idleRunning expired =>
      if queued = 0 then (if expired then 14 else 17) else 3
  | WorkerPc.idleEmpty expired =>
      if queued = 0 then (if expired then 13 else 16) else 2
  | WorkerPc.idleAsleep =>
      if queued = 0 then (if asleep then 15 else 18) else 4
  | _ => 0

theorem NotifyPc.toWake_le (wanted : Bool) (pc : NotifyPc) :
    pc.toWake wanted ≤ 18 := by
  cases pc <;> cases wanted <;> decide

theorem WorkerPc.toWake_le (wanted asleep : Bool) (queued : Nat)
    (pc : WorkerPc) :
    pc.toWake C wanted asleep queued ≤ 21 := by
  cases pc with
  | deliver ticket drained pc =>
      have hleft := pc.left_le
      simp only [toWake]
      omega
  | report drained pc =>
      have hleft := pc.left_le
      simp only [toWake]
      split <;> omega
  | notifyFlush drained pc =>
      have hleft := pc.left_le
      have hwake := pc.toWake_le wanted
      simp only [toWake]
      split <;> omega
  | _ =>
      simp only [toWake]
      (repeat' split) <;> decide

structure WorkerPc.Turning (wanted : Bool) (s : Shared Thread C)
    (pc : WorkerPc) : Prop where
  running : s.running = true
  ne_testEmpty : pc ≠ WorkerPc.testEmpty
  pastLoop : pc.pastLoop = false
  load : forall drained, s.queue.size = 0 ->
    pc = WorkerPc.notifyFlush drained NotifyPc.loadOutstanding ->
    s.outstanding = 0
  notifyAll : forall drained, s.queue.size = 0 ->
    pc = WorkerPc.notifyFlush drained NotifyPc.notifyAll -> wanted = true
  unlock : forall drained, s.queue.size = 0 ->
    pc = WorkerPc.notifyFlush drained NotifyPc.unlock -> wanted = false

theorem afterBatch_toWake (wanted asleep : Bool) (queued drained : Nat) :
    (afterBatch C drained).toWake C wanted asleep queued ≤
      if queued = 0 then 10 else 13 := by
  unfold afterBatch
  split <;> split <;>
    simp [WorkerPc.toWake, NotifyPc.toWake, ReportPc.left, NotifyPc.left, *]

theorem afterIteration_toWake (wanted asleep : Bool) (queued drained : Nat) :
    (afterIteration drained).toWake C wanted asleep queued ≤
      if queued = 0 then 17 else 3 := by
  unfold afterIteration
  split <;> split <;> simp [WorkerPc.toWake, *]

theorem notifyFlushStep_toWake {wanted : Bool} {me : Agent Thread}
    {s s' : Shared Thread C} {pc : NotifyPc} {next : Option NotifyPc}
    (hempty : s.queue.size = 0)
    (hload : pc = NotifyPc.loadOutstanding -> s.outstanding = 0)
    (hnotifyAll : pc = NotifyPc.notifyAll -> wanted = true)
    (hunlock : pc = NotifyPc.unlock -> wanted = false)
    (h : notifyFlushStep me s pc = some (s', next)) :
    next.elim 17 (NotifyPc.toWake wanted) + 1 ≤ pc.toWake wanted := by
  cases pc <;> simp only [notifyFlushStep] at h
  case loadOutstanding =>
    rw [if_pos (hload rfl)] at h
    cases h
    exact Nat.le_refl _
  case testEmpty =>
    rw [if_pos ((s.queue.isEmpty_iff).mpr hempty)] at h
    cases h
    exact Nat.le_refl _
  case lock =>
    split at h <;> cases h
    exact Nat.le_refl _
  case notifyAll =>
    cases h
    simp [NotifyPc.toWake, hnotifyAll rfl]
  case unlock =>
    cases h
    simp [NotifyPc.toWake, hunlock rfl]

theorem workerStep_toWake {wanted : Bool} {choice : Choice}
    {s s' : Shared Thread C} {pc pc' : WorkerPc}
    (hturning : pc.Turning wanted s) (hchoice : choice ≠ Choice.spurious)
    (h : workerStep choice s pc = some (s', pc')) :
    22 * s'.queue.size + pc'.toWake C wanted s'.workerAsleep s'.queue.size + 1 ≤
      22 * s.queue.size + pc.toWake C wanted s.workerAsleep s.queue.size := by
  cases pc <;> simp only [workerStep] at h
  case testRunning =>
    rw [hturning.running] at h
    cases h
    simp only [WorkerPc.toWake, if_true, C.batchSize_pos]
    split <;> omega
  case testEmpty => exact absurd rfl hturning.ne_testEmpty
  case dequeue drained =>
    have hbatch := afterBatch_toWake (C := C) wanted s.workerAsleep
      s.queue.size drained
    split at h
    · rename_i hroom
      split at h
      · rename_i hdequeue
        have hsize := (MpscBoundedQueue.contents_tryDequeue hdequeue).2
        have hsome : s.queue.size ≠ 0 := by omega
        cases h
        simp only [WorkerPc.toWake, hsome, hroom, if_false, if_true,
          DeliverPc.left]
        omega
      · rename_i hdequeue
        rcases MpscBoundedQueue.tryDequeue_false hdequeue with ⟨rfl, _, hempty⟩
        cases h
        simp only [WorkerPc.toWake, hempty, if_true] at hbatch ⊢
        omega
    · rename_i hroom
      cases h
      by_cases hempty : s.queue.size = 0
      · simp only [hempty, WorkerPc.toWake, if_true] at hbatch ⊢
        omega
      · simp only [hempty, WorkerPc.toWake, hroom, if_false] at hbatch ⊢
        omega
  case deliver ticket drained pc =>
    rcases Option.map_eq_some_iff.mp h with ⟨⟨s1, next⟩, hstep, hpair⟩
    have hleft := deliverStep_left hstep
    rcases deliverStep_shape hstep with ⟨_, _, _, _, rfl, _⟩
    cases next <;> cases hpair <;>
      simp only [WorkerPc.toWake, stepsLeft_none, stepsLeft_some] at hleft ⊢ <;>
      omega
  case subOutstanding drained =>
    cases h
    simp only [WorkerPc.toWake]
    omega
  case notifySpace drained =>
    cases h
    simp only [WorkerPc.toWake]
    (repeat' split) <;> omega
  case report drained pc =>
    rcases Option.map_eq_some_iff.mp h with ⟨⟨s1, next⟩, hstep, hpair⟩
    have hleft := reportStep_left hstep
    rcases reportStep_shape hstep with ⟨_, _, _, _, _, rfl, _⟩
    cases next <;> cases hpair <;>
      simp only [WorkerPc.toWake, NotifyPc.toWake, NotifyPc.left,
        stepsLeft_none, stepsLeft_some] at hleft ⊢ <;>
      split <;> omega
  case notifyFlush drained pc =>
    rcases Option.map_eq_some_iff.mp h with ⟨⟨s1, next⟩, hstep, hpair⟩
    by_cases hempty : s.queue.size = 0
    · have hnext := notifyFlushStep_toWake hempty
        (fun hpc => hturning.load drained hempty (hpc ▸ rfl))
        (fun hpc => hturning.notifyAll drained hempty (hpc ▸ rfl))
        (fun hpc => hturning.unlock drained hempty (hpc ▸ rfl)) hstep
      have hiteration := afterIteration_toWake (C := C) wanted s.workerAsleep
        s.queue.size drained
      rcases notifyFlushStep_shape hstep with ⟨_, _, rfl⟩
      cases next <;> cases hpair <;>
        simp only [WorkerPc.toWake, hempty, if_true, Option.elim_none,
          Option.elim_some] at hnext hiteration ⊢ <;>
        omega
    · have hleft := notifyFlushStep_left hstep
      have hnext := afterIteration_toWake (C := C) wanted s.workerAsleep
        s.queue.size drained
      rcases notifyFlushStep_shape hstep with ⟨_, _, rfl⟩
      cases next <;> cases hpair <;>
        simp only [WorkerPc.toWake, hempty, if_false, stepsLeft_none,
          stepsLeft_some] at hleft hnext ⊢ <;>
        omega
  case idleRunning expired =>
    rw [hturning.running] at h
    cases h
    cases expired <;> simp only [WorkerPc.toWake, if_true] <;> split <;> simp
  case idleEmpty expired =>
    split at h
    · rename_i hsleeps
      rcases hsleeps with ⟨hempty, rfl⟩
      rw [MpscBoundedQueue.isEmpty_iff] at hempty
      cases h
      simp [WorkerPc.toWake, hempty]
    · rename_i hgoes
      rw [MpscBoundedQueue.isEmpty_iff] at hgoes
      cases h
      cases expired <;> simp only [WorkerPc.toWake] <;>
        (repeat' split) <;> simp_all
  case idleAsleep =>
    split at h
    · cases h
      simp only [WorkerPc.toWake]
      (repeat' split) <;> simp_all
    · split at h
      · rename_i hwoken
        have hawake := hwoken.resolve_left hchoice
        cases h
        simp only [WorkerPc.toWake, hawake]
        (repeat' split) <;> simp_all
      · cases h
  all_goals cases hturning.pastLoop

/-!
## Waking a client

While no client can move, each step of the worker comes nearer to waking one.
If a `notify_all` of an empty queue wakes nobody, then some client waits for the
mutex under which it is called, and goes on when the worker releases it.
-/

def ClientPc.wantsFlush (pc : ClientPc) : Bool :=
  match pc.wants with
  | some SinkMutex.flush => true
  | _ => false

theorem ClientPc.wantsFlush_iff (pc : ClientPc) :
    pc.wantsFlush = true <-> pc.wants = some SinkMutex.flush := by
  unfold wantsFlush
  cases pc.wants with
  | none => simp
  | some m => cases m <;> simp

theorem ClientPc.asleep_wants {pc : ClientPc}
    (h : pc.asleep = true ∨ pc.asleepInFlush = true) :
    pc.wants = none ∧ pc.owes = 0 := by
  cases pc with
  | enqueue ticket pc =>
      cases pc <;> first | exact ⟨rfl, rfl⟩ | rcases h with h | h <;> cases h
  | flush before pc =>
      cases pc <;> first | exact ⟨rfl, rfl⟩ | rcases h with h | h <;> cases h
  | _ => rcases h with h | h <;> cases h

theorem ClientPc.asleep_or {pc : ClientPc} (h : pc.asleep = true) :
    pc.asleepInFlush = false := by
  cases pc <;> first | rfl | cases h

section

variable [DecidableEq Thread]

theorem worker_owner {s : State Thread C}
    (h : (asyncSink Thread C).Reachable s) {m : SinkMutex}
    (howner : s.shared.owner m = some Agent.worker) :
    (m = SinkMutex.delivery ∧ s.worker.holdsDelivery = true) ∨
      (m = SinkMutex.flush ∧ s.worker.holdsFlush = true) := by
  cases m with
  | space => cases disciplined_space.reachable_manned rfl h Agent.worker howner
  | delivery =>
      exact Or.inl ⟨rfl,
        disciplined_delivery.reachable_manned rfl h Agent.worker howner⟩
  | flush =>
      exact Or.inr ⟨rfl,
        disciplined_flush.reachable_manned rfl h Agent.worker howner⟩

theorem canMove_of_notified {s : State Thread C} {t : Thread}
    (hasleep : (s.client t).asleepInFlush = true)
    (hnotified : t ∉ s.shared.flushSleepers) :
    s.CanMove (Agent.client t) := by
  refine State.canMove_of_free ?_ ?_ ?_
  · intro hidle
    rw [hidle] at hasleep
    cases hasleep
  · rintro (⟨hspace, _⟩ | ⟨_, hsleeper⟩)
    · cases (ClientPc.asleep_or hspace).symm.trans hasleep
    · exact hnotified hsleeper
  · intro m hwants
    cases (ClientPc.asleep_wants (Or.inr hasleep)).1.symm.trans hwants

theorem canMove_of_unlocked {s : State Thread C} {t : Thread} {m : SinkMutex}
    (hwants : (s.client t).wants = some m)
    (hfree : s.shared.owner m = none) :
    s.CanMove (Agent.client t) := by
  have hawake : ¬((s.client t).asleep = true ∨
      (s.client t).asleepInFlush = true) := by
    intro hasleep
    cases (ClientPc.asleep_wants hasleep).1.symm.trans hwants
  refine State.canMove_of_free ?_ ?_ ?_
  · intro hidle
    rw [hidle] at hwants
    cases hwants
  · rintro (⟨hspace, _⟩ | ⟨hflush, _⟩)
    · exact hawake (Or.inl hspace)
    · exact hawake (Or.inr hflush)
  · intro m' hm'
    cases hwants.symm.trans hm'
    exact hfree

end

section

variable [Fintype Thread]

def State.flushWanted (s : State Thread C) : Bool :=
  decide (exists t, (s.client t).wantsFlush = true)

def wakeRank (s : State Thread C) : Nat :=
  22 * s.shared.queue.size +
    s.worker.toWake C s.flushWanted s.shared.workerAsleep s.shared.queue.size

theorem wakeRank_le (s : State Thread C) :
    wakeRank s ≤ 22 * s.shared.queue.size + 21 :=
  Nat.add_le_add_left (s.worker.toWake_le _ _ _) _

variable [DecidableEq Thread]

theorem State.Stuck.outstanding {s : State Thread C} (hstuck : s.Stuck)
    (h : (asyncSink Thread C).Reachable s) {drained : Nat}
    (hempty : s.shared.queue.size = 0)
    (hpc : s.worker = WorkerPc.notifyFlush drained NotifyPc.loadOutstanding) :
    s.shared.outstanding = 0 := by
  have hcounts := reachable_outstandingCounts h
  have hclients : (∑ t, (s.client t).owes) = 0 := by
    refine Finset.sum_eq_zero fun t _ => ?_
    by_cases hidle : s.client t = ClientPc.idle
    · rw [hidle]
      rfl
    · rcases hstuck.asleep h (by rw [hpc]; rfl) (by rw [hpc]; rfl) hidle with
        hspace | hflush
      · exact (ClientPc.asleep_wants (Or.inl hspace.1)).2
      · exact (ClientPc.asleep_wants (Or.inr hflush.1)).2
  unfold OutstandingCounts at hcounts
  rw [hclients, hempty, hpc] at hcounts
  simpa [WorkerPc.owes] using hcounts

theorem State.Stuck.wanted {s s' : State Thread C} {choice : Choice}
    {drained : Nat} (hstuck : s.Stuck) (hs : Served s) (hpending : s.Pending)
    (hempty : s.shared.queue.size = 0)
    (hpc : s.worker = WorkerPc.notifyFlush drained NotifyPc.notifyAll)
    (hstep : s.step (Action.worker choice) = some s') (hstuck' : s'.Stuck) :
    s.flushWanted = true := by
  rcases hpending with ⟨t, hbusy⟩
  rcases hstuck.waits hs.reachable hbusy with
    hspace | hflush | ⟨m, hwants, howner⟩
  · have hdue := hstuck.due hs hspace
    refine absurd hempty (hdue.size_ne_zero ?_)
    rw [hpc]
    rfl
  · refine absurd (canMove_of_notified ?_ ?_) (hstuck' t)
    all_goals
      rcases Option.map_eq_some_iff.mp hstep with ⟨⟨_, _⟩, hworker, rfl⟩
      rw [hpc] at hworker
      cases hworker
    · exact hflush.1
    · exact List.not_mem_nil
  · rcases worker_owner hs.reachable howner with ⟨_, hholds⟩ | ⟨rfl, _⟩
    · rw [hpc] at hholds
      cases hholds
    · exact decide_eq_true ⟨t, (s.client t).wantsFlush_iff.mpr hwants⟩

theorem State.Stuck.unwanted {s s' : State Thread C} {choice : Choice}
    {drained : Nat}
    (hpc : s.worker = WorkerPc.notifyFlush drained NotifyPc.unlock)
    (hstep : s.step (Action.worker choice) = some s') (hstuck' : s'.Stuck) :
    s.flushWanted = false := by
  rw [State.flushWanted, decide_eq_false_iff_not]
  rintro ⟨t, hwants⟩
  rw [ClientPc.wantsFlush_iff] at hwants
  rcases Option.map_eq_some_iff.mp hstep with ⟨⟨_, _⟩, hworker, rfl⟩
  rw [hpc] at hworker
  cases hworker
  exact hstuck' t (canMove_of_unlocked hwants rfl)

theorem wakeRank_step {s s' : State Thread C} {choice : Choice}
    (hstuck : s.Stuck) (hs : Served s) (hpending : s.Pending)
    (hchoice : choice ≠ Choice.spurious)
    (hstep : s.step (Action.worker choice) = some s') (hstuck' : s'.Stuck) :
    wakeRank s' + 1 ≤ wakeRank s := by
  have hturning : s.worker.Turning s.flushWanted s.shared :=
    ⟨hs.running, hs.worker.1, hs.worker.2,
      fun _ hempty hpc => hstuck.outstanding hs.reachable hempty hpc,
      fun _ hempty hpc =>
        hstuck.wanted hs hpending hempty hpc hstep hstuck',
      fun _ _ hpc => State.Stuck.unwanted hpc hstep hstuck'⟩
  rcases Option.map_eq_some_iff.mp hstep with ⟨⟨shared, pc⟩, hworker, rfl⟩
  exact workerStep_toWake hturning hchoice hworker

/-!
## Runs
-/

omit [Fintype Thread] in
theorem canMove_of_aboutToSleep {s : State Thread C} {t : Thread}
    (habout : (s.client t).aboutToSleep = true) :
    s.CanMove (Agent.client t) := by
  cases hpc : s.client t with
  | enqueue ticket pc =>
      rw [hpc] at habout
      cases pc with
      | sleepSpace =>
          refine ⟨Choice.plain, by decide, ?_⟩
          simp [Agent.act, State.step, hpc, clientStep, enqueueStep]
      | _ => cases habout
  | _ =>
      rw [hpc] at habout
      cases habout

omit [Fintype Thread] in
theorem Served.step {s s' : State Thread C} {a : Action Thread}
    (hs : Served s) (ha : a.Settling) (hturn : a.isClient = true ∨ s.Stuck)
    (hstep : s.step a = some s') :
    Served s' := by
  refine ⟨hs.toInService.step ha hstep, fun hblock => ?_⟩
  refine Machine.ReachableUnder.step (hs.noEarly hblock) ?_ hstep
  cases a with
  | worker choice =>
      intro _ _ t
      rw [← Bool.not_eq_true]
      intro habout
      exact hturn.resolve_left Bool.false_ne_true t
        (canMove_of_aboutToSleep habout)
  | _ => exact trivial

theorem stuck_step {s s' : State Thread C} {a : Action Thread}
    (hs : Served s ∧ s.Pending) (ha : a.Settling) (hstuck : s.Stuck)
    (hstep : s.step a = some s') :
    ¬s'.Stuck ∨ (Served s' ∧ s'.Pending) ∧
      wakeRank s' + a.isWorker.toNat ≤ wakeRank s := by
  cases a with
  | client t choice =>
      exact absurd ⟨choice, ha, Option.isSome_of_eq_some hstep⟩ (hstuck t)
  | worker choice =>
      by_cases hstuck' : s'.Stuck
      · have hserved := hs.1.step ha (Or.inr hstuck) hstep
        have hrank := wakeRank_step hstuck hs.1 hs.2 ha hstep hstuck'
        rcases Option.map_eq_some_iff.mp hstep with ⟨_, _, rfl⟩
        exact Or.inr ⟨⟨hserved, hs.2⟩, hrank⟩
      · exact Or.inl hstuck'
  | _ => exact absurd ha id

omit [Fintype Thread] in
theorem State.Stuck.worker_canMove {s : State Thread C} (hstuck : s.Stuck)
    (hs : InService s) :
    s.CanMove Agent.worker := by
  have hbusy : s.Busy Agent.worker := by
    intro hfinished
    have hpast := hs.worker.2
    rw [hfinished] at hpast
    cases hpast
  rcases busy_waits hs.reachable hbusy with
    hmove | hsleeps | ⟨_, other, _, _, _, hmove⟩
  · exact hmove
  · exact absurd hsleeps id
  · cases other with
    | worker => exact hmove
    | client t => exact absurd hmove (hstuck t)

theorem exists_wake {s : State Thread C} (hs : Served s)
    (hpending : s.Pending) :
    exists s', (asyncSink Thread C).Leads Action.Settling s s' ∧ Served s' ∧
      ¬s'.Stuck ∧ settlingRank s' ≤ settlingRank s := by
  induction hrank : wakeRank s using Nat.strong_induction_on generalizing s with
  | h rank ih =>
      by_cases hstuck : s.Stuck
      · rcases hstuck.worker_canMove hs.toInService with
          ⟨choice, hchoice, hmove⟩
        rcases Option.isSome_iff_exists.mp hmove with ⟨mid, hmid⟩
        have ha : (Action.worker choice : Action Thread).Settling := hchoice
        have hserved := hs.step ha (Or.inr hstuck) hmid
        have hsettling := settlingRank_step hs.toInService ha hmid
        have hleads : (asyncSink Thread C).Leads Action.Settling s mid :=
          Machine.Leads.single ha hmid
        rcases stuck_step ⟨hs, hpending⟩ ha hstuck hmid with
          hwoken | ⟨⟨_, hpending'⟩, hlower⟩
        · exact ⟨mid, hleads, hserved, hwoken, hsettling⟩
        · rcases ih (wakeRank mid) (hrank ▸ hlower) hserved hpending' rfl with
            ⟨s', hrest, hs', hwoken, hbound⟩
          exact ⟨s', hleads.trans hrest, hs', hwoken,
            Nat.le_trans hbound hsettling⟩
      · exact ⟨s, Machine.Leads.refl s, hs, hstuck, Nat.le_refl _⟩

theorem exists_return {s : State Thread C} (hs : Served s) :
    exists s', (asyncSink Thread C).Leads Action.Settling s s' ∧
      forall t, s'.client t = ClientPc.idle := by
  induction hrank : settlingRank s using Nat.strong_induction_on
      generalizing s with
  | h rank ih =>
      by_cases hpending : s.Pending
      · rcases exists_wake hs hpending with
          ⟨mid, hfirst, hmid, hwoken, hbound⟩
        simp only [State.Stuck, not_forall, not_not] at hwoken
        rcases hwoken with ⟨t, choice, hchoice, hmove⟩
        rcases Option.isSome_iff_exists.mp hmove with ⟨next, hnext⟩
        have ha : (Action.client t choice).Settling := hchoice
        have hlower : settlingRank next + 1 ≤ settlingRank mid :=
          settlingRank_step hmid.toInService ha hnext
        have hleads : (asyncSink Thread C).Leads Action.Settling mid next :=
          Machine.Leads.single ha hnext
        rcases ih (settlingRank next) (by omega)
          (hmid.step ha (Or.inl rfl) hnext) rfl with ⟨s', hrest, hidle⟩
        exact ⟨s', hfirst.trans (hleads.trans hrest), hidle⟩
      · simp only [State.Pending, not_exists, not_not] at hpending
        exact ⟨s, Machine.Leads.refl s, hpending⟩

/--
While the sink is in service and no new call begins, the calls in progress take
a bounded number of steps altogether, whoever runs when.  Under the policy that
waits for ever let no wakeup have been lost.  Then a run in which the worker
takes more than 22 steps for each queued record and 21 more passes a state in
which some client can move, if some client is in a call; and a run leads to the
return of every call.
-/
theorem calls_return (Thread : Type) [Fintype Thread] [DecidableEq Thread]
    (C : AsyncSinkConfig) :
    forall s, (asyncSink Thread C).Reachable s -> s.owner = OwnerPc.alive ->
      (forall trace s', (forall a, a ∈ trace -> a.Settling) ->
        (asyncSink Thread C).runFrom s trace = some s' ->
        trace.countP Action.isClient ≤ settlingBound Thread C) ∧
      ((C.overflowPolicy = AsyncOverflowPolicy.block ->
          (asyncSink Thread C).ReachableUnder NoEarlyNotify s) ->
        (forall trace s', (forall a, a ∈ trace -> a.Settling) ->
          (asyncSink Thread C).runFrom s trace = some s' -> s.Pending ->
          22 * s.shared.queue.size + 21 < trace.countP Action.isWorker ->
          exists first mid t, first <+: trace ∧
            (asyncSink Thread C).runFrom s first = some mid ∧
            mid.CanMove (Agent.client t)) ∧
        exists trace s', (forall a, a ∈ trace -> a.Settling) ∧
          (asyncSink Thread C).runFrom s trace = some s' ∧
          forall t, s'.client t = ClientPc.idle) := by
  intro s h halive
  have hs : InService s := ⟨h, halive⟩
  refine ⟨fun trace s' hsettling hrun => ?_, fun hblock => ⟨?_, ?_⟩⟩
  · exact Nat.le_trans (ranked_settling.effort_le hs hsettling hrun)
      (settlingRank_le h)
  · intro trace s' hsettling hrun hpending heffort
    have hserved : Served s := ⟨hs, hblock⟩
    rcases @Machine.exists_prefix_of_effort _ _ (asyncSink Thread C)
        Action.Settling Action.isWorker (fun s => Served s ∧ s.Pending)
        (fun s => ¬s.Stuck) wakeRank
        (fun s a s' hs ha hstuck hstep =>
          stuck_step hs ha (not_not.mp hstuck) hstep)
        s s' trace ⟨hserved, hpending⟩ hsettling hrun
        (Nat.lt_of_le_of_lt (wakeRank_le s) heffort) with
      ⟨first, mid, hfirst, hmid, hwoken⟩
    simp only [State.Stuck, not_forall, not_not] at hwoken
    rcases hwoken with ⟨t, hmove⟩
    exact ⟨first, mid, t, hfirst, hmid, hmove⟩
  · rcases exists_return ⟨hs, hblock⟩ with ⟨s', ⟨trace, hrun⟩, hidle⟩
    exact ⟨trace, s', hrun.1, hrun.2, hidle⟩

end

/--
A producer sleeps because the smallest sink is full, a caller of `Flush` sleeps
because records are queued, and the worker has not begun.
-/
def everybodySleeps : List (Action Bool) :=
  let writes (steps : Nat) : List (Action Bool) :=
    Action.write true {} ::
      List.replicate steps (Action.client true Choice.plain)
  writes 9 ++ writes 9 ++ writes 10 ++ Action.flush false ::
    List.replicate 3 (Action.client false Choice.plain)

theorem everybodySleeps_returns :
    exists s, (asyncSink Bool (smallSink AsyncOverflowPolicy.block)).Reachable s ∧
      AsleepForSpace s true ∧ AsleepInFlush s false ∧
      (forall trace s', (forall a, a ∈ trace -> a.Settling) ->
        (asyncSink Bool (smallSink AsyncOverflowPolicy.block)).runFrom s trace =
          some s' ->
        trace.countP Action.isClient ≤
          settlingBound Bool (smallSink AsyncOverflowPolicy.block)) ∧
      exists trace s', (forall a, a ∈ trace -> a.Settling) ∧
        (asyncSink Bool (smallSink AsyncOverflowPolicy.block)).runFrom s trace =
          some s' ∧
        forall t, s'.client t = ClientPc.idle := by
  have hrun : ((asyncSink Bool (smallSink AsyncOverflowPolicy.block)).run
      everybodySleeps).any (fun s =>
        decide (s.owner = OwnerPc.alive) && (s.client true).asleep &&
        decide (true ∈ s.shared.spaceSleepers) &&
        (s.client false).asleepInFlush &&
        decide (false ∈ s.shared.flushSleepers)) = true := by
    decide
  rcases (Option.any_eq_true _ _).mp hrun with ⟨s, hs, htest⟩
  simp only [Bool.and_eq_true, decide_eq_true_eq] at htest
  rcases htest with ⟨⟨⟨⟨halive, hasleep⟩, hspace⟩, hwaits⟩, hflush⟩
  have hclients : (asyncSink Bool
      (smallSink AsyncOverflowPolicy.block)).ReachableUnder
        (fun _ a => a.isWorker = false) s :=
    Machine.reachableUnder_of_run (by decide) hs
  have hnoEarly : (asyncSink Bool
      (smallSink AsyncOverflowPolicy.block)).ReachableUnder NoEarlyNotify s := by
    refine Machine.reachableUnder_mono (fun s a ha => ?_) hclients
    cases a with
    | worker choice => cases ha
    | _ => exact trivial
  have hreachable := Machine.reachable_of_reachableUnder hclients
  rcases calls_return Bool (smallSink AsyncOverflowPolicy.block) s hreachable
    halive with ⟨hbound, hreturns⟩
  exact ⟨s, hreachable, ⟨hasleep, hspace⟩, ⟨hwaits, hflush⟩, hbound,
    (hreturns fun _ => hnoEarly).2⟩

end Async
end NginLog
