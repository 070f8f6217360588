import NginLog.Async.BoundedDelivery
import NginLog.Async.Progress
import NginLog.Async.Shutdown

/-!
# Shutdown comes to an end

After `Shutdown` has cleared `m_running` the worker goes round its loop only
while it finds records, and nobody adds any.  So the worker's steps up to its
end are bounded by the length of the queue, no client can hold it up, and
`join` returns.  What the worker does last is to report the drops and to flush
the wrapped sink.
-/

namespace NginLog
namespace Async

open Foundation

variable {Thread : Type} {C : AsyncSinkConfig}

/-!
## Steps to the end of the worker

Once `m_running` is false, each step of the worker brings it nearer to its end.
-/

/--
The most steps that the worker takes to its end once `m_running` is false, apart
from 37 for each of the queued records.
-/
def WorkerPc.toFinish (C : AsyncSinkConfig) (queued : Nat) : WorkerPc -> Nat
  | WorkerPc.testRunning => 17
  | WorkerPc.testEmpty => 16
  | WorkerPc.dequeue drained =>
      if drained < C.batchSize ∧ queued ≠ 0 then 0 else 29
  | WorkerPc.deliver _ _ pc => 31 + pc.left
  | WorkerPc.subOutstanding _ => 31
  | WorkerPc.notifySpace _ => 30
  | WorkerPc.report _ pc => 23 + pc.left
  | WorkerPc.notifyFlush _ pc => 18 + pc.left
  | WorkerPc.idleRunning _ => 18
  | WorkerPc.idleEmpty _ => 20
  | WorkerPc.idleAsleep => 19
  | WorkerPc.lastReport pc => 10 + pc.left
  | WorkerPc.lastFlush pc => 5 + pc.left
  | WorkerPc.lastNotify pc => pc.left
  | WorkerPc.finished => 0

theorem DeliverPc.left_le (pc : DeliverPc) : pc.left ≤ 5 := by
  cases pc <;> decide

theorem dequeue_toFinish_le (queued drained : Nat) :
    (WorkerPc.dequeue drained).toFinish C queued ≤ 29 := by
  simp only [WorkerPc.toFinish]
  split <;> decide

theorem WorkerPc.toFinish_le (queued : Nat) (pc : WorkerPc) :
    pc.toFinish C queued ≤ 36 := by
  cases pc with
  | dequeue drained =>
      exact Nat.le_trans (dequeue_toFinish_le queued drained) (by decide)
  | deliver ticket drained pc =>
      have hleft := pc.left_le
      simp only [toFinish]
      omega
  | report drained pc | lastReport pc =>
      have hleft := pc.left_le
      simp only [toFinish]
      omega
  | notifyFlush drained pc | lastNotify pc =>
      have hleft := pc.left_le
      simp only [toFinish]
      omega
  | lastFlush pc =>
      have hleft := pc.left_le
      simp only [toFinish]
      omega
  | _ => simp [toFinish]

theorem afterBatch_toFinish (queued drained : Nat) :
    (afterBatch C drained).toFinish C queued ≤ 28 := by
  unfold afterBatch
  split <;> simp [WorkerPc.toFinish, ReportPc.left, NotifyPc.left]

theorem afterIteration_toFinish (queued drained : Nat) :
    (afterIteration drained).toFinish C queued ≤ 18 := by
  unfold afterIteration
  split <;> simp [WorkerPc.toFinish]

theorem afterLoop_toFinish (queued : Nat) :
    (afterLoop C).toFinish C queued ≤ 15 := by
  unfold afterLoop
  split <;> simp [WorkerPc.toFinish, ReportPc.left, FlushSinkPc.left]

theorem workerStep_toFinish {choice : Choice} {s s' : Shared Thread C}
    {pc pc' : WorkerPc} (hrunning : s.running = false)
    (h : workerStep choice s pc = some (s', pc')) :
    pc'.toFinish C s'.queue.size + 37 * s'.queue.size <
      pc.toFinish C s.queue.size + 37 * s.queue.size := by
  cases pc <;> simp only [workerStep] at h
  case testRunning =>
    rw [hrunning] at h
    cases h
    simp [WorkerPc.toFinish]
  case testEmpty =>
    have hloop := afterLoop_toFinish (C := C) s.queue.size
    split at h
    · cases h
      simp only [WorkerPc.toFinish] at hloop ⊢
      omega
    · rename_i hsome
      simp only [MpscBoundedQueue.isEmpty_iff] at hsome
      cases h
      simp [WorkerPc.toFinish, C.batchSize_pos, hsome]
  case dequeue drained =>
    have hbatch := afterBatch_toFinish (C := C) s.queue.size drained
    split at h
    · split at h
      · rename_i hdequeue
        have hsize := (MpscBoundedQueue.contents_tryDequeue hdequeue).2
        cases h
        simp only [WorkerPc.toFinish, DeliverPc.left]
        omega
      · rename_i hdequeue
        rcases MpscBoundedQueue.tryDequeue_false hdequeue with
          ⟨rfl, _, hsize⟩
        cases h
        simp only [WorkerPc.toFinish, hsize, ne_eq, not_true_eq_false,
          and_false, if_false] at hbatch ⊢
        omega
    · rename_i hroom
      cases h
      simp only [WorkerPc.toFinish, hroom, false_and, if_false] at hbatch ⊢
      omega
  case deliver ticket drained pc =>
    rcases Option.map_eq_some_iff.mp h with ⟨⟨s1, next⟩, hstep, hpair⟩
    have hleft := deliverStep_left hstep
    rcases deliverStep_shape hstep with ⟨_, _, _, _, rfl, _⟩
    cases next <;> cases hpair <;>
      simp [WorkerPc.toFinish] at hleft ⊢ <;> omega
  case subOutstanding drained =>
    cases h
    simp [WorkerPc.toFinish]
  case notifySpace drained =>
    have hnext := dequeue_toFinish_le (C := C) s.queue.size (drained + 1)
    cases h
    simp only [WorkerPc.toFinish] at hnext ⊢
    omega
  case report drained pc | lastReport pc =>
    rcases Option.map_eq_some_iff.mp h with ⟨⟨s1, next⟩, hstep, hpair⟩
    have hleft := reportStep_left hstep
    rcases reportStep_shape hstep with ⟨_, _, _, _, _, rfl, _⟩
    cases next <;> cases hpair <;>
      simp [WorkerPc.toFinish, NotifyPc.left, FlushSinkPc.left] at hleft ⊢ <;>
      omega
  case notifyFlush drained pc =>
    rcases Option.map_eq_some_iff.mp h with ⟨⟨s1, next⟩, hstep, hpair⟩
    have hleft := notifyFlushStep_left hstep
    have hnext := afterIteration_toFinish (C := C) s.queue.size drained
    rcases notifyFlushStep_shape hstep with ⟨_, _, rfl⟩
    cases next <;> cases hpair <;>
      simp [WorkerPc.toFinish] at hleft hnext ⊢ <;> omega
  case lastFlush pc =>
    rcases Option.map_eq_some_iff.mp h with ⟨⟨s1, next⟩, hstep, hpair⟩
    have hleft := flushSinkStep_left hstep
    rcases flushSinkStep_shape hstep with ⟨_, _, _, rfl, _⟩
    cases next <;> cases hpair <;>
      simp [WorkerPc.toFinish, NotifyPc.left] at hleft ⊢ <;> omega
  case lastNotify pc =>
    rcases Option.map_eq_some_iff.mp h with ⟨⟨s1, next⟩, hstep, hpair⟩
    have hleft := notifyFlushStep_left hstep
    rcases notifyFlushStep_shape hstep with ⟨_, _, rfl⟩
    cases next <;> cases hpair <;>
      simp [WorkerPc.toFinish] at hleft ⊢ <;> omega
  case idleRunning expired =>
    rw [hrunning] at h
    cases h
    simp [WorkerPc.toFinish]
  case idleEmpty expired =>
    split at h <;> cases h <;> simp [WorkerPc.toFinish]
  case idleAsleep =>
    (repeat' split at h) <;> cases h <;> simp [WorkerPc.toFinish]
  case finished => cases h

/-!
## What the worker does last
-/

def WorkerPc.pastReport : WorkerPc -> Bool
  | WorkerPc.lastReport ReportPc.lock => false
  | WorkerPc.lastReport ReportPc.exchange => false
  | WorkerPc.lastReport _ => true
  | WorkerPc.lastFlush _ => true
  | WorkerPc.lastNotify _ => true
  | WorkerPc.finished => true
  | _ => false

def WorkerPc.pastFlush : WorkerPc -> Bool
  | WorkerPc.lastFlush FlushSinkPc.recordError => true
  | WorkerPc.lastFlush FlushSinkPc.unlock => true
  | WorkerPc.lastNotify _ => true
  | WorkerPc.finished => true
  | _ => false

structure LastWork (s : Shared Thread C) (pc : WorkerPc) : Prop where
  reported : C.emitDropReports = true -> pc.pastReport = true ->
    s.unreportedDropped = 0
  flushed : C.sinkPresent = true -> pc.pastFlush = true ->
    s.sink.getLast? = some (SinkEvent.flush Agent.worker)

theorem LastWork.before {s : Shared Thread C} {pc : WorkerPc}
    (hreport : pc.pastReport = false) (hflush : pc.pastFlush = false) :
    LastWork s pc where
  reported := fun _ h => by
    rw [hreport] at h
    cases h
  flushed := fun _ h => by
    rw [hflush] at h
    cases h

theorem LastWork.congr {s s' : Shared Thread C} {pc : WorkerPc}
    (h : LastWork s pc)
    (hunreported : s'.unreportedDropped = s.unreportedDropped)
    (hsink : s'.sink = s.sink) :
    LastWork s' pc where
  reported := fun hemit hpast => by
    rw [hunreported]
    exact h.reported hemit hpast
  flushed := fun hpresent hpast => by
    rw [hsink]
    exact h.flushed hpresent hpast

theorem workerStep_lastWork {choice : Choice} {s s' : Shared Thread C}
    {pc pc' : WorkerPc} (hpc : LastWork s pc)
    (h : workerStep choice s pc = some (s', pc')) :
    LastWork s' pc' := by
  cases pc <;> simp only [workerStep] at h
  case testEmpty =>
    split at h
    · cases h
      unfold afterLoop
      split
      · exact LastWork.before rfl rfl
      · rename_i hemit
        exact ⟨fun hemit' => absurd hemit' hemit, fun _ hpast => by cases hpast⟩
    · cases h
      exact LastWork.before rfl rfl
  case dequeue drained =>
    (repeat' split at h) <;> cases h
    · exact LastWork.before rfl rfl
    all_goals
      exact LastWork.before (afterBatch_eq WorkerPc.pastReport rfl rfl)
        (afterBatch_eq WorkerPc.pastFlush rfl rfl)
  case deliver ticket drained pc | report drained pc =>
    rcases Option.map_eq_some_iff.mp h with ⟨⟨s1, next⟩, _, hpair⟩
    cases next <;> cases hpair <;> exact LastWork.before rfl rfl
  case notifyFlush drained pc =>
    rcases Option.map_eq_some_iff.mp h with ⟨⟨s1, next⟩, _, hpair⟩
    cases next <;> cases hpair
    · exact LastWork.before (afterIteration_eq WorkerPc.pastReport rfl rfl)
        (afterIteration_eq WorkerPc.pastFlush rfl rfl)
    · exact LastWork.before rfl rfl
  case lastReport pc =>
    rcases Option.map_eq_some_iff.mp h with ⟨⟨s1, next⟩, hstep, hpair⟩
    cases pc <;> simp only [reportStep] at hstep
    case lock =>
      split at hstep <;> cases hstep
      cases hpair
      exact LastWork.before rfl rfl
    case exchange =>
      split at hstep <;> cases hstep <;> cases hpair <;>
        exact ⟨fun _ _ => rfl, fun _ hpast => by cases hpast⟩
    case write =>
      split at hstep <;> cases hstep <;> cases hpair <;>
        exact ⟨fun hemit _ => hpc.reported hemit rfl,
          fun _ hpast => by cases hpast⟩
    all_goals
      cases hstep
      cases hpair
      exact ⟨fun hemit _ => hpc.reported hemit rfl,
        fun _ hpast => by cases hpast⟩
  case lastFlush pc =>
    rcases Option.map_eq_some_iff.mp h with ⟨⟨s1, next⟩, hstep, hpair⟩
    cases pc <;> simp only [flushSinkStep] at hstep
    case testSink =>
      split at hstep
      · cases hstep
        cases hpair
        exact ⟨fun hemit _ => hpc.reported hemit rfl,
          fun _ hpast => by cases hpast⟩
      · rename_i habsent
        cases hstep
        cases hpair
        exact ⟨fun hemit _ => hpc.reported hemit rfl,
          fun hpresent => absurd hpresent habsent⟩
    case lock =>
      split at hstep <;> cases hstep
      cases hpair
      exact ⟨fun hemit _ => hpc.reported hemit rfl,
        fun _ hpast => by cases hpast⟩
    case flush =>
      split at hstep <;> cases hstep <;> cases hpair <;>
        exact ⟨fun hemit _ => hpc.reported hemit rfl,
          fun _ _ => List.getLast?_concat⟩
    all_goals
      cases hstep
      cases hpair
      exact ⟨fun hemit _ => hpc.reported hemit rfl,
        fun hpresent _ => hpc.flushed hpresent rfl⟩
  case lastNotify pc =>
    rcases Option.map_eq_some_iff.mp h with ⟨⟨s1, next⟩, hstep, hpair⟩
    rcases notifyFlushStep_shape hstep with ⟨_, _, rfl⟩
    cases next <;> cases hpair <;>
      exact ⟨fun hemit _ => hpc.reported hemit rfl,
        fun hpresent _ => hpc.flushed hpresent rfl⟩
  case finished => cases h
  all_goals
    (repeat' split at h) <;> cases h <;> exact LastWork.before rfl rfl

/-!
## Once the destructor has begun
-/

/-- A step of the two threads that shut the sink down. -/
def Action.shutsDown : Action Thread -> Bool
  | Action.worker _ => true
  | Action.owner => true
  | _ => false

/-- No client begins a `Write` or a `Flush`. -/
def Action.Quiet : Action Thread -> Prop
  | Action.write _ _ => False
  | Action.flush _ => False
  | _ => True

def OwnerPc.left : OwnerPc -> Nat
  | OwnerPc.alive => 4
  | OwnerPc.notifyWake => 3
  | OwnerPc.notifySpace => 2
  | OwnerPc.join => 1
  | OwnerPc.destroyed => 0

def shutdownRank (s : State Thread C) : Nat :=
  s.worker.toFinish C s.shared.queue.size + 37 * s.shared.queue.size +
    s.owner.left

theorem WorkerPc.past_pastLoop (pc : WorkerPc) :
    (pc.pastReport = true -> pc.pastLoop = true) ∧
      (pc.pastFlush = true -> pc.pastLoop = true) := by
  cases pc <;>
    first
      | exact ⟨fun _ => rfl, fun _ => rfl⟩
      | exact ⟨nofun, nofun⟩

structure ShuttingDown (s : State Thread C) : Prop extends ShutdownFacts s where
  begun : s.owner ≠ OwnerPc.alive

theorem ShuttingDown.running_false {s : State Thread C} (h : ShuttingDown s) :
    s.shared.running = false := by
  cases hrunning : s.shared.running with
  | false => rfl
  | true => exact absurd (h.running.mp hrunning) h.begun

theorem Action.Quiet.undisturbed {s : State Thread C} {a : Action Thread}
    (hs : ShuttingDown s) (h : a.Quiet) :
    Undisturbed s a := by
  cases a with
  | write t record | flush t => exact absurd h id
  | owner => exact hs.away hs.begun
  | _ => trivial

theorem ownerStep_left {s s' : Shared Thread C} {worker : WorkerPc}
    {pc pc' : OwnerPc} (hpc : pc ≠ OwnerPc.alive)
    (h : ownerStep s worker pc = some (s', pc')) :
    pc'.left < pc.left ∧ pc' ≠ OwnerPc.alive ∧ s'.queue = s.queue := by
  cases pc <;> simp only [ownerStep] at h
  case alive => exact absurd rfl hpc
  case join =>
    split at h <;> cases h
    exact ⟨by decide, by decide, rfl⟩
  case destroyed => cases h
  all_goals
    cases h
    exact ⟨by decide, by decide, rfl⟩

theorem ClientPc.away_holds {pc : ClientPc} (h : pc.away = true) :
    pc.holdsSpace = false ∧ pc.holdsDelivery = false ∧
      pc.holdsFlush = false := by
  cases pc <;> first | exact ⟨rfl, rfl, rfl⟩ | cases h

section

variable [DecidableEq Thread]

theorem undisturbed_lastWork {s : State Thread C}
    (h : (asyncSink Thread C).ReachableUnder Undisturbed s) :
    LastWork s.shared s.worker := by
  refine Machine.invariantUnder (P := fun s => LastWork s.shared s.worker)
    (LastWork.before rfl rfl) ?_ h
  intro s a s' hreach hs _ hstep
  have hfacts := undisturbed_shutdownFacts hreach
  change s.step a = some s' at hstep
  cases a with
  | write t record | flush t | getStats t =>
      rcases State.begin_some hstep with ⟨_, rfl⟩
      exact hs.congr rfl rfl
  | client t choice =>
      rcases Option.map_eq_some_iff.mp hstep with ⟨⟨shared, pc⟩, hclient, rfl⟩
      by_cases halive : s.owner = OwnerPc.alive
      · -- The loop goes on, so the worker has not come to its last calls.
        have hloop : s.worker.pastLoop = false := by
          by_contra hpast
          have hrunning := (hfacts.worker.pastLoop (by simpa using hpast)).1
          cases (hfacts.running.mpr halive).symm.trans hrunning
        refine LastWork.before ?_ ?_
        · by_contra hpast
          have := s.worker.past_pastLoop.1 (by simpa using hpast)
          cases hloop.symm.trans this
        · by_contra hpast
          have := s.worker.past_pastLoop.2 (by simpa using hpast)
          cases hloop.symm.trans this
      · have haway := hfacts.away halive t
        cases hpc : s.client t with
        | stats loaded pc =>
            rw [hpc] at hclient
            rcases statsStep_shape (Option.some.inj hclient) with
              ⟨⟨_, rfl⟩, _⟩
            exact hs.congr rfl rfl
        | idle =>
            rw [hpc] at hclient
            cases hclient
        | _ =>
            rw [hpc] at haway
            cases haway
  | worker choice =>
      rcases Option.map_eq_some_iff.mp hstep with ⟨⟨shared, pc⟩, hworker, rfl⟩
      exact workerStep_lastWork hs hworker
  | owner =>
      rcases Option.map_eq_some_iff.mp hstep with ⟨⟨shared, pc⟩, howner, rfl⟩
      rcases ownerStep_shape howner with ⟨_, _, _, rfl⟩
      exact hs.congr rfl rfl

theorem ranked_shutdown :
    (asyncSink Thread C).Ranked Action.Quiet Action.shutsDown ShuttingDown
      (fun _ => False) shutdownRank where
  keeps := by
    intro s a s' hs hquiet hstep
    refine ⟨shutdownFacts_step hs.toShutdownFacts (hquiet.undisturbed hs) hstep,
      ?_⟩
    have hbegun := hs.begun
    change s.step a = some s' at hstep
    cases a with
    | write t record | flush t => exact absurd hquiet id
    | getStats t =>
        rcases State.begin_some hstep with ⟨_, rfl⟩
        exact hbegun
    | client t choice | worker choice =>
        rcases Option.map_eq_some_iff.mp hstep with ⟨_, _, rfl⟩
        exact hbegun
    | owner =>
        rcases Option.map_eq_some_iff.mp hstep with ⟨_, howner, rfl⟩
        exact (ownerStep_left hbegun howner).2.1
  stays := fun _ _ _ _ _ hdone _ => hdone
  lowers := by
    intro s a s' hs hquiet _ hstep
    refine Or.inr ?_
    change s.step a = some s' at hstep
    cases a with
    | write t record | flush t => exact absurd hquiet id
    | getStats t =>
        rcases State.begin_some hstep with ⟨_, rfl⟩
        exact Nat.le_refl _
    | client t choice =>
        rcases Option.map_eq_some_iff.mp hstep with
          ⟨⟨shared, pc⟩, hclient, rfl⟩
        have hqueue := (clientStep_away (hs.away hs.begun t) hclient).2
        simp only [shutdownRank, hqueue]
        exact Nat.le_refl _
    | worker choice =>
        rcases Option.map_eq_some_iff.mp hstep with
          ⟨⟨shared, pc⟩, hworker, rfl⟩
        have hnearer := workerStep_toFinish hs.running_false hworker
        simp only [shutdownRank, Action.shutsDown, Bool.toNat_true]
        omega
    | owner =>
        rcases Option.map_eq_some_iff.mp hstep with ⟨⟨shared, pc⟩, howner, rfl⟩
        rcases ownerStep_left hs.begun howner with ⟨hnearer, _, hqueue⟩
        simp only [shutdownRank, hqueue, Action.shutsDown, Bool.toNat_true]
        omega

theorem worker_canMove_of_away {s : State Thread C}
    (h : (asyncSink Thread C).Reachable s)
    (haway : forall t, (s.client t).away = true)
    (hbusy : s.worker ≠ WorkerPc.finished) :
    s.CanMove Agent.worker := by
  refine State.canMove_of_free hbusy id ?_
  intro m hwants
  cases howner : s.shared.owner m with
  | none => rfl
  | some a =>
      have hholds := owner_holds h howner
      cases a with
      | worker =>
          have hnone := (owner_canMove h howner).1
          cases hnone.symm.trans hwants
      | client t =>
          rcases ClientPc.away_holds (haway t) with ⟨hspace, hdelivery, hflush⟩
          simp only [hspace, hdelivery, hflush, or_self, reduceCtorEq]
            at hholds

/--
Once the destructor has begun, the worker and the owner take a bounded number of
steps, and until the destructor has returned one of the two can go on, whatever
the wrapped sink does.  When it has returned the queue is empty, no drop is
left unreported, and the wrapped sink was flushed after its last record.
-/
theorem shutdown_terminates (Thread : Type) [DecidableEq Thread]
    (C : AsyncSinkConfig) :
    forall s, (asyncSink Thread C).ReachableUnder Undisturbed s ->
      s.owner ≠ OwnerPc.alive ->
      (forall trace s', (forall a, a ∈ trace -> a.Quiet) ->
        (asyncSink Thread C).runFrom s trace = some s' ->
        trace.countP Action.shutsDown ≤ 37 * s.shared.queue.size + 39) ∧
      (s.owner ≠ OwnerPc.destroyed ->
        s.CanMove Agent.worker ∨ (s.step Action.owner).isSome) ∧
      (s.owner = OwnerPc.destroyed ->
        s.shared.queue.contents = [] ∧
        (C.emitDropReports = true -> s.shared.unreportedDropped = 0) ∧
        (C.sinkPresent = true ->
          s.shared.sink.getLast? = some (SinkEvent.flush Agent.worker))) := by
  intro s h hbegun
  have hfacts := undisturbed_shutdownFacts h
  refine ⟨?_, ?_, ?_⟩
  · intro trace s' hquiet hrun
    have heffort := ranked_shutdown.effort_le ⟨hfacts, hbegun⟩ hquiet hrun
    have hworker := s.worker.toFinish_le (C := C) s.shared.queue.size
    have howner : s.owner.left ≤ 3 := by
      cases hpc : s.owner with
      | alive => exact absurd hpc hbegun
      | _ => decide
    unfold shutdownRank at heffort
    omega
  · intro hpending
    by_cases hfinished : s.worker = WorkerPc.finished
    · right
      cases hpc : s.owner with
      | alive => exact absurd hpc hbegun
      | destroyed => exact absurd hpc hpending
      | _ => simp [State.step, ownerStep, hpc, hfinished]
    · exact Or.inl (worker_canMove_of_away
        (Machine.reachable_of_reachableUnder h) (hfacts.away hbegun) hfinished)
  · intro hdestroyed
    have hfinished := hfacts.destroyed hdestroyed
    have hlast := undisturbed_lastWork h
    rw [hfinished] at hlast
    refine ⟨?_, fun hemit => hlast.reported hemit rfl,
      fun hpresent => hlast.flushed hpresent rfl⟩
    rw [MpscBoundedQueue.contents_eq_nil_iff]
    exact (hfacts.worker.pastLoop (by rw [hfinished]; rfl)).2

end

instance (s : State Unit C) (a : Action Unit) : Decidable (Undisturbed s a) :=
  match a with
  | Action.write _ _ => inferInstanceAs (Decidable (s.owner = OwnerPc.alive))
  | Action.flush _ => inferInstanceAs (Decidable (s.owner = OwnerPc.alive))
  | Action.owner =>
      inferInstanceAs (Decidable (forall t, (s.client t).away = true))
  | Action.getStats _ => isTrue trivial
  | Action.client _ _ => isTrue trivial
  | Action.worker _ => isTrue trivial

def writeThenDestroy : List (Action Unit) :=
  Action.write () {} :: List.replicate 8 (Action.client () Choice.plain) ++
    List.replicate 3 Action.owner ++
    List.replicate 33 (Action.worker Choice.plain) ++ [Action.owner]

theorem writeThenDestroy_terminates :
    exists s : State Unit (smallSink AsyncOverflowPolicy.dropNewest),
      s.owner = OwnerPc.destroyed ∧
      (delivered s.shared.sink).length = 1 ∧
      s.shared.queue.contents = [] ∧
      s.shared.sink.getLast? = some (SinkEvent.flush Agent.worker) := by
  have hrun : ((asyncSink Unit (smallSink AsyncOverflowPolicy.dropNewest)).runUnder
      Undisturbed {} writeThenDestroy).any (fun s =>
        decide (s.owner = OwnerPc.destroyed) &&
        decide ((delivered s.shared.sink).length = 1)) = true := by
    decide
  rcases Machine.exists_reachableUnder_of_runUnder hrun with
    ⟨s, hreachable, htest⟩
  simp only [Bool.and_eq_true, decide_eq_true_eq] at htest
  rcases htest with ⟨hdestroyed, hdelivered⟩
  have hbegun : s.owner ≠ OwnerPc.alive := by
    rw [hdestroyed]
    decide
  rcases (shutdown_terminates Unit _ s hreachable hbegun).2.2 hdestroyed with
    ⟨hempty, _, hflushed⟩
  exact ⟨s, hdestroyed, hdelivered, hempty, hflushed rfl⟩

end Async
end NginLog
