import NginLog.Async.Ledger
import NginLog.Async.Shutdown
import NginLog.Async.Outstanding

/-!
# The statistics add up

The counters that `GetStats` reports are raised one at a time, at different
points of `Write` and `Deliver` and by two kinds of threads.  A thread that
stands between an event and its counter accounts for the difference; between
the calls of `Write` the counters alone add up.
-/

namespace NginLog
namespace Async

open Foundation

variable {Thread : Type} {C : AsyncSinkConfig}

/-!
## What a thread accounts for

Between two calls of `Write` a client accounts for nothing.
-/

def EnqueuePc.counted : EnqueuePc -> Int
  | EnqueuePc.sampleDepth => 1
  | EnqueuePc.loadWatermark _ => 1
  | EnqueuePc.exchangeWatermark _ _ => 1
  | EnqueuePc.notifyWake => 1
  | EnqueuePc.deliver _ => 1
  | EnqueuePc.subFallback => 1
  | EnqueuePc.notifyFallback _ => 1
  | _ => 0

def ClientPc.counted : ClientPc -> Int
  | ClientPc.enqueue _ pc => pc.counted
  | ClientPc.drop _ _ _ DropPc.total => 0
  | ClientPc.drop _ _ _ _ => 1
  | _ => 0

/-- A record in `Deliver` that is neither counted as delivered nor failed. -/
def DeliverPc.pending : DeliverPc -> Nat
  | DeliverPc.testSink => 1
  | DeliverPc.lock => 1
  | DeliverPc.write => 1
  | DeliverPc.countDelivered => 1
  | _ => 0

def WorkerPc.pending : WorkerPc -> Nat
  | WorkerPc.deliver _ _ pc => pc.pending
  | _ => 0

/--
The records that a client has passed on without counting them, less those that
it has counted without passing them on.
-/
def EnqueuePc.ahead : EnqueuePc -> Int
  | EnqueuePc.countEnqueued => 1
  | EnqueuePc.deliver pc => -pc.pending
  | _ => 0

def ClientPc.ahead : ClientPc -> Int
  | ClientPc.enqueue _ pc => pc.ahead
  | _ => 0

def ClientPc.late : ClientPc -> Int
  | ClientPc.drop _ timeout _ DropPc.unreported => if timeout then 1 else 0
  | ClientPc.drop _ _ _ DropPc.timeout => 1
  | _ => 0

theorem ClientPc.late_nonneg (pc : ClientPc) : 0 ≤ pc.late := by
  unfold ClientPc.late
  (repeat' split) <;> decide

theorem ClientPc.counted_eq_zero {pc : ClientPc} (h : pc.call? = none) :
    pc.counted = 0 ∧ pc.ahead = 0 := by
  cases pc <;> cases h <;> exact ⟨rfl, rfl⟩

/-- Whether this step is a call of the wrapped sink's `Write` that throws. -/
def DeliverPc.fails (choice : Choice) : DeliverPc -> Nat
  | DeliverPc.write => if choice = Choice.throws then 1 else 0
  | _ => 0

def ClientPc.fails (choice : Choice) : ClientPc -> Nat
  | ClientPc.enqueue _ (EnqueuePc.deliver pc) => pc.fails choice
  | _ => 0

def WorkerPc.fails (choice : Choice) : WorkerPc -> Nat
  | WorkerPc.deliver _ _ pc => pc.fails choice
  | _ => 0

def State.fails (s : State Thread C) : Action Thread -> Nat
  | Action.client t choice => (s.client t).fails choice
  | Action.worker choice => s.worker.fails choice
  | _ => 0

/-!
## One step of a client
-/

def Shared.openCalls (s : Shared Thread C) : Int :=
  s.totalEnqueued + s.totalDropped + s.fallbackWrites -
    s.history.returned.length

def Shared.unaccounted (s : Shared Thread C) : Int :=
  s.totalEnqueued + s.fallbackWrites - s.totalDelivered - s.queue.size

def Shared.untimed (s : Shared Thread C) : Int :=
  s.totalDropped - s.timeoutDropped

structure Accounted (s s' : Shared Thread C) (pc pc' : ClientPc)
    (failed : Nat) : Prop where
  calls : s'.openCalls - pc'.counted = s.openCalls - pc.counted
  records : s'.unaccounted + pc'.ahead = s.unaccounted + pc.ahead + failed
  timeouts : s.untimed - pc.late ≤ s'.untimed - pc'.late

theorem Accounted.of_eq {s s' : Shared Thread C} {pc pc' : ClientPc}
    {failed : Nat} (hopen : s'.openCalls = s.openCalls)
    (hunaccounted : s'.unaccounted = s.unaccounted)
    (huntimed : s'.untimed = s.untimed) (hcounted : pc'.counted = pc.counted)
    (hahead : pc'.ahead = pc.ahead) (hlate : pc'.late = pc.late)
    (hfailed : failed = 0) :
    Accounted s s' pc pc' failed := by
  subst hfailed
  constructor
  · rw [hopen, hcounted]
  · rw [hunaccounted, hahead]
    simp
  · rw [huntimed, hlate]

theorem Accounted.of_return {s s' : Shared Thread C} {pc : ClientPc} {call : Nat}
    (hreturned : s'.history.returned = s.history.returned ++ [call])
    (hcounters : s'.totalEnqueued + s'.totalDropped + s'.fallbackWrites =
      s.totalEnqueued + s.totalDropped + s.fallbackWrites)
    (hunaccounted : s'.unaccounted = s.unaccounted)
    (huntimed : s'.untimed = s.untimed) (hcounted : pc.counted = 1)
    (hahead : pc.ahead = 0) (hlate : pc.late = 0) :
    Accounted s s' pc ClientPc.idle 0 := by
  constructor
  · rw [hcounted]
    simp only [Shared.openCalls, ClientPc.counted, hreturned, List.length_append,
      List.length_singleton]
    omega
  · rw [hunaccounted, hahead]
    exact (Int.add_zero _).symm
  · rw [huntimed, hlate]
    exact le_refl _

theorem deliverStep_pending {me : Agent Thread} {event : SinkEvent Thread}
    {choice : Choice} {s s' : Shared Thread C} {pc : DeliverPc}
    {next : Option DeliverPc}
    (h : deliverStep me event choice s pc = some (s', next)) :
    exists failed, (C.sinkPresent = true -> failed = pc.fails choice) ∧
      s'.totalDelivered + (next.map DeliverPc.pending).getD 0 + failed =
        s.totalDelivered + pc.pending := by
  cases pc <;> simp only [deliverStep] at h
  case testSink =>
    cases hsink : C.sinkPresent with
    | true =>
        rw [if_pos hsink] at h
        cases h
        exact ⟨0, fun _ => rfl, rfl⟩
    | false =>
        rw [if_neg (by simp [hsink])] at h
        cases h
        exact ⟨1, fun hpresent => absurd hpresent Bool.false_ne_true, rfl⟩
  case lock =>
    split at h
    · cases h
      exact ⟨0, fun _ => rfl, rfl⟩
    · cases h
  case write =>
    cases h
    refine ⟨DeliverPc.write.fails choice, fun _ => rfl, ?_⟩
    by_cases hthrows : choice = Choice.throws
    · simp [DeliverPc.fails, DeliverPc.pending, hthrows]
    · simp [DeliverPc.fails, DeliverPc.pending, hthrows]
  case countDelivered =>
    cases h
    exact ⟨0, fun _ => rfl, rfl⟩
  all_goals
    cases h
    exact ⟨0, fun _ => rfl, rfl⟩

theorem dropStep_accounted {s s' : Shared Thread C} {call : Nat}
    {timeout holding : Bool} {pc : DropPc} {pc' : ClientPc}
    (h : dropStep s call timeout holding pc = some (s', pc')) :
    Accounted s s' (ClientPc.drop call timeout holding pc) pc' 0 := by
  cases pc <;> simp only [dropStep] at h
  case total =>
    cases h
    constructor
    · simp only [Shared.openCalls, ClientPc.counted]
      omega
    · exact (Int.add_zero _).symm
    · simp only [Shared.untimed, ClientPc.late]
      split <;> omega
  case unreported =>
    cases timeout <;> cases holding <;> cases h
    · exact Accounted.of_return rfl rfl rfl rfl rfl rfl rfl
    · exact Accounted.of_eq rfl rfl rfl rfl rfl rfl rfl
    · exact Accounted.of_eq rfl rfl rfl rfl rfl rfl rfl
    · exact Accounted.of_eq rfl rfl rfl rfl rfl rfl rfl
  case timeout =>
    cases holding <;> cases h
    · constructor
      · simp only [Shared.openCalls, ClientPc.counted, List.length_append,
          List.length_singleton]
        omega
      · exact (Int.add_zero _).symm
      · simp only [Shared.untimed, ClientPc.late]
        omega
    · constructor
      · rfl
      · exact (Int.add_zero _).symm
      · simp only [Shared.untimed, ClientPc.late]
        omega
  case unlock =>
    cases h
    exact Accounted.of_return rfl rfl rfl rfl rfl rfl rfl

section

variable [DecidableEq Thread]

theorem enqueueStep_accounted {t : Thread} {choice : Choice}
    {s s' : Shared Thread C} {ticket : Ticket} {pc : EnqueuePc} {pc' : ClientPc}
    (h : enqueueStep t choice s ticket pc = some (s', pc')) :
    exists failed,
      (C.sinkPresent = true ->
        failed = (ClientPc.enqueue ticket pc).fails choice) ∧
      Accounted s s' (ClientPc.enqueue ticket pc) pc' failed := by
  cases pc <;> simp only [enqueueStep] at h
  case deliver pc =>
    rcases Option.map_eq_some_iff.mp h with ⟨⟨s1, next⟩, hstep, hpair⟩
    rcases deliverStep_pending hstep with ⟨failed, hfailed, hpending⟩
    rcases deliverStep_shape hstep with ⟨_, _, _, _, rfl, _⟩
    refine ⟨failed, hfailed, ?_⟩
    cases next <;> cases hpair
    · constructor
      · rfl
      · simp only [Option.map_none, Option.getD_none] at hpending
        simp only [Shared.unaccounted, ClientPc.ahead, EnqueuePc.ahead]
        omega
      · exact le_refl _
    · constructor
      · rfl
      · simp only [Option.map_some, Option.getD_some] at hpending
        simp only [Shared.unaccounted, ClientPc.ahead, EnqueuePc.ahead]
        omega
      · exact le_refl _
  all_goals
    refine ⟨0, fun _ => rfl, ?_⟩
  case tryEnqueue =>
    split at h
    · rename_i htry
      have hsize := (MpscBoundedQueue.contents_tryEnqueue htry).2.2.1
      cases h
      constructor
      · rfl
      · simp only [Shared.unaccounted, ClientPc.ahead, EnqueuePc.ahead, hsize]
        omega
      · exact le_refl _
    · rename_i htry
      have hsame := (MpscBoundedQueue.tryEnqueue_false htry).1
      cases h
      exact Accounted.of_eq rfl (by simp only [Shared.unaccounted, hsame]) rfl
        rfl rfl rfl rfl
  case notifyFlush pc =>
    rcases Option.map_eq_some_iff.mp h with ⟨⟨s1, next⟩, hstep, hpair⟩
    rcases notifyFlushStep_shape hstep with ⟨_, _, rfl⟩
    cases next <;> cases hpair
    · exact Accounted.of_eq rfl rfl rfl
        (afterRejection_eq ClientPc.counted rfl rfl rfl)
        (afterRejection_eq ClientPc.ahead rfl rfl rfl)
        (afterRejection_eq ClientPc.late rfl rfl rfl) rfl
    · exact Accounted.of_eq rfl rfl rfl rfl rfl rfl rfl
  case countEnqueued | countFallback =>
    cases h
    constructor
    · simp only [Shared.openCalls, ClientPc.counted, EnqueuePc.counted]
      omega
    · simp only [Shared.unaccounted, ClientPc.ahead, EnqueuePc.ahead,
        DeliverPc.pending]
      omega
    · exact le_refl _
  case notifyWake =>
    cases h
    exact Accounted.of_return rfl rfl rfl rfl rfl rfl rfl
  case notifyFallback pc =>
    rcases Option.map_eq_some_iff.mp h with ⟨⟨s1, next⟩, hstep, hpair⟩
    rcases notifyFlushStep_shape hstep with ⟨_, _, rfl⟩
    cases next <;> cases hpair
    · exact Accounted.of_return rfl rfl rfl rfl rfl rfl rfl
    · exact Accounted.of_eq rfl rfl rfl rfl rfl rfl rfl
  all_goals
    (repeat' split at h) <;> cases h <;>
      exact Accounted.of_eq rfl rfl rfl rfl rfl rfl rfl

theorem clientStep_accounted {t : Thread} {choice : Choice}
    {s s' : Shared Thread C} {pc pc' : ClientPc}
    (h : clientStep t choice s pc = some (s', pc')) :
    exists failed, (C.sinkPresent = true -> failed = pc.fails choice) ∧
      Accounted s s' pc pc' failed := by
  cases pc with
  | idle => cases h
  | enter call record =>
      refine ⟨0, fun _ => rfl, ?_⟩
      cases h
      split
      · exact Accounted.of_eq rfl rfl rfl
          (enqueueEntry_eq ClientPc.counted rfl rfl)
          (enqueueEntry_eq ClientPc.ahead rfl rfl) rfl rfl
      · exact Accounted.of_eq rfl rfl rfl rfl rfl rfl rfl
  | enqueue ticket pc => exact enqueueStep_accounted h
  | drop call timeout holding pc =>
      exact ⟨0, fun _ => rfl, dropStep_accounted h⟩
  | flush before pc =>
      refine ⟨0, fun _ => rfl, ?_⟩
      rcases flushStep_shape h with ⟨⟨_, _, _, _, _, _, _, _, rfl, _⟩, hpc⟩
      rcases hpc with rfl | ⟨_, rfl⟩ <;>
        exact Accounted.of_eq rfl rfl rfl rfl rfl rfl rfl
  | stats loaded pc =>
      refine ⟨0, fun _ => rfl, ?_⟩
      rcases statsStep_shape (Option.some.inj h) with ⟨⟨_, rfl⟩, hpc⟩
      rcases hpc with rfl | ⟨_, _, rfl⟩ <;>
        exact Accounted.of_eq rfl rfl rfl rfl rfl rfl rfl

end

/-!
## One step of the worker
-/

theorem workerStep_pending {choice : Choice} {s s' : Shared Thread C}
    {pc pc' : WorkerPc} (h : workerStep choice s pc = some (s', pc')) :
    exists failed, (C.sinkPresent = true -> failed = pc.fails choice) ∧
      s'.totalDelivered + s'.queue.size + pc'.pending + failed =
        s.totalDelivered + s.queue.size + pc.pending := by
  cases pc <;> simp only [workerStep] at h
  case deliver ticket drained pc =>
    rcases Option.map_eq_some_iff.mp h with ⟨⟨s1, next⟩, hstep, hpair⟩
    rcases deliverStep_pending hstep with ⟨failed, hfailed, hpending⟩
    rcases deliverStep_shape hstep with ⟨_, _, _, _, rfl, _⟩
    refine ⟨failed, hfailed, ?_⟩
    cases next <;> cases hpair
    · simp only [Option.map_none, Option.getD_none] at hpending
      simp only [WorkerPc.pending]
      omega
    · simp only [Option.map_some, Option.getD_some] at hpending
      simp only [WorkerPc.pending]
      omega
  all_goals
    refine ⟨0, fun _ => rfl, ?_⟩
  case testRunning =>
    cases h
    split <;> rfl
  case testEmpty =>
    cases h
    split
    · rw [afterLoop_eq WorkerPc.pending rfl rfl]
      rfl
    · rfl
  case dequeue drained =>
    split at h
    · split at h
      · rename_i hdequeue
        have hsize := (MpscBoundedQueue.contents_tryDequeue hdequeue).2
        cases h
        simp only [WorkerPc.pending, DeliverPc.pending]
        omega
      · rename_i hdequeue
        have hsame := (MpscBoundedQueue.tryDequeue_false hdequeue).1
        cases h
        rw [afterBatch_eq WorkerPc.pending rfl rfl, hsame]
        rfl
    · cases h
      rw [afterBatch_eq WorkerPc.pending rfl rfl]
      rfl
  case report drained pc | lastReport pc =>
    rcases Option.map_eq_some_iff.mp h with ⟨⟨s1, next⟩, hstep, hpair⟩
    rcases reportStep_shape hstep with ⟨_, _, _, _, _, rfl, _⟩
    cases next <;> cases hpair <;> rfl
  case notifyFlush drained pc =>
    rcases Option.map_eq_some_iff.mp h with ⟨⟨s1, next⟩, hstep, hpair⟩
    rcases notifyFlushStep_shape hstep with ⟨_, _, rfl⟩
    cases next <;> cases hpair
    · rw [afterIteration_eq WorkerPc.pending rfl rfl]
      rfl
    · rfl
  case lastNotify pc =>
    rcases Option.map_eq_some_iff.mp h with ⟨⟨s1, next⟩, hstep, hpair⟩
    rcases notifyFlushStep_shape hstep with ⟨_, _, rfl⟩
    cases next <;> cases hpair <;> rfl
  case lastFlush pc =>
    rcases Option.map_eq_some_iff.mp h with ⟨⟨s1, next⟩, hstep, hpair⟩
    rcases flushSinkStep_shape hstep with ⟨_, _, _, rfl, _⟩
    cases next <;> cases hpair <;> rfl
  case idleRunning expired =>
    cases h
    split <;> rfl
  all_goals
    (repeat' split at h) <;> cases h <;> rfl

/-!
## What each policy rules out
-/

theorem ownerStep_ne_alive {s s' : Shared Thread C} {worker : WorkerPc}
    {pc pc' : OwnerPc} (h : ownerStep s worker pc = some (s', pc')) :
    pc' ≠ OwnerPc.alive := by
  cases pc <;> simp only [ownerStep] at h
  case alive =>
    cases h
    split <;> decide
  case join =>
    split at h <;> cases h
    decide
  case destroyed => cases h
  all_goals
    cases h
    decide

structure PolicyCounters (policy : AsyncOverflowPolicy)
    (s : Shared Thread C) : Prop where
  timeouts : policy ≠ AsyncOverflowPolicy.blockForTimeout ->
    s.timeoutDropped = 0
  drops : policy = AsyncOverflowPolicy.block ∨
    policy = AsyncOverflowPolicy.syncFallback -> s.totalDropped = 0
  fallbacks : policy ≠ AsyncOverflowPolicy.syncFallback ->
    s.fallbackWrites = 0

def EnqueuePc.Allowed (policy : AsyncOverflowPolicy) : EnqueuePc -> Prop
  | EnqueuePc.testRunning expired
  | EnqueuePc.testSpace expired
  | EnqueuePc.relockSpace expired =>
      expired = true -> policy = AsyncOverflowPolicy.blockForTimeout
  | EnqueuePc.addFallback => policy = AsyncOverflowPolicy.syncFallback
  | EnqueuePc.countFallback => policy = AsyncOverflowPolicy.syncFallback
  | EnqueuePc.deliver _ => policy = AsyncOverflowPolicy.syncFallback
  | _ => True

def ClientPc.Allowed (policy : AsyncOverflowPolicy) : ClientPc -> Prop
  | ClientPc.enqueue _ pc => pc.Allowed policy
  | ClientPc.drop _ timeout _ pc =>
      policy = AsyncOverflowPolicy.blockForTimeout ∨
        (policy = AsyncOverflowPolicy.dropNewest ∧ timeout = false ∧
          pc ≠ DropPc.timeout)
  | _ => True

theorem enqueueEntry_allowed (policy : AsyncOverflowPolicy) :
    (enqueueEntry policy).Allowed policy := by
  cases policy <;> trivial

theorem afterRejection_allowed (policy : AsyncOverflowPolicy)
    (ticket : Ticket) :
    (afterRejection policy ticket).Allowed policy := by
  cases policy with
  | dropNewest => exact Or.inr ⟨rfl, rfl, by decide⟩
  | block => trivial
  | blockForTimeout => trivial
  | syncFallback => rfl

theorem PolicyCounters.congr {policy : AsyncOverflowPolicy}
    {s s' : Shared Thread C} (hs : PolicyCounters policy s)
    (htimeouts : s'.timeoutDropped = s.timeoutDropped)
    (hdrops : s'.totalDropped = s.totalDropped)
    (hfallbacks : s'.fallbackWrites = s.fallbackWrites) :
    PolicyCounters policy s' where
  timeouts := fun h => htimeouts.trans (hs.timeouts h)
  drops := fun h => hdrops.trans (hs.drops h)
  fallbacks := fun h => hfallbacks.trans (hs.fallbacks h)

theorem PolicyCounters.blockForTimeout {policy : AsyncOverflowPolicy}
    {s s' : Shared Thread C}
    (hpolicy : policy = AsyncOverflowPolicy.blockForTimeout)
    (hs : PolicyCounters policy s)
    (hfallbacks : s'.fallbackWrites = s.fallbackWrites) :
    PolicyCounters policy s' where
  timeouts := fun h => absurd hpolicy h
  drops := fun h => by
    subst hpolicy
    rcases h with h | h <;> cases h
  fallbacks := fun h => hfallbacks.trans (hs.fallbacks h)

theorem dropStep_allowed {policy : AsyncOverflowPolicy}
    {s s' : Shared Thread C} {call : Nat} {timeout holding : Bool}
    {pc : DropPc} {pc' : ClientPc} (hs : PolicyCounters policy s)
    (hpc : (ClientPc.drop call timeout holding pc).Allowed policy)
    (h : dropStep s call timeout holding pc = some (s', pc')) :
    PolicyCounters policy s' ∧ pc'.Allowed policy := by
  rcases hpc with hpolicy | ⟨rfl, rfl, hpc⟩
  · rcases dropStep_shape h with ⟨⟨_, _, _, _, _, _, _, _, rfl⟩, hpc'⟩
    constructor
    · exact hs.blockForTimeout hpolicy rfl
    · rcases hpc' with rfl | ⟨_, rfl⟩
      · trivial
      · exact Or.inl hpolicy
  · -- `DropNewest` counts a drop, but never a timeout.
    cases pc <;> simp only [dropStep] at h
    case total =>
      cases h
      constructor
      · exact ⟨hs.timeouts, (by rintro (h | h) <;> cases h), hs.fallbacks⟩
      · exact Or.inr ⟨rfl, rfl, by decide⟩
    case unreported =>
      cases holding <;> cases h
      · exact ⟨hs.congr rfl rfl rfl, trivial⟩
      · exact ⟨hs.congr rfl rfl rfl, Or.inr ⟨rfl, rfl, by decide⟩⟩
    case timeout => exact absurd rfl hpc
    case unlock =>
      cases h
      exact ⟨hs.congr rfl rfl rfl, trivial⟩

section

variable [DecidableEq Thread]

theorem enqueueStep_allowed {t : Thread} {choice : Choice}
    {s s' : Shared Thread C} {ticket : Ticket} {pc : EnqueuePc} {pc' : ClientPc}
    (hrunning : s.running = true) (hs : PolicyCounters C.overflowPolicy s)
    (hpc : pc.Allowed C.overflowPolicy)
    (h : enqueueStep t choice s ticket pc = some (s', pc')) :
    PolicyCounters C.overflowPolicy s' ∧ pc'.Allowed C.overflowPolicy := by
  cases pc <;> simp only [enqueueStep] at h
  case loopRunning =>
    rw [if_pos hrunning] at h
    cases h
    exact ⟨hs, trivial⟩
  case notifyFlush pc =>
    rcases Option.map_eq_some_iff.mp h with ⟨⟨s1, next⟩, hstep, hpair⟩
    rcases notifyFlushStep_shape hstep with ⟨_, _, rfl⟩
    cases next <;> cases hpair
    · exact ⟨hs.congr rfl rfl rfl, afterRejection_allowed _ _⟩
    · exact ⟨hs.congr rfl rfl rfl, trivial⟩
  case lockSpace =>
    split at h
    · cases h
      exact ⟨hs.congr rfl rfl rfl, fun hexpired => by cases hexpired⟩
    · cases h
  case testRunning expired =>
    rw [if_pos hrunning] at h
    cases h
    exact ⟨hs, hpc⟩
  case testSpace expired =>
    split at h
    · cases h
      exact ⟨hs, trivial⟩
    · split at h
      · rename_i hexpired
        cases h
        exact ⟨hs, Or.inl (hpc hexpired)⟩
      · cases h
        exact ⟨hs, trivial⟩
  case asleepSpace =>
    split at h
    · rename_i hexpires
      cases h
      exact ⟨hs.congr rfl rfl rfl, fun _ => hexpires.2⟩
    · split at h
      · cases h
        exact ⟨hs.congr rfl rfl rfl, fun hexpired => by cases hexpired⟩
      · cases h
  case relockSpace expired =>
    split at h
    · cases h
      exact ⟨hs.congr rfl rfl rfl, hpc⟩
    · cases h
  case addFallback =>
    cases h
    exact ⟨hs.congr rfl rfl rfl, hpc⟩
  case countFallback =>
    cases h
    exact ⟨⟨hs.timeouts, hs.drops, fun hpolicy => absurd hpc hpolicy⟩, hpc⟩
  case deliver pc =>
    rcases Option.map_eq_some_iff.mp h with ⟨⟨s1, next⟩, hstep, hpair⟩
    rcases deliverStep_shape hstep with ⟨_, _, _, _, rfl, _⟩
    cases next <;> cases hpair
    · exact ⟨hs.congr rfl rfl rfl, trivial⟩
    · exact ⟨hs.congr rfl rfl rfl, hpc⟩
  case notifyFallback pc =>
    rcases Option.map_eq_some_iff.mp h with ⟨⟨s1, next⟩, hstep, hpair⟩
    rcases notifyFlushStep_shape hstep with ⟨_, _, rfl⟩
    cases next <;> cases hpair <;> exact ⟨hs.congr rfl rfl rfl, trivial⟩
  all_goals
    (repeat' split at h) <;> cases h <;>
      exact ⟨hs.congr rfl rfl rfl, trivial⟩

theorem clientStep_allowed {t : Thread} {choice : Choice}
    {s s' : Shared Thread C} {pc pc' : ClientPc} (hrunning : s.running = true)
    (hs : PolicyCounters C.overflowPolicy s)
    (hpc : pc.Allowed C.overflowPolicy)
    (h : clientStep t choice s pc = some (s', pc')) :
    PolicyCounters C.overflowPolicy s' ∧ pc'.Allowed C.overflowPolicy := by
  cases pc with
  | idle => cases h
  | enter call record =>
      simp only [clientStep, hrunning, if_true] at h
      cases h
      exact ⟨hs, enqueueEntry_allowed _⟩
  | enqueue ticket pc => exact enqueueStep_allowed hrunning hs hpc h
  | drop call timeout holding pc => exact dropStep_allowed hs hpc h
  | flush before pc =>
      rcases flushStep_shape h with ⟨⟨_, _, _, _, _, _, _, _, rfl, _⟩, hpc'⟩
      rcases hpc' with rfl | ⟨_, rfl⟩ <;>
        exact ⟨hs.congr rfl rfl rfl, trivial⟩
  | stats loaded pc =>
      rcases statsStep_shape (Option.some.inj h) with ⟨⟨_, rfl⟩, hpc'⟩
      rcases hpc' with rfl | ⟨_, _, rfl⟩ <;>
        exact ⟨hs.congr rfl rfl rfl, trivial⟩

structure KeepsPolicy (s : State Thread C) : Prop where
  running : s.shared.running = true
  counters : PolicyCounters C.overflowPolicy s.shared
  clients : forall t, (s.client t).Allowed C.overflowPolicy

theorem KeepsPolicy.client {s : State Thread C} {t : Thread}
    {shared : Shared Thread C} {pc : ClientPc} (hs : KeepsPolicy s)
    (hrunning : shared.running = true)
    (hcounters : PolicyCounters C.overflowPolicy shared)
    (hpc : pc.Allowed C.overflowPolicy) :
    KeepsPolicy
      { s with shared := shared, client := Function.update s.client t pc } where
  running := hrunning
  counters := hcounters
  clients := fun t' => by
    by_cases ht : t' = t
    · subst ht
      simpa using hpc
    · simpa [ht] using hs.clients t'

theorem keepsPolicy_step {s s' : State Thread C} {a : Action Thread}
    (hs : s.owner = OwnerPc.alive -> KeepsPolicy s)
    (h : s.step a = some s') (halive : s'.owner = OwnerPc.alive) :
    KeepsPolicy s' := by
  cases a with
  | write t record =>
      rcases State.begin_some h with ⟨_, rfl⟩
      have hkeeps := hs halive
      exact hkeeps.client hkeeps.running (hkeeps.counters.congr rfl rfl rfl)
        trivial
  | flush t =>
      rcases State.begin_some h with ⟨_, rfl⟩
      have hkeeps := hs halive
      exact hkeeps.client hkeeps.running hkeeps.counters trivial
  | getStats t =>
      rcases State.begin_some h with ⟨_, rfl⟩
      have hkeeps := hs halive
      exact hkeeps.client hkeeps.running hkeeps.counters trivial
  | client t choice =>
      rcases Option.map_eq_some_iff.mp h with ⟨⟨shared, pc⟩, hstep, rfl⟩
      have hkeeps := hs halive
      have hallowed := clientStep_allowed hkeeps.running hkeeps.counters
        (hkeeps.clients t) hstep
      exact hkeeps.client ((clientStep_running hstep).trans hkeeps.running)
        hallowed.1 hallowed.2
  | worker choice =>
      rcases Option.map_eq_some_iff.mp h with ⟨⟨shared, pc⟩, hstep, rfl⟩
      have hkeeps := hs halive
      rcases workerStep_shape hstep with
        ⟨_, _, _, _, _, _, _, _, _, _, _, _, rfl, _⟩
      exact ⟨hkeeps.running, hkeeps.counters.congr rfl rfl rfl, hkeeps.clients⟩
  | owner =>
      rcases Option.map_eq_some_iff.mp h with ⟨⟨shared, pc⟩, hstep, rfl⟩
      exact absurd halive (ownerStep_ne_alive hstep)

theorem reachable_keepsPolicy {s : State Thread C}
    (h : (asyncSink Thread C).Reachable s) :
    s.owner = OwnerPc.alive -> KeepsPolicy s := by
  apply Machine.invariant ?_ (fun s a s' _ hs hstep => ?_) h
  · intro _
    exact ⟨rfl, ⟨fun _ => rfl, fun _ => rfl, fun _ => rfl⟩, fun _ => trivial⟩
  · exact keepsPolicy_step hs hstep

end

/-!
## Every reachable state
-/

section

variable [Fintype Thread] [DecidableEq Thread]

/-- The sink, together with the number of its deliveries that have failed. -/
def accountedSink (Thread : Type) [DecidableEq Thread] (C : AsyncSinkConfig) :
    Machine (State Thread C × Nat) (Action Thread) :=
  (asyncSink Thread C).recording 0 fun s a _ failed => failed + s.fails a

structure Balances (s : State Thread C) (failed : Nat) : Prop where
  calls : s.shared.openCalls = ∑ t, (s.client t).counted
  records : s.shared.unaccounted + (∑ t, (s.client t).ahead) =
    s.worker.pending + failed
  timeouts : (∑ t, (s.client t).late) ≤ s.shared.untimed

theorem Balances.client {s : State Thread C} {past failed : Nat} {t : Thread}
    {shared : Shared Thread C} {pc : ClientPc} (hs : Balances s past)
    (h : Accounted s.shared shared (s.client t) pc failed) :
    Balances
      { s with shared := shared, client := Function.update s.client t pc }
      (past + failed) := by
  have hcalls := hs.calls
  have hrecords := hs.records
  have htimeouts := hs.timeouts
  have hcalls' := h.calls
  have hrecords' := h.records
  have htimeouts' := h.timeouts
  constructor
  · rw [sum_update s.client t pc ClientPc.counted]
    simp only
    omega
  · rw [sum_update s.client t pc ClientPc.ahead]
    simp only
    omega
  · rw [sum_update s.client t pc ClientPc.late]
    simp only
    omega

theorem balances_step {s s' : State Thread C} {past : Nat} {a : Action Thread}
    (hs : Balances s past) (h : s.step a = some s') :
    exists failed, (C.sinkPresent = true -> failed = s.fails a) ∧
      Balances s' (past + failed) := by
  cases a with
  | write t record =>
      rcases State.begin_some h with ⟨hidle, rfl⟩
      refine ⟨0, fun _ => rfl, hs.client ?_⟩
      rw [hidle]
      exact Accounted.of_eq rfl rfl rfl rfl rfl rfl rfl
  | flush t =>
      rcases State.begin_some h with ⟨hidle, rfl⟩
      refine ⟨0, fun _ => rfl, hs.client ?_⟩
      rw [hidle]
      exact Accounted.of_eq rfl rfl rfl rfl rfl rfl rfl
  | getStats t =>
      rcases State.begin_some h with ⟨hidle, rfl⟩
      refine ⟨0, fun _ => rfl, hs.client ?_⟩
      rw [hidle]
      exact Accounted.of_eq rfl rfl rfl rfl rfl rfl rfl
  | client t choice =>
      rcases Option.map_eq_some_iff.mp h with ⟨⟨shared, pc⟩, hstep, rfl⟩
      rcases clientStep_accounted hstep with ⟨failed, hfailed, hcounted⟩
      exact ⟨failed, hfailed, hs.client hcounted⟩
  | worker choice =>
      rcases Option.map_eq_some_iff.mp h with ⟨⟨shared, pc⟩, hstep, rfl⟩
      rcases workerStep_pending hstep with ⟨failed, hfailed, hpending⟩
      refine ⟨failed, hfailed, ?_⟩
      have hrecords := hs.records
      rcases workerStep_shape hstep with
        ⟨_, _, _, _, _, _, _, _, _, _, _, _, rfl, _⟩
      constructor
      · exact hs.calls
      · simp only [Shared.unaccounted] at hrecords hpending ⊢
        omega
      · exact hs.timeouts
  | owner =>
      refine ⟨0, fun _ => rfl, ?_⟩
      rcases Option.map_eq_some_iff.mp h with ⟨⟨shared, pc⟩, hstep, rfl⟩
      rcases ownerStep_shape hstep with ⟨_, _, _, rfl⟩
      exact ⟨hs.calls, hs.records, hs.timeouts⟩

theorem balances_init : Balances (asyncSink Thread C).init 0 := by
  constructor <;>
    simp [asyncSink, Shared.openCalls, Shared.unaccounted, Shared.untimed,
      ClientPc.counted, ClientPc.ahead, ClientPc.late, WorkerPc.pending,
      MpscBoundedQueue.empty]

theorem reachable_balances {s : State Thread C × Nat}
    (hsink : C.sinkPresent = true) (h : (accountedSink Thread C).Reachable s) :
    Balances s.1 s.2 := by
  apply Machine.recordingInvariant balances_init
    (fun s past a s' _ hs hstep => ?_) h
  rcases balances_step hs hstep with ⟨failed, hfailed, hbalances⟩
  rw [hfailed hsink] at hbalances
  exact hbalances

theorem reachable_exists_balances {s : State Thread C}
    (h : (asyncSink Thread C).Reachable s) :
    exists failed, Balances s failed := by
  refine Machine.invariant (P := fun s => exists failed, Balances s failed)
    ⟨0, balances_init⟩ (fun s a s' _ hs hstep => ?_) h
  rcases hs with ⟨past, hs⟩
  rcases balances_step hs hstep with ⟨failed, _, hbalances⟩
  exact ⟨past + failed, hbalances⟩

/-!
## Between the calls of `Write`
-/

/-- What the statistics of a running sink say, with `failed` failures so far. -/
structure Conserved (s : State Thread C) (failed : Nat) : Prop where
  calls : s.shared.totalEnqueued + s.shared.totalDropped +
    s.shared.fallbackWrites = s.shared.history.returned.length
  records : s.shared.totalEnqueued + s.shared.fallbackWrites =
    s.shared.totalDelivered +
      (s.shared.queue.contents.length + s.worker.pending) + failed
  timeouts_le : s.shared.timeoutDropped ≤ s.shared.totalDropped
  timeouts : C.overflowPolicy ≠ AsyncOverflowPolicy.blockForTimeout ->
    s.shared.timeoutDropped = 0
  drops : C.overflowPolicy = AsyncOverflowPolicy.block ∨
    C.overflowPolicy = AsyncOverflowPolicy.syncFallback ->
      s.shared.totalDropped = 0
  fallbacks : C.overflowPolicy ≠ AsyncOverflowPolicy.syncFallback ->
    s.shared.fallbackWrites = 0

/--
In every reachable state of a sink that is not being destroyed, when no client
is in `Write`, the statistics account for every call and every record.
-/
theorem accounting_conserved (Thread : Type) [Fintype Thread]
    [DecidableEq Thread] (C : AsyncSinkConfig) (hsink : C.sinkPresent = true)
    (s : State Thread C × Nat) (h : (accountedSink Thread C).Reachable s)
    (halive : s.1.owner = OwnerPc.alive)
    (hquiet : forall t, (s.1.client t).call? = none) :
    Conserved s.1 s.2 := by
  have hbalances := reachable_balances hsink h
  have hpolicy :=
    (reachable_keepsPolicy (Machine.recording_reachable h) halive).counters
  have hcounted : (∑ t, (s.1.client t).counted) = 0 :=
    Finset.sum_eq_zero fun t _ => (ClientPc.counted_eq_zero (hquiet t)).1
  have hahead : (∑ t, (s.1.client t).ahead) = 0 :=
    Finset.sum_eq_zero fun t _ => (ClientPc.counted_eq_zero (hquiet t)).2
  have hlate : 0 ≤ ∑ t, (s.1.client t).late :=
    Finset.sum_nonneg fun t _ => (s.1.client t).late_nonneg
  constructor
  · have hcalls := hbalances.calls
    rw [hcounted, Shared.openCalls] at hcalls
    omega
  · have hrecords := hbalances.records
    rw [hahead, Shared.unaccounted] at hrecords
    rw [MpscBoundedQueue.contents_length]
    omega
  · have htimeouts := hbalances.timeouts
    rw [Shared.untimed] at htimeouts
    omega
  · exact hpolicy.timeouts
  · exact hpolicy.drops
  · exact hpolicy.fallbacks

end

/--
Two calls fill the smallest sink and the third falls back, with an exception;
the worker delivers one record and holds the other.
-/
def failingFallback : List (Action Bool) :=
  let writes (t : Bool) (steps : Nat) : List (Action Bool) :=
    Action.write t {} :: List.replicate steps (Action.client t Choice.throws)
  writes false 8 ++ writes true 8 ++ writes false 14 ++
    List.replicate 17 (Action.worker Choice.plain)

theorem failingFallback_conserved :
    exists s,
      (accountedSink Bool
        (smallSink AsyncOverflowPolicy.syncFallback)).Reachable s ∧
      s.1.owner = OwnerPc.alive ∧
      s.2 = 1 ∧
      Conserved s.1 s.2 := by
  have hrun :
      ((accountedSink Bool (smallSink AsyncOverflowPolicy.syncFallback)).run
        failingFallback).any (fun s =>
          decide (s.1.owner = OwnerPc.alive) && decide (s.2 = 1) &&
          (s.1.client false).call?.isNone && (s.1.client true).call?.isNone) =
        true := by
    decide
  rcases Machine.exists_reachable_of_run hrun with ⟨s, hreachable, htest⟩
  simp only [Bool.and_eq_true, decide_eq_true_eq, Option.isNone_iff_eq_none]
    at htest
  rcases htest with ⟨⟨⟨halive, hfailed⟩, hfalse⟩, htrue⟩
  refine ⟨s, hreachable, halive, hfailed, ?_⟩
  apply accounting_conserved Bool _ rfl s hreachable halive
  intro t
  cases t
  · exact hfalse
  · exact htrue

end Async
end NginLog
