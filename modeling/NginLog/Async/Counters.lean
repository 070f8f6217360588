import NginLog.Async.Routines

/-!
# Counters and steps

The counters of the sink are 64 bits wide in the source and natural numbers
here.  A step raises each of them by one at most, so none is larger than the
number of steps taken, and none wraps around in a run of fewer than 2^64 steps.
-/

namespace NginLog
namespace Async

open Foundation

variable {Thread : Type} {C : AsyncSinkConfig}

inductive Counter where
  | totalEnqueued
  | totalDelivered
  | totalDropped
  | timeoutDropped
  | fallbackWrites
  | errorCount
  | unreportedDropped
  | outstanding

def Shared.counter (s : Shared Thread C) : Counter -> Nat
  | Counter.totalEnqueued => s.totalEnqueued
  | Counter.totalDelivered => s.totalDelivered
  | Counter.totalDropped => s.totalDropped
  | Counter.timeoutDropped => s.timeoutDropped
  | Counter.fallbackWrites => s.fallbackWrites
  | Counter.errorCount => s.errorCount
  | Counter.unreportedDropped => s.unreportedDropped
  | Counter.outstanding => s.outstanding.toNat

def CountsOne (s s' : Shared Thread C) : Prop :=
  forall counter, s'.counter counter ≤ s.counter counter + 1

theorem CountsOne.of_eq {s s' : Shared Thread C}
    (h : forall counter, s'.counter counter = s.counter counter) :
    CountsOne s s' :=
  fun counter => h counter ▸ Nat.le_succ _

theorem CountsOne.of_map {next pc : Type} {s s' : Shared Thread C} {pc' : pc}
    {step : Option (Shared Thread C × next)}
    {goOn : Shared Thread C × next -> Shared Thread C × pc}
    (h : step.map goOn = some (s', pc'))
    (hsame : forall result, (goOn result).1.counter = result.1.counter)
    (hstep : forall s1 result, step = some (s1, result) -> CountsOne s s1) :
    CountsOne s s' := by
  rcases Option.map_eq_some_iff.mp h with ⟨⟨s1, result⟩, hresult, hpair⟩
  have hcounter : s'.counter = s1.counter := by
    rw [← hsame (s1, result), hpair]
  intro counter
  rw [hcounter]
  exact hstep s1 result hresult counter

/-!
## The routines of a step
-/

theorem deliverStep_countsOne {me : Agent Thread} {event : SinkEvent Thread}
    {choice : Choice} {s s' : Shared Thread C} {pc : DeliverPc}
    {next : Option DeliverPc}
    (h : deliverStep me event choice s pc = some (s', next)) :
    CountsOne s s' := by
  cases pc <;> simp only [deliverStep] at h <;> (repeat' split at h) <;>
    cases h <;> intro counter <;> cases counter <;> simp [Shared.counter]

theorem reportStep_countsOne {me : Agent Thread} {choice : Choice}
    {s s' : Shared Thread C} {pc : ReportPc} {next : Option ReportPc}
    (h : reportStep me choice s pc = some (s', next)) :
    CountsOne s s' := by
  cases pc <;> simp only [reportStep] at h <;> (repeat' split at h) <;>
    cases h <;> intro counter <;> cases counter <;> simp [Shared.counter]

theorem flushSinkStep_countsOne {me : Agent Thread} {choice : Choice}
    {s s' : Shared Thread C} {pc : FlushSinkPc} {next : Option FlushSinkPc}
    (h : flushSinkStep me choice s pc = some (s', next)) :
    CountsOne s s' := by
  cases pc <;> simp only [flushSinkStep] at h <;> (repeat' split at h) <;>
    cases h <;> intro counter <;> cases counter <;> simp [Shared.counter]

theorem notifyFlushStep_countsOne {me : Agent Thread} {s s' : Shared Thread C}
    {pc : NotifyPc} {next : Option NotifyPc}
    (h : notifyFlushStep me s pc = some (s', next)) :
    CountsOne s s' := by
  rcases notifyFlushStep_shape h with ⟨_, _, rfl⟩
  exact CountsOne.of_eq fun counter => by cases counter <;> rfl

/-!
## A step
-/

theorem dropStep_countsOne {s s' : Shared Thread C} {call : Nat}
    {timeout holding : Bool} {pc : DropPc} {pc' : ClientPc}
    (h : dropStep s call timeout holding pc = some (s', pc')) :
    CountsOne s s' := by
  cases pc <;> simp only [dropStep] at h <;> (repeat' split at h) <;>
    cases h <;> intro counter <;> cases counter <;>
    simp [Shared.counter]

section

variable [DecidableEq Thread]

theorem enqueueStep_countsOne {t : Thread} {choice : Choice}
    {s s' : Shared Thread C} {ticket : Ticket} {pc : EnqueuePc} {pc' : ClientPc}
    (h : enqueueStep t choice s ticket pc = some (s', pc')) :
    CountsOne s s' := by
  cases pc <;> simp only [enqueueStep] at h
  case notifyFlush pc =>
    exact CountsOne.of_map h (fun _ => rfl) fun _ _ => notifyFlushStep_countsOne
  case deliver pc =>
    exact CountsOne.of_map h (fun _ => rfl) fun _ _ => deliverStep_countsOne
  case notifyFallback pc =>
    refine CountsOne.of_map h ?_ fun _ _ => notifyFlushStep_countsOne
    rintro ⟨_, _ | _⟩ <;> rfl
  all_goals
    (repeat' split at h) <;> cases h <;> intro counter <;> cases counter <;>
      simp [Shared.counter] <;> omega

theorem flushStep_countsOne {t : Thread} {choice : Choice}
    {s s' : Shared Thread C} {before : List Nat} {pc : FlushPc} {pc' : ClientPc}
    (h : flushStep t choice s before pc = some (s', pc')) :
    CountsOne s s' := by
  cases pc <;> simp only [flushStep] at h
  case report pc =>
    exact CountsOne.of_map h (fun _ => rfl) fun _ _ => reportStep_countsOne
  case flushSink pc =>
    refine CountsOne.of_map h ?_ fun _ _ => flushSinkStep_countsOne
    rintro ⟨_, _ | _⟩ <;> rfl
  all_goals
    (repeat' split at h) <;> cases h <;>
      exact CountsOne.of_eq fun counter => by cases counter <;> rfl

theorem clientStep_countsOne {t : Thread} {choice : Choice}
    {s s' : Shared Thread C} {pc pc' : ClientPc}
    (h : clientStep t choice s pc = some (s', pc')) :
    CountsOne s s' := by
  cases pc with
  | idle => cases h
  | enter call record =>
      cases h
      exact CountsOne.of_eq fun _ => rfl
  | enqueue ticket pc => exact enqueueStep_countsOne h
  | drop call timeout holding pc => exact dropStep_countsOne h
  | flush before pc => exact flushStep_countsOne h
  | stats loaded pc =>
      rcases statsStep_shape (Option.some.inj h) with ⟨⟨_, rfl⟩, _⟩
      exact CountsOne.of_eq fun counter => by cases counter <;> rfl

end

theorem workerStep_countsOne {choice : Choice} {s s' : Shared Thread C}
    {pc pc' : WorkerPc} (h : workerStep choice s pc = some (s', pc')) :
    CountsOne s s' := by
  cases pc <;> simp only [workerStep] at h
  case deliver ticket drained pc =>
    exact CountsOne.of_map h (fun _ => rfl) fun _ _ => deliverStep_countsOne
  case report drained pc =>
    exact CountsOne.of_map h (fun _ => rfl) fun _ _ => reportStep_countsOne
  case lastReport pc =>
    exact CountsOne.of_map h (fun _ => rfl) fun _ _ => reportStep_countsOne
  case lastFlush pc =>
    exact CountsOne.of_map h (fun _ => rfl) fun _ _ => flushSinkStep_countsOne
  case notifyFlush drained pc =>
    exact CountsOne.of_map h (fun _ => rfl) fun _ _ => notifyFlushStep_countsOne
  case lastNotify pc =>
    exact CountsOne.of_map h (fun _ => rfl) fun _ _ => notifyFlushStep_countsOne
  all_goals
    (repeat' split at h) <;> cases h <;> intro counter <;> cases counter <;>
      simp [Shared.counter] <;> omega

theorem ownerStep_countsOne {s s' : Shared Thread C} {worker : WorkerPc}
    {pc pc' : OwnerPc} (h : ownerStep s worker pc = some (s', pc')) :
    CountsOne s s' := by
  cases pc <;> simp only [ownerStep] at h <;> (repeat' split at h) <;>
    cases h <;> exact CountsOne.of_eq fun counter => by cases counter <;> rfl

/-!
## A run
-/

section

variable [DecidableEq Thread]

theorem State.step_countsOne {s s' : State Thread C} {a : Action Thread}
    (h : s.step a = some s') :
    CountsOne s.shared s'.shared := by
  cases a with
  | write t record =>
      rcases State.begin_some h with ⟨_, rfl⟩
      exact CountsOne.of_eq fun counter => by cases counter <;> rfl
  | flush t =>
      rcases State.begin_some h with ⟨_, rfl⟩
      exact CountsOne.of_eq fun _ => rfl
  | getStats t =>
      rcases State.begin_some h with ⟨_, rfl⟩
      exact CountsOne.of_eq fun _ => rfl
  | client t choice =>
      rcases Option.map_eq_some_iff.mp h with ⟨⟨shared, pc⟩, hstep, rfl⟩
      exact clientStep_countsOne hstep
  | worker choice =>
      rcases Option.map_eq_some_iff.mp h with ⟨⟨shared, pc⟩, hstep, rfl⟩
      exact workerStep_countsOne hstep
  | owner =>
      rcases Option.map_eq_some_iff.mp h with ⟨⟨shared, pc⟩, hstep, rfl⟩
      exact ownerStep_countsOne hstep

theorem counter_le_steps {s : State Thread C} {trace : List (Action Thread)}
    (hrun : (asyncSink Thread C).run trace = some s) (counter : Counter) :
    s.shared.counter counter ≤ trace.length := by
  refine @Machine.countedInvariant _ _ (asyncSink Thread C)
    (fun n s => s.shared.counter counter ≤ n) ?_ ?_ s trace hrun
  · cases counter <;> exact Nat.le_refl 0
  · intro n s a s' _ hs hstep
    exact Nat.le_trans (State.step_countsOne hstep counter)
      (Nat.succ_le_succ hs)

theorem counter_lt_of_short_run {s : State Thread C}
    {trace : List (Action Thread)}
    (hrun : (asyncSink Thread C).run trace = some s)
    (hshort : trace.length < 2 ^ 64) (counter : Counter) :
    s.shared.counter counter < 2 ^ 64 :=
  Nat.lt_of_le_of_lt (counter_le_steps hrun counter) hshort

end

end Async
end NginLog
