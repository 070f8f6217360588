import NginLog.Async.Routines

/-!
# The order of delivery

The records that the worker has passed to the wrapped sink, then the record it
has dequeued and not yet passed on, then the queue, are together the records in
the order in which their insertion succeeded.  Clients extend both ends of this
equation at once; the worker moves records from right to left.
-/

namespace NginLog
namespace Async

open Foundation

variable {Thread : Type} {C : AsyncSinkConfig}

namespace SinkEvent

def deliver? : SinkEvent Thread -> Option Ticket
  | SinkEvent.deliver ticket => some ticket
  | _ => none

def fallback? : SinkEvent Thread -> Option (Thread × Ticket)
  | SinkEvent.fallback t ticket => some (t, ticket)
  | _ => none

end SinkEvent

/-- The records that the worker has passed to the wrapped sink, in order. -/
def delivered (sink : List (SinkEvent Thread)) : List Ticket :=
  sink.filterMap SinkEvent.deliver?

def fellBack (sink : List (SinkEvent Thread)) : List (Thread × Ticket) :=
  sink.filterMap SinkEvent.fallback?

@[simp] theorem delivered_append (sink events : List (SinkEvent Thread)) :
    delivered (sink ++ events) = delivered sink ++ delivered events :=
  List.filterMap_append

@[simp] theorem fellBack_append (sink events : List (SinkEvent Thread)) :
    fellBack (sink ++ events) = fellBack sink ++ fellBack events :=
  List.filterMap_append

@[simp] theorem delivered_reportEvents (pc : ReportPc) :
    delivered (pc.events : List (SinkEvent Thread)) = [] := by
  cases pc <;> rfl

@[simp] theorem fellBack_reportEvents (pc : ReportPc) :
    fellBack (pc.events : List (SinkEvent Thread)) = [] := by
  cases pc <;> rfl

@[simp] theorem delivered_flushSinkEvents (me : Agent Thread)
    (pc : FlushSinkPc) :
    delivered (pc.events me) = [] := by
  cases pc <;> rfl

@[simp] theorem fellBack_flushSinkEvents (me : Agent Thread)
    (pc : FlushSinkPc) :
    fellBack (pc.events me) = [] := by
  cases pc <;> rfl

@[simp] theorem delivered_flushEvents (me : Agent Thread) (pc : FlushPc) :
    delivered (pc.events me) = [] := by
  cases pc with
  | report pc => exact delivered_reportEvents pc
  | flushSink pc => exact delivered_flushSinkEvents me pc
  | _ => rfl

@[simp] theorem fellBack_flushEvents (me : Agent Thread) (pc : FlushPc) :
    fellBack (pc.events me) = [] := by
  cases pc with
  | report pc => exact fellBack_reportEvents pc
  | flushSink pc => exact fellBack_flushSinkEvents me pc
  | _ => rfl

@[simp] theorem delivered_fallbackEvents (t : Thread) (ticket : Ticket)
    (pc : DeliverPc) :
    delivered (pc.events (SinkEvent.fallback t ticket)) = [] := by
  cases pc <;> rfl

@[simp] theorem fellBack_deliverEvents (ticket : Ticket) (pc : DeliverPc) :
    fellBack (pc.events (SinkEvent.deliver ticket) :
      List (SinkEvent Thread)) = [] := by
  cases pc <;> rfl

@[simp] theorem fellBack_workerEvents (pc : WorkerPc) :
    fellBack (pc.events : List (SinkEvent Thread)) = [] := by
  cases pc with
  | deliver ticket drained pc => exact fellBack_deliverEvents ticket pc
  | report drained pc => exact fellBack_reportEvents pc
  | lastReport pc => exact fellBack_reportEvents pc
  | lastFlush pc => exact fellBack_flushSinkEvents Agent.worker pc
  | _ => rfl

/-!
## Handing a record over
-/

/-- `Deliver` has called the wrapped sink. -/
def DeliverPc.handed : DeliverPc -> Bool
  | DeliverPc.countDelivered => true
  | DeliverPc.recordError => true
  | DeliverPc.unlock => true
  | _ => false

theorem deliverStep_handed {me : Agent Thread} {event : SinkEvent Thread}
    {choice : Choice} {s s' : Shared Thread C} {pc : DeliverPc}
    {next : Option DeliverPc} (hsink : C.sinkPresent = true)
    (h : deliverStep me event choice s pc = some (s', next)) :
    next.all DeliverPc.handed = (pc.handed || pc == DeliverPc.write) := by
  cases pc <;> simp only [deliverStep] at h
  case testSink =>
    rw [hsink] at h
    cases h
    rfl
  case lock =>
    split at h
    · cases h
      rfl
    · cases h
  case write =>
    cases h
    split <;> rfl
  all_goals
    cases h
    rfl

def WorkerPc.undelivered : WorkerPc -> List Ticket
  | WorkerPc.deliver ticket _ pc => if pc.handed then [] else [ticket]
  | _ => []

theorem WorkerPc.undelivered_length (pc : WorkerPc) :
    pc.undelivered.length ≤ 1 := by
  cases pc with
  | deliver ticket drained pc =>
      cases hpc : pc.handed <;> simp [WorkerPc.undelivered, hpc]
  | _ => simp [WorkerPc.undelivered]

/-!
## One step

The worker moves records along and neither adds, drops nor reorders any.
-/

theorem enqueueStep_queue [DecidableEq Thread] {t : Thread} {choice : Choice}
    {s s' : Shared Thread C} {ticket : Ticket} {pc : EnqueuePc} {pc' : ClientPc}
    (h : enqueueStep t choice s ticket pc = some (s', pc')) :
    delivered s'.sink = delivered s.sink ∧
      exists inserted,
        s'.queue.contents = s.queue.contents ++ inserted ∧
          s'.history.accepted = s.history.accepted ++ inserted := by
  cases pc <;> simp only [enqueueStep] at h
  case tryEnqueue =>
    split at h
    · rename_i htry
      have hcontents := (MpscBoundedQueue.contents_tryEnqueue htry).1
      cases h
      exact ⟨rfl, [ticket], hcontents, rfl⟩
    · rename_i htry
      have hsame := (MpscBoundedQueue.tryEnqueue_false htry).1
      cases h
      exact ⟨rfl, [], by simp [hsame], by simp⟩
  case notifyFlush pc | notifyFallback pc =>
    rcases Option.map_eq_some_iff.mp h with ⟨⟨s1, next⟩, hstep, hpair⟩
    rcases notifyFlushStep_shape hstep with ⟨_, _, rfl⟩
    cases next <;> cases hpair <;> exact ⟨rfl, [], by simp, by simp⟩
  case deliver pc =>
    rcases Option.map_eq_some_iff.mp h with ⟨⟨s1, next⟩, hstep, hpair⟩
    rcases deliverStep_shape hstep with ⟨_, _, _, _, rfl, rfl⟩
    cases next <;> cases hpair <;> exact ⟨by simp, [], by simp, by simp⟩
  all_goals
    (repeat' split at h) <;> cases h <;>
      exact ⟨rfl, [], by simp, by simp⟩

theorem clientStep_queue [DecidableEq Thread] {t : Thread} {choice : Choice}
    {s s' : Shared Thread C} {pc pc' : ClientPc}
    (h : clientStep t choice s pc = some (s', pc')) :
    delivered s'.sink = delivered s.sink ∧
      exists inserted,
        s'.queue.contents = s.queue.contents ++ inserted ∧
          s'.history.accepted = s.history.accepted ++ inserted := by
  cases pc with
  | idle => cases h
  | enter call record =>
      cases h
      exact ⟨rfl, [], by simp, by simp⟩
  | enqueue ticket pc => exact enqueueStep_queue h
  | drop call timeout holding pc =>
      rcases dropStep_shape h with ⟨⟨_, _, _, _, _, _, _, _, rfl⟩, _⟩
      exact ⟨rfl, [], by simp, by simp⟩
  | flush before pc =>
      rcases flushStep_shape h with ⟨⟨_, _, _, _, _, _, _, _, rfl, rfl⟩, _⟩
      exact ⟨by simp, [], by simp, by simp⟩
  | stats loaded pc =>
      rcases statsStep_shape (Option.some.inj h) with ⟨⟨_, rfl⟩, _⟩
      exact ⟨rfl, [], by simp, by simp⟩

def pipeline (s : Shared Thread C) (worker : WorkerPc) : List Ticket :=
  delivered s.sink ++ worker.undelivered ++ s.queue.contents

theorem pipeline_of_eq {s s' : Shared Thread C} {pc pc' : WorkerPc}
    (hsink : delivered s'.sink = delivered s.sink)
    (hpc : pc'.undelivered = pc.undelivered) (hqueue : s'.queue = s.queue) :
    pipeline s' pc' = pipeline s pc := by
  unfold pipeline
  rw [hsink, hpc, hqueue]

theorem workerStep_pipeline {choice : Choice} {s s' : Shared Thread C}
    {pc pc' : WorkerPc} (hsink : C.sinkPresent = true)
    (h : workerStep choice s pc = some (s', pc')) :
    pipeline s' pc' = pipeline s pc ∧
      s'.history.accepted = s.history.accepted := by
  cases pc <;> simp only [workerStep] at h
  case testRunning =>
    cases h
    exact ⟨pipeline_of_eq rfl (by split <;> rfl) rfl, rfl⟩
  case testEmpty =>
    cases h
    refine ⟨pipeline_of_eq rfl ?_ rfl, rfl⟩
    split
    · exact afterLoop_eq WorkerPc.undelivered rfl rfl
    · rfl
  case dequeue drained =>
    split at h
    · split at h
      · rename_i hdequeue
        have hcontents := (MpscBoundedQueue.contents_tryDequeue hdequeue).1
        cases h
        refine ⟨?_, rfl⟩
        simp [pipeline, WorkerPc.undelivered, DeliverPc.handed, hcontents]
      · rename_i hdequeue
        have hsame := (MpscBoundedQueue.tryDequeue_false hdequeue).1
        cases h
        exact ⟨pipeline_of_eq rfl
          (afterBatch_eq WorkerPc.undelivered rfl rfl) hsame, rfl⟩
    · cases h
      exact ⟨pipeline_of_eq rfl
        (afterBatch_eq WorkerPc.undelivered rfl rfl) rfl, rfl⟩
  case deliver ticket drained pc =>
    rcases Option.map_eq_some_iff.mp h with ⟨⟨s1, next⟩, hstep, hpair⟩
    have hhanded := deliverStep_handed hsink hstep
    rcases deliverStep_shape hstep with ⟨_, _, _, _, rfl, rfl⟩
    -- The record leaves the worker's hand in the step that calls the sink.
    cases hpc : pc <;> subst hpc <;> cases next <;> cases hpair <;>
      refine ⟨?_, rfl⟩ <;>
      simp_all [pipeline, WorkerPc.undelivered, DeliverPc.handed,
        DeliverPc.events, delivered, SinkEvent.deliver?]
  case report drained pc | lastReport pc =>
    rcases Option.map_eq_some_iff.mp h with ⟨⟨s1, next⟩, hstep, hpair⟩
    rcases reportStep_shape hstep with ⟨_, _, _, _, _, rfl, rfl⟩
    cases next <;> cases hpair <;>
      exact ⟨pipeline_of_eq (by simp) rfl rfl, rfl⟩
  case notifyFlush drained pc =>
    rcases Option.map_eq_some_iff.mp h with ⟨⟨s1, next⟩, hstep, hpair⟩
    rcases notifyFlushStep_shape hstep with ⟨_, _, rfl⟩
    cases next <;> cases hpair
    · exact ⟨pipeline_of_eq rfl
        (afterIteration_eq WorkerPc.undelivered rfl rfl) rfl, rfl⟩
    · exact ⟨pipeline_of_eq rfl rfl rfl, rfl⟩
  case lastNotify pc =>
    rcases Option.map_eq_some_iff.mp h with ⟨⟨s1, next⟩, hstep, hpair⟩
    rcases notifyFlushStep_shape hstep with ⟨_, _, rfl⟩
    cases next <;> cases hpair <;> exact ⟨pipeline_of_eq rfl rfl rfl, rfl⟩
  case lastFlush pc =>
    rcases Option.map_eq_some_iff.mp h with ⟨⟨s1, next⟩, hstep, hpair⟩
    rcases flushSinkStep_shape hstep with ⟨_, _, _, rfl, rfl⟩
    cases next <;> cases hpair <;>
      exact ⟨pipeline_of_eq (by simp) rfl rfl, rfl⟩
  case idleRunning expired =>
    cases h
    exact ⟨pipeline_of_eq rfl (by split <;> rfl) rfl, rfl⟩
  all_goals
    (repeat' split at h) <;> cases h <;>
      exact ⟨pipeline_of_eq rfl rfl rfl, rfl⟩

/-!
## Every reachable state
-/

variable [DecidableEq Thread]

theorem reachable_pipeline {s : State Thread C} (hsink : C.sinkPresent = true)
    (h : (asyncSink Thread C).Reachable s) :
    pipeline s.shared s.worker = s.shared.history.accepted := by
  refine Machine.invariant
    (P := fun s => pipeline s.shared s.worker = s.shared.history.accepted)
    rfl (fun s a s' _ hs hstep => ?_) h
  cases a with
  | write t record =>
      rcases State.begin_some hstep with ⟨_, rfl⟩
      exact hs
  | flush t =>
      rcases State.begin_some hstep with ⟨_, rfl⟩
      exact hs
  | getStats t =>
      rcases State.begin_some hstep with ⟨_, rfl⟩
      exact hs
  | client t choice =>
      rcases Option.map_eq_some_iff.mp hstep with ⟨⟨shared, pc⟩, hclient, rfl⟩
      rcases clientStep_queue hclient with
        ⟨hdelivered, inserted, hcontents, haccepted⟩
      simp only [pipeline] at hs ⊢
      rw [hdelivered, hcontents, haccepted, ← hs]
      simp only [List.append_assoc]
  | worker choice =>
      rcases Option.map_eq_some_iff.mp hstep with ⟨⟨shared, pc⟩, hworker, rfl⟩
      rcases workerStep_pipeline hsink hworker with ⟨hpipeline, haccepted⟩
      simp only
      rw [hpipeline, haccepted]
      exact hs
  | owner =>
      rcases Option.map_eq_some_iff.mp hstep with ⟨⟨shared, pc⟩, howner, rfl⟩
      rcases ownerStep_shape howner with ⟨_, _, _, rfl⟩
      exact hs

end Async
end NginLog
