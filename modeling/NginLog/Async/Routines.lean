import NginLog.Async.Machine
import NginLog.Foundation.Mutex

/-!
# What the shared routines change

One lemma for each routine says which members a step of it may change, and one
for each routine that takes the delivery mutex says that it keeps to the lock
discipline.  Proofs about the clients and the worker use these lemmas and never
open a routine again.
-/

namespace NginLog
namespace Async

open Foundation

variable {Thread : Type} {C : AsyncSinkConfig}

theorem notifyFlushStep_shape {me : Agent Thread} {s s' : Shared Thread C}
    {pc : NotifyPc} {next : Option NotifyPc}
    (h : notifyFlushStep me s pc = some (s', next)) :
    exists mutex sleepers,
      s' = { s with flushMutex := mutex, flushSleepers := sleepers } := by
  cases pc <;> simp only [notifyFlushStep] at h
  case lock =>
    split at h
    · cases h
      exact ⟨_, _, rfl⟩
    · cases h
  all_goals
    cases h
    exact ⟨_, _, rfl⟩

def DeliverPc.events (event : SinkEvent Thread) :
    DeliverPc -> List (SinkEvent Thread)
  | DeliverPc.write => [event]
  | _ => []

def ReportPc.events : ReportPc -> List (SinkEvent Thread)
  | ReportPc.write dropped calls =>
      [SinkEvent.report dropped (dropReportMessage dropped) calls]
  | _ => []

def FlushSinkPc.events (me : Agent Thread) :
    FlushSinkPc -> List (SinkEvent Thread)
  | FlushSinkPc.flush => [SinkEvent.flush me]
  | _ => []

theorem deliverStep_shape {me : Agent Thread} {event : SinkEvent Thread}
    {choice : Choice} {s s' : Shared Thread C} {pc : DeliverPc}
    {next : Option DeliverPc}
    (h : deliverStep me event choice s pc = some (s', next)) :
    exists mutex delivered errors sink,
      s' = { s with
        deliveryMutex := mutex
        totalDelivered := delivered
        errorCount := errors
        sink := sink } ∧
      sink = s.sink ++ pc.events event := by
  cases pc <;> simp only [deliverStep] at h
  case lock =>
    split at h
    · cases h
      exact ⟨_, _, _, _, rfl, (List.append_nil _).symm⟩
    · cases h
  case write =>
    cases h
    exact ⟨_, _, _, _, rfl, rfl⟩
  all_goals
    cases h
    exact ⟨_, _, _, _, rfl, (List.append_nil _).symm⟩

theorem reportStep_shape {me : Agent Thread} {choice : Choice}
    {s s' : Shared Thread C} {pc : ReportPc} {next : Option ReportPc}
    (h : reportStep me choice s pc = some (s', next)) :
    exists mutex unreportedDropped unreported errors sink,
      s' = { s with
        deliveryMutex := mutex
        unreportedDropped := unreportedDropped
        errorCount := errors
        sink := sink
        history := { s.history with unreported := unreported } } ∧
      sink = s.sink ++ pc.events := by
  cases pc <;> simp only [reportStep] at h
  case lock =>
    split at h
    · cases h
      exact ⟨_, _, _, _, _, rfl, (List.append_nil _).symm⟩
    · cases h
  case write =>
    cases h
    exact ⟨_, _, _, _, _, rfl, rfl⟩
  all_goals
    cases h
    exact ⟨_, _, _, _, _, rfl, (List.append_nil _).symm⟩

theorem flushSinkStep_shape {me : Agent Thread} {choice : Choice}
    {s s' : Shared Thread C} {pc : FlushSinkPc} {next : Option FlushSinkPc}
    (h : flushSinkStep me choice s pc = some (s', next)) :
    exists mutex errors sink,
      s' = { s with
        deliveryMutex := mutex
        errorCount := errors
        sink := sink } ∧
      sink = s.sink ++ pc.events me := by
  cases pc <;> simp only [flushSinkStep] at h
  case lock =>
    split at h
    · cases h
      exact ⟨_, _, _, rfl, (List.append_nil _).symm⟩
    · cases h
  case flush =>
    cases h
    exact ⟨_, _, _, rfl, rfl⟩
  all_goals
    cases h
    exact ⟨_, _, _, rfl, (List.append_nil _).symm⟩

/-!
## The delivery mutex
-/

def DeliverPc.holds : DeliverPc -> Bool
  | DeliverPc.testSink | DeliverPc.lock => false
  | _ => true

def ReportPc.holds : ReportPc -> Bool
  | ReportPc.lock => false
  | _ => true

def FlushSinkPc.holds : FlushSinkPc -> Bool
  | FlushSinkPc.testSink | FlushSinkPc.lock => false
  | _ => true

theorem deliverStep_lockStep {me : Agent Thread} {event : SinkEvent Thread}
    {choice : Choice} {s s' : Shared Thread C} {pc : DeliverPc}
    {next : Option DeliverPc}
    (h : deliverStep me event choice s pc = some (s', next)) :
    LockStep me pc.holds (next.any DeliverPc.holds)
      s.deliveryMutex s'.deliveryMutex := by
  cases pc <;> simp only [deliverStep] at h
  case lock =>
    split at h
    · rename_i hfree
      cases h
      exact LockStep.of_free hfree
    · cases h
  case unlock =>
    cases h
    exact LockStep.release
  case testSink =>
    cases h
    split <;> exact LockStep.keep
  case write =>
    cases h
    split <;> exact LockStep.keep
  all_goals
    cases h
    exact LockStep.keep

theorem reportStep_lockStep {me : Agent Thread} {choice : Choice}
    {s s' : Shared Thread C} {pc : ReportPc} {next : Option ReportPc}
    (h : reportStep me choice s pc = some (s', next)) :
    LockStep me pc.holds (next.any ReportPc.holds)
      s.deliveryMutex s'.deliveryMutex := by
  cases pc <;> simp only [reportStep] at h
  case lock =>
    split at h
    · rename_i hfree
      cases h
      exact LockStep.of_free hfree
    · cases h
  case unlock =>
    cases h
    exact LockStep.release
  case exchange =>
    cases h
    split <;> exact LockStep.keep
  case write =>
    cases h
    split <;> exact LockStep.keep
  case recordError =>
    cases h
    exact LockStep.keep

theorem flushSinkStep_lockStep {me : Agent Thread} {choice : Choice}
    {s s' : Shared Thread C} {pc : FlushSinkPc} {next : Option FlushSinkPc}
    (h : flushSinkStep me choice s pc = some (s', next)) :
    LockStep me pc.holds (next.any FlushSinkPc.holds)
      s.deliveryMutex s'.deliveryMutex := by
  cases pc <;> simp only [flushSinkStep] at h
  case lock =>
    split at h
    · rename_i hfree
      cases h
      exact LockStep.of_free hfree
    · cases h
  case unlock =>
    cases h
    exact LockStep.release
  case testSink =>
    cases h
    split <;> exact LockStep.keep
  case flush =>
    cases h
    split <;> exact LockStep.keep
  case recordError =>
    cases h
    exact LockStep.keep

/-!
## Calls that stay away from the queue

Counting a drop, flushing and reading the statistics touch few members, and
leave the call only to return.
-/

theorem dropStep_shape {s s' : Shared Thread C} {call : Nat}
    {timeout holding : Bool} {pc : DropPc} {pc' : ClientPc}
    (h : dropStep s call timeout holding pc = some (s', pc')) :
    (exists mutex total unreportedDropped timeouts dropped reportable unreported
        returned,
      s' = { s with
        spaceMutex := mutex
        totalDropped := total
        unreportedDropped := unreportedDropped
        timeoutDropped := timeouts
        history := { s.history with
          dropped := dropped
          reportable := reportable
          unreported := unreported
          returned := returned } }) ∧
      (pc' = ClientPc.idle ∨
        exists next, pc' = ClientPc.drop call timeout holding next) := by
  cases pc <;> simp only [dropStep] at h
  all_goals
    (repeat' split at h) <;> cases h <;>
      refine ⟨⟨_, _, _, _, _, _, _, _, rfl⟩, ?_⟩ <;>
      first
        | exact Or.inl rfl
        | exact Or.inr ⟨_, rfl⟩

theorem statsStep_shape {s s' : Shared Thread C} {loaded : AsyncSinkStats}
    {pc : StatsPc} {pc' : ClientPc}
    (h : statsStep s loaded pc = (s', pc')) :
    (exists snapshots,
      s' = { s with history := { s.history with snapshots := snapshots } }) ∧
      (pc' = ClientPc.idle ∨
        exists loaded' next, pc' = ClientPc.stats loaded' next) := by
  cases pc <;> cases h <;> refine ⟨⟨_, rfl⟩, ?_⟩ <;>
    first
      | exact Or.inl rfl
      | exact Or.inr ⟨_, _, rfl⟩

def FlushPc.events (me : Agent Thread) : FlushPc -> List (SinkEvent Thread)
  | FlushPc.report pc => pc.events
  | FlushPc.flushSink pc => pc.events me
  | _ => []

theorem flushStep_shape [DecidableEq Thread] {t : Thread} {choice : Choice}
    {s s' : Shared Thread C} {before : List Nat} {pc : FlushPc} {pc' : ClientPc}
    (h : flushStep t choice s before pc = some (s', pc')) :
    (exists mutex sleepers delivery unreportedDropped unreported errors flushed
        sink,
      s' = { s with
        flushMutex := mutex
        flushSleepers := sleepers
        deliveryMutex := delivery
        unreportedDropped := unreportedDropped
        errorCount := errors
        sink := sink
        history := { s.history with
          unreported := unreported
          flushed := flushed } } ∧
      sink = s.sink ++ pc.events (Agent.client t)) ∧
      (pc' = ClientPc.idle ∨ exists next, pc' = ClientPc.flush before next) := by
  cases pc <;> simp only [flushStep] at h
  case report pc =>
    rcases Option.map_eq_some_iff.mp h with ⟨⟨s1, next⟩, hstep, hpair⟩
    rcases reportStep_shape hstep with ⟨_, _, _, _, _, rfl, hsink⟩
    cases next <;> cases hpair <;>
      exact ⟨⟨_, _, _, _, _, _, _, _, rfl, hsink⟩, Or.inr ⟨_, rfl⟩⟩
  case flushSink pc =>
    rcases Option.map_eq_some_iff.mp h with ⟨⟨s1, next⟩, hstep, hpair⟩
    rcases flushSinkStep_shape hstep with ⟨_, _, _, rfl, hsink⟩
    cases next <;> cases hpair
    · exact ⟨⟨_, _, _, _, _, _, _, _, rfl, hsink⟩, Or.inl rfl⟩
    · exact ⟨⟨_, _, _, _, _, _, _, _, rfl, hsink⟩, Or.inr ⟨_, rfl⟩⟩
  all_goals
    (repeat' split at h) <;> cases h <;>
      exact ⟨⟨_, _, _, _, _, _, _, _, rfl, (List.append_nil _).symm⟩,
        Or.inr ⟨_, rfl⟩⟩

/-!
## Where a routine goes on

A function of the program points that agrees on the possible continuations has
the same value at the one that is taken.
-/

section

variable {alpha : Type} {a : alpha}

theorem enqueueEntry_eq (f : ClientPc -> alpha) {policy : AsyncOverflowPolicy}
    {ticket : Ticket}
    (hloop : f (ClientPc.enqueue ticket EnqueuePc.loopRunning) = a)
    (hadd : f (ClientPc.enqueue ticket EnqueuePc.addOutstanding) = a) :
    f (ClientPc.enqueue ticket (enqueueEntry policy)) = a := by
  cases policy with
  | dropNewest => exact hadd
  | block => exact hloop
  | blockForTimeout => exact hloop
  | syncFallback => exact hadd

theorem afterRejection_eq (f : ClientPc -> alpha)
    {policy : AsyncOverflowPolicy} {ticket : Ticket}
    (hdrop : f (ClientPc.drop ticket.call false false DropPc.total) = a)
    (hlock : f (ClientPc.enqueue ticket EnqueuePc.lockSpace) = a)
    (hfallback : f (ClientPc.enqueue ticket EnqueuePc.addFallback) = a) :
    f (afterRejection policy ticket) = a := by
  cases policy with
  | dropNewest => exact hdrop
  | block => exact hlock
  | blockForTimeout => exact hlock
  | syncFallback => exact hfallback

theorem afterBatch_eq (f : WorkerPc -> alpha) {drained : Nat}
    (hreport : f (WorkerPc.report drained ReportPc.lock) = a)
    (hnotify : f (WorkerPc.notifyFlush drained NotifyPc.loadOutstanding) = a) :
    f (afterBatch C drained) = a := by
  unfold afterBatch
  split
  · exact hreport
  · exact hnotify

theorem afterIteration_eq (f : WorkerPc -> alpha) {drained : Nat}
    (hidle : f (WorkerPc.idleRunning false) = a)
    (htest : f WorkerPc.testRunning = a) :
    f (afterIteration drained) = a := by
  unfold afterIteration
  split
  · exact hidle
  · exact htest

theorem afterLoop_eq (f : WorkerPc -> alpha)
    (hreport : f (WorkerPc.lastReport ReportPc.lock) = a)
    (hflush : f (WorkerPc.lastFlush FlushSinkPc.testSink) = a) :
    f (afterLoop C) = a := by
  unfold afterLoop
  split
  · exact hreport
  · exact hflush

end

/-!
## The worker, the owner and the beginning of a call
-/

def WorkerPc.events : WorkerPc -> List (SinkEvent Thread)
  | WorkerPc.deliver ticket _ pc => pc.events (SinkEvent.deliver ticket)
  | WorkerPc.report _ pc => pc.events
  | WorkerPc.lastReport pc => pc.events
  | WorkerPc.lastFlush pc => pc.events Agent.worker
  | _ => []

theorem workerStep_shape {choice : Choice} {s s' : Shared Thread C}
    {pc pc' : WorkerPc} (h : workerStep choice s pc = some (s', pc')) :
    exists queue asleep spaceSleepers delivery delivered errors
        unreportedDropped outstanding mutex flushSleepers sink unreported,
      s' = { s with
        queue := queue
        workerAsleep := asleep
        spaceSleepers := spaceSleepers
        deliveryMutex := delivery
        totalDelivered := delivered
        errorCount := errors
        unreportedDropped := unreportedDropped
        outstanding := outstanding
        flushMutex := mutex
        flushSleepers := flushSleepers
        sink := sink
        history := { s.history with unreported := unreported } } ∧
      sink = s.sink ++ pc.events := by
  cases pc <;> simp only [workerStep] at h
  case deliver ticket drained pc =>
    rcases Option.map_eq_some_iff.mp h with ⟨⟨s1, next⟩, hstep, hpair⟩
    rcases deliverStep_shape hstep with ⟨_, _, _, _, rfl, hsink⟩
    cases hpair
    exact ⟨_, _, _, _, _, _, _, _, _, _, _, _, rfl, hsink⟩
  case report drained pc | lastReport pc =>
    rcases Option.map_eq_some_iff.mp h with ⟨⟨s1, next⟩, hstep, hpair⟩
    rcases reportStep_shape hstep with ⟨_, _, _, _, _, rfl, hsink⟩
    cases hpair
    exact ⟨_, _, _, _, _, _, _, _, _, _, _, _, rfl, hsink⟩
  case notifyFlush drained pc | lastNotify pc =>
    rcases Option.map_eq_some_iff.mp h with ⟨⟨s1, next⟩, hstep, hpair⟩
    rcases notifyFlushStep_shape hstep with ⟨_, _, rfl⟩
    cases hpair
    exact ⟨_, _, _, _, _, _, _, _, _, _, _, _, rfl,
      (List.append_nil _).symm⟩
  case lastFlush pc =>
    rcases Option.map_eq_some_iff.mp h with ⟨⟨s1, next⟩, hstep, hpair⟩
    rcases flushSinkStep_shape hstep with ⟨_, _, _, rfl, hsink⟩
    cases hpair
    exact ⟨_, _, _, _, _, _, _, _, _, _, _, _, rfl, hsink⟩
  all_goals
    (repeat' split at h) <;> cases h <;>
      exact ⟨_, _, _, _, _, _, _, _, _, _, _, _, rfl,
        (List.append_nil _).symm⟩

theorem ownerStep_shape {s s' : Shared Thread C} {worker : WorkerPc}
    {pc pc' : OwnerPc} (h : ownerStep s worker pc = some (s', pc')) :
    exists running asleep sleepers,
      s' = { s with
        running := running
        workerAsleep := asleep
        spaceSleepers := sleepers } := by
  cases pc <;> simp only [ownerStep] at h
  case join =>
    split at h
    · cases h
      exact ⟨_, _, _, rfl⟩
    · cases h
  case destroyed => cases h
  all_goals
    cases h
    exact ⟨_, _, _, rfl⟩

theorem State.begin_some [DecidableEq Thread]
    {s s' : State Thread C} {t : Thread}
    {shared : Shared Thread C} {pc : ClientPc}
    (h : s.begin t shared pc = some s') :
    s.client t = ClientPc.idle ∧
      s' = { s with
        shared := shared
        client := Function.update s.client t pc } := by
  unfold State.begin at h
  split at h
  · rename_i hidle
    cases h
    exact ⟨hidle, rfl⟩
  · cases h

/-!
## Critical sections
-/

def State.inside (client : ClientPc -> Bool) (worker : WorkerPc -> Bool)
    (s : State Thread C) : Agent Thread -> Bool
  | Agent.worker => worker s.worker
  | Agent.client t => client (s.client t)

/-- Every thread keeps to the lock discipline of one of the mutexes. -/
structure Disciplined [DecidableEq Thread]
    (mutex : Shared Thread C -> Option (Agent Thread))
    (client : ClientPc -> Bool) (worker : WorkerPc -> Bool) : Prop where
  idle : client ClientPc.idle = false
  enter : forall call record, client (ClientPc.enter call record) = false
  flush : forall before, client (ClientPc.flush before FlushPc.lock) = false
  stats : forall loaded,
    client (ClientPc.stats loaded StatsPc.loadEnqueued) = false
  testRunning : worker WorkerPc.testRunning = false
  /-- The mutex is neither auxiliary nor touched by the destructor. -/
  frame : forall s history running asleep sleepers,
    mutex { s with
      history := history
      running := running
      workerAsleep := asleep
      spaceSleepers := sleepers } = mutex s
  clientStep : forall t choice s s' pc pc',
    clientStep t choice s pc = some (s', pc') ->
      LockStep (Agent.client t) (client pc) (client pc') (mutex s) (mutex s')
  workerStep : forall choice s s' pc pc',
    workerStep choice s pc = some (s', pc') ->
      LockStep Agent.worker (worker pc) (worker pc') (mutex s) (mutex s')

theorem Disciplined.reachable_keeps [DecidableEq Thread]
    {mutex : Shared Thread C -> Option (Agent Thread)}
    {client : ClientPc -> Bool} {worker : WorkerPc -> Bool}
    (hmutex : Disciplined mutex client worker)
    {P : (Agent Thread -> Bool) -> Option (Agent Thread) -> Prop}
    (hinit : P (State.inside client worker ({} : State Thread C)) (mutex {}))
    (hkeep : forall held held' owner owner' me, P held owner ->
      LockStep me (held me) (held' me) owner owner' ->
      (forall a, a ≠ me -> held' a = held a) -> P held' owner')
    {s : State Thread C} (h : (asyncSink Thread C).Reachable s) :
    P (s.inside client worker) (mutex s.shared) := by
  refine Machine.invariant
    (P := fun s => P (s.inside client worker) (mutex s.shared))
    hinit (fun s a s' _ hs hstep => ?_) h
  -- A client that moves leaves everybody else where they are.
  have hclient : forall {t : Thread} {shared : Shared Thread C} {pc : ClientPc},
      LockStep (Agent.client t) (client (s.client t)) (client pc)
        (mutex s.shared) (mutex shared) ->
      P
        (State.inside client worker
          { s with
            shared := shared
            client := Function.update s.client t pc })
        (mutex shared) := by
    intro t shared pc hlock
    apply hkeep _ _ _ _ (Agent.client t) hs
    · simpa [State.inside] using hlock
    · rintro (_ | t') ht'
      · rfl
      · have hne : t' ≠ t := fun heq => ht' (congrArg Agent.client heq)
        simp [State.inside, hne]
  have hbegin : forall {t : Thread} {shared : Shared Thread C} {pc : ClientPc},
      s.client t = ClientPc.idle -> client pc = false ->
      mutex shared = mutex s.shared ->
      P
        (State.inside client worker
          { s with
            shared := shared
            client := Function.update s.client t pc })
        (mutex shared) := by
    intro t shared pc hidle hpc hsame
    apply hclient
    apply LockStep.of_eq _ hsame
    rw [hidle, hmutex.idle, hpc]
  cases a with
  | write t record =>
      rcases State.begin_some hstep with ⟨hidle, rfl⟩
      exact hbegin hidle (hmutex.enter _ _) (hmutex.frame s.shared _ _ _ _)
  | flush t =>
      rcases State.begin_some hstep with ⟨hidle, rfl⟩
      exact hbegin hidle (hmutex.flush _) rfl
  | getStats t =>
      rcases State.begin_some hstep with ⟨hidle, rfl⟩
      exact hbegin hidle (hmutex.stats _) rfl
  | client t choice =>
      rcases Option.map_eq_some_iff.mp hstep with ⟨⟨shared, pc⟩, hmove, rfl⟩
      exact hclient (hmutex.clientStep _ _ _ _ _ _ hmove)
  | worker choice =>
      rcases Option.map_eq_some_iff.mp hstep with ⟨⟨shared, pc⟩, hmove, rfl⟩
      apply hkeep _ _ _ _ Agent.worker hs
      · exact hmutex.workerStep _ _ _ _ _ hmove
      · rintro (_ | t') ht'
        · exact absurd rfl ht'
        · rfl
  | owner =>
      rcases Option.map_eq_some_iff.mp hstep with ⟨⟨shared, pc⟩, howner, rfl⟩
      rcases ownerStep_shape howner with ⟨running, asleep, sleepers, rfl⟩
      have hsame := hmutex.frame s.shared s.shared.history running asleep sleepers
      simp only [hsame]
      exact hs

theorem Disciplined.inside_init [DecidableEq Thread]
    {mutex : Shared Thread C -> Option (Agent Thread)}
    {client : ClientPc -> Bool} {worker : WorkerPc -> Bool}
    (hmutex : Disciplined mutex client worker) (a : Agent Thread) :
    State.inside client worker ({} : State Thread C) a = false := by
  cases a with
  | worker => exact hmutex.testRunning
  | client t => exact hmutex.idle

theorem Disciplined.reachable_exclusive [DecidableEq Thread]
    {mutex : Shared Thread C -> Option (Agent Thread)}
    {client : ClientPc -> Bool} {worker : WorkerPc -> Bool}
    (hmutex : Disciplined mutex client worker) {s : State Thread C}
    (h : (asyncSink Thread C).Reachable s) :
    Exclusive (s.inside client worker) (mutex s.shared) := by
  apply hmutex.reachable_keeps (P := Exclusive) _ _ h
  · intro agent hagent
    rw [hmutex.inside_init] at hagent
    cases hagent
  · exact fun _ _ _ _ me hs hlock hothers => hs.step me hlock hothers

theorem Disciplined.reachable_manned [DecidableEq Thread]
    {mutex : Shared Thread C -> Option (Agent Thread)}
    {client : ClientPc -> Bool} {worker : WorkerPc -> Bool}
    (hmutex : Disciplined mutex client worker)
    (hfree : mutex {} = none) {s : State Thread C}
    (h : (asyncSink Thread C).Reachable s) :
    Manned (s.inside client worker) (mutex s.shared) := by
  apply hmutex.reachable_keeps (P := Manned) _ _ h
  · intro agent hagent
    rw [hfree] at hagent
    cases hagent
  · exact fun _ _ _ _ me hs hlock hothers => hs.step me hlock hothers

end Async
end NginLog
