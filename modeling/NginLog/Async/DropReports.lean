import NginLog.Async.Fifo
import NginLog.Foundation.Mutex

/-!
# Drop reports and the delivery mutex

A drop is counted in `m_unreportedDropped`; later some thread takes the counter
and announces the number to the wrapped sink, both under the delivery mutex.
Between the two the drops are in that thread's hand.  No drop is lost on the
way, and a thread that holds the mutex knows that no other thread has drops in
its hand.
-/

namespace NginLog
namespace Async

open Foundation

variable {Thread : Type} {C : AsyncSinkConfig}

/-!
## Who holds the delivery mutex
-/

def ClientPc.holdsDelivery : ClientPc -> Bool
  | ClientPc.enqueue _ (EnqueuePc.deliver pc) => pc.holds
  | ClientPc.flush _ (FlushPc.report pc) => pc.holds
  | ClientPc.flush _ (FlushPc.flushSink pc) => pc.holds
  | _ => false

def WorkerPc.holdsDelivery : WorkerPc -> Bool
  | WorkerPc.deliver _ _ pc => pc.holds
  | WorkerPc.report _ pc => pc.holds
  | WorkerPc.lastReport pc => pc.holds
  | WorkerPc.lastFlush pc => pc.holds
  | _ => false

def State.holdsDelivery (s : State Thread C) : Agent Thread -> Bool
  | Agent.worker => s.worker.holdsDelivery
  | Agent.client t => (s.client t).holdsDelivery

section

variable [DecidableEq Thread]

theorem enqueueStep_lockStep {t : Thread} {choice : Choice}
    {s s' : Shared Thread C} {ticket : Ticket} {pc : EnqueuePc} {pc' : ClientPc}
    (h : enqueueStep t choice s ticket pc = some (s', pc')) :
    LockStep (Agent.client t) (ClientPc.enqueue ticket pc).holdsDelivery
      pc'.holdsDelivery s.deliveryMutex s'.deliveryMutex := by
  cases pc <;> simp only [enqueueStep] at h
  case notifyFlush pc =>
    rcases Option.map_eq_some_iff.mp h with ⟨⟨s1, next⟩, hstep, hpair⟩
    rcases notifyFlushStep_shape hstep with ⟨_, _, rfl⟩
    cases next <;> cases hpair
    · exact LockStep.of_eq
        (afterRejection_eq ClientPc.holdsDelivery rfl rfl rfl) rfl
    · exact LockStep.keep
  case deliver pc =>
    rcases Option.map_eq_some_iff.mp h with ⟨⟨s1, next⟩, hstep, hpair⟩
    have hlock := deliverStep_lockStep hstep
    cases next <;> cases hpair <;> exact hlock
  case notifyFallback pc =>
    rcases Option.map_eq_some_iff.mp h with ⟨⟨s1, next⟩, hstep, hpair⟩
    rcases notifyFlushStep_shape hstep with ⟨_, _, rfl⟩
    cases next <;> cases hpair <;> exact LockStep.keep
  all_goals
    (repeat' split at h) <;> cases h <;> exact LockStep.keep

theorem flushStep_lockStep {t : Thread} {choice : Choice}
    {s s' : Shared Thread C} {before : List Nat} {pc : FlushPc} {pc' : ClientPc}
    (h : flushStep t choice s before pc = some (s', pc')) :
    LockStep (Agent.client t) (ClientPc.flush before pc).holdsDelivery
      pc'.holdsDelivery s.deliveryMutex s'.deliveryMutex := by
  cases pc <;> simp only [flushStep] at h
  case report pc =>
    rcases Option.map_eq_some_iff.mp h with ⟨⟨s1, next⟩, hstep, hpair⟩
    have hlock := reportStep_lockStep hstep
    cases next <;> cases hpair <;> exact hlock
  case flushSink pc =>
    rcases Option.map_eq_some_iff.mp h with ⟨⟨s1, next⟩, hstep, hpair⟩
    have hlock := flushSinkStep_lockStep hstep
    cases next <;> cases hpair <;> exact hlock
  case testOutstanding =>
    cases h
    split <;> exact LockStep.keep
  case testEmpty =>
    cases h
    split <;> exact LockStep.keep
  case unlock =>
    cases h
    split <;> exact LockStep.keep
  case sleep =>
    cases h
    exact LockStep.keep
  all_goals
    split at h <;> cases h
    exact LockStep.keep

theorem clientStep_lockStep {t : Thread} {choice : Choice}
    {s s' : Shared Thread C} {pc pc' : ClientPc}
    (h : clientStep t choice s pc = some (s', pc')) :
    LockStep (Agent.client t) pc.holdsDelivery pc'.holdsDelivery
      s.deliveryMutex s'.deliveryMutex := by
  cases pc with
  | idle => cases h
  | enter call record =>
      cases h
      apply LockStep.of_eq _ rfl
      split
      · exact enqueueEntry_eq ClientPc.holdsDelivery rfl rfl
      · rfl
  | enqueue ticket pc => exact enqueueStep_lockStep h
  | drop call timeout holding pc =>
      rcases dropStep_shape h with ⟨⟨_, _, _, _, _, _, _, _, rfl⟩, hpc⟩
      rcases hpc with rfl | ⟨_, rfl⟩ <;> exact LockStep.keep
  | flush before pc => exact flushStep_lockStep h
  | stats loaded pc =>
      rcases statsStep_shape (Option.some.inj h) with ⟨⟨_, rfl⟩, hpc⟩
      rcases hpc with rfl | ⟨_, _, rfl⟩ <;> exact LockStep.keep

end

theorem workerStep_lockStep {choice : Choice} {s s' : Shared Thread C}
    {pc pc' : WorkerPc} (h : workerStep choice s pc = some (s', pc')) :
    LockStep Agent.worker pc.holdsDelivery pc'.holdsDelivery
      s.deliveryMutex s'.deliveryMutex := by
  cases pc <;> simp only [workerStep] at h
  case testRunning =>
    cases h
    split <;> exact LockStep.keep
  case testEmpty =>
    cases h
    split
    · exact LockStep.of_eq (afterLoop_eq WorkerPc.holdsDelivery rfl rfl) rfl
    · exact LockStep.keep
  case dequeue drained =>
    (repeat' split at h) <;> cases h
    · exact LockStep.keep
    · exact LockStep.of_eq (afterBatch_eq WorkerPc.holdsDelivery rfl rfl) rfl
    · exact LockStep.of_eq (afterBatch_eq WorkerPc.holdsDelivery rfl rfl) rfl
  case deliver ticket drained pc =>
    rcases Option.map_eq_some_iff.mp h with ⟨⟨s1, next⟩, hstep, hpair⟩
    have hlock := deliverStep_lockStep hstep
    cases next <;> cases hpair <;> exact hlock
  case report drained pc | lastReport pc =>
    rcases Option.map_eq_some_iff.mp h with ⟨⟨s1, next⟩, hstep, hpair⟩
    have hlock := reportStep_lockStep hstep
    cases next <;> cases hpair <;> exact hlock
  case notifyFlush drained pc =>
    rcases Option.map_eq_some_iff.mp h with ⟨⟨s1, next⟩, hstep, hpair⟩
    rcases notifyFlushStep_shape hstep with ⟨_, _, rfl⟩
    cases next <;> cases hpair
    · exact LockStep.of_eq
        (afterIteration_eq WorkerPc.holdsDelivery rfl rfl) rfl
    · exact LockStep.keep
  case lastNotify pc =>
    rcases Option.map_eq_some_iff.mp h with ⟨⟨s1, next⟩, hstep, hpair⟩
    rcases notifyFlushStep_shape hstep with ⟨_, _, rfl⟩
    cases next <;> cases hpair <;> exact LockStep.keep
  case lastFlush pc =>
    rcases Option.map_eq_some_iff.mp h with ⟨⟨s1, next⟩, hstep, hpair⟩
    have hlock := flushSinkStep_lockStep hstep
    cases next <;> cases hpair <;> exact hlock
  case idleRunning expired =>
    cases h
    split <;> exact LockStep.keep
  all_goals
    (repeat' split at h) <;> cases h <;> exact LockStep.keep

theorem disciplined_delivery [DecidableEq Thread] :
    Disciplined (fun s : Shared Thread C => s.deliveryMutex)
      ClientPc.holdsDelivery WorkerPc.holdsDelivery where
  idle := rfl
  enter := fun _ _ => rfl
  flush := fun _ => rfl
  stats := fun _ => rfl
  testRunning := rfl
  frame := fun _ _ _ _ _ => rfl
  clientStep := fun _ _ _ _ _ _ h => clientStep_lockStep h
  workerStep := fun _ _ _ _ _ h => workerStep_lockStep h

theorem reachable_exclusive [DecidableEq Thread] {s : State Thread C}
    (h : (asyncSink Thread C).Reachable s) :
    Exclusive s.holdsDelivery s.shared.deliveryMutex := by
  intro agent hagent
  apply disciplined_delivery.reachable_exclusive h agent
  cases agent <;> exact hagent

/-!
## Where a counted drop is
-/

def SinkEvent.announces : SinkEvent Thread -> List Nat
  | SinkEvent.report _ _ calls => calls
  | _ => []

def announced (sink : List (SinkEvent Thread)) : List Nat :=
  sink.flatMap SinkEvent.announces

@[simp] theorem announced_append (sink events : List (SinkEvent Thread)) :
    announced (sink ++ events) = announced sink ++ announced events :=
  List.flatMap_append

/-- The drops that a thread has taken and not yet announced. -/
def ReportPc.inHand : ReportPc -> List Nat
  | ReportPc.write _ calls => calls
  | _ => []

def ClientPc.inHand : ClientPc -> List Nat
  | ClientPc.flush _ (FlushPc.report pc) => pc.inHand
  | _ => []

def WorkerPc.inHand : WorkerPc -> List Nat
  | WorkerPc.report _ pc => pc.inHand
  | WorkerPc.lastReport pc => pc.inHand
  | _ => []

def State.inHand (s : State Thread C) : Agent Thread -> List Nat
  | Agent.worker => s.worker.inHand
  | Agent.client t => (s.client t).inHand

theorem ReportPc.holds_of_inHand {pc : ReportPc} {call : Nat}
    (h : call ∈ pc.inHand) :
    pc.holds = true := by
  cases pc with
  | write dropped calls => rfl
  | _ => cases h

theorem State.holdsDelivery_of_inHand {s : State Thread C}
    {agent : Agent Thread} {call : Nat} (h : call ∈ s.inHand agent) :
    s.holdsDelivery agent = true := by
  cases agent with
  | worker =>
      simp only [State.inHand, State.holdsDelivery] at h ⊢
      cases hpc : s.worker <;> rw [hpc] at h <;>
        first
          | exact ReportPc.holds_of_inHand h
          | cases h
  | client t =>
      simp only [State.inHand, State.holdsDelivery] at h ⊢
      cases hpc : s.client t with
      | flush before pc =>
          rw [hpc] at h
          cases pc with
          | report pc => exact ReportPc.holds_of_inHand h
          | _ => cases h
      | _ =>
          rw [hpc] at h
          cases h

def CountsUnreported (s : Shared Thread C) : Prop :=
  s.unreportedDropped = s.history.unreported.length

def Traced (s : Shared Thread C) (hand : List Nat) (call : Nat) : Prop :=
  call ∈ s.history.unreported ∨ call ∈ announced s.sink ∨ call ∈ hand

/-- What a step may do to the drops, the stepping thread's hand included. -/
structure ReportStep (s s' : Shared Thread C) (hand hand' : List Nat) :
    Prop where
  sink : exists events, s'.sink = s.sink ++ events
  counts : CountsUnreported s -> CountsUnreported s'
  traced : CountsUnreported s -> forall call,
    Traced s hand call -> Traced s' hand' call
  reportable : forall call, call ∈ s'.history.reportable ->
    call ∈ s.history.reportable ∨ call ∈ s'.history.unreported

theorem ReportStep.of_same {s s' : Shared Thread C} {hand hand' : List Nat}
    {events : List (SinkEvent Thread)}
    (hcounter : s'.unreportedDropped = s.unreportedDropped)
    (hunreported : s'.history.unreported = s.history.unreported)
    (hreportable : s'.history.reportable = s.history.reportable)
    (hsink : s'.sink = s.sink ++ events)
    (hhand : forall call, call ∈ hand -> call ∈ announced events ∨ call ∈ hand') :
    ReportStep s s' hand hand' where
  sink := ⟨events, hsink⟩
  counts := by
    unfold CountsUnreported
    rw [hcounter, hunreported]
    exact id
  traced := by
    intro _ call hcall
    unfold Traced at hcall ⊢
    rw [hunreported, hsink, announced_append, List.mem_append]
    rcases hcall with hcall | hcall | hcall
    · exact Or.inl hcall
    · exact Or.inr (Or.inl (Or.inl hcall))
    · rcases hhand call hcall with hevent | hkept
      · exact Or.inr (Or.inl (Or.inr hevent))
      · exact Or.inr (Or.inr hkept)
  reportable := fun call hcall => Or.inl (hreportable ▸ hcall)

theorem ReportStep.of_quiet {s s' : Shared Thread C} {hand hand' : List Nat}
    (hcounter : s'.unreportedDropped = s.unreportedDropped)
    (hunreported : s'.history.unreported = s.history.unreported)
    (hreportable : s'.history.reportable = s.history.reportable)
    (hsink : s'.sink = s.sink)
    (hhand : forall call, call ∈ hand -> call ∈ hand') :
    ReportStep s s' hand hand' :=
  ReportStep.of_same hcounter hunreported hreportable
    (show s'.sink = s.sink ++ [] by rw [hsink, List.append_nil])
    (fun call hcall => Or.inr (hhand call hcall))

theorem reportStep_reports {me : Agent Thread} {choice : Choice}
    {s s' : Shared Thread C} {pc : ReportPc} {next : Option ReportPc}
    (hsink : C.sinkPresent = true)
    (h : reportStep me choice s pc = some (s', next)) :
    ReportStep s s' pc.inHand ((next.map ReportPc.inHand).getD []) := by
  cases pc <;> simp only [reportStep] at h
  case lock =>
    split at h
    · cases h
      exact ReportStep.of_quiet rfl rfl rfl rfl fun _ => id
    · cases h
  case exchange =>
    cases h
    refine ⟨⟨[], (List.append_nil _).symm⟩, fun _ => rfl,
      fun hcounts call hcall => ?_, fun _ => Or.inl⟩
    unfold CountsUnreported at hcounts
    rcases hcall with hunreported | hannounced | hhand
    · have hpos := List.length_pos_of_mem hunreported
      have hcounter : ¬(s.unreportedDropped = 0 ∨ C.sinkPresent = false) := by
        rw [hsink]
        simp
        omega
      rw [if_neg hcounter]
      exact Or.inr (Or.inr hunreported)
    · exact Or.inr (Or.inl hannounced)
    · cases hhand
  case write dropped calls =>
    cases h
    refine ReportStep.of_same rfl rfl rfl rfl fun call hcall => Or.inl ?_
    simpa [announced, SinkEvent.announces, ReportPc.inHand] using hcall
  all_goals
    cases h
    exact ReportStep.of_quiet rfl rfl rfl rfl fun _ => id

section

variable [DecidableEq Thread]

theorem enqueueStep_reports {t : Thread} {choice : Choice}
    {s s' : Shared Thread C} {ticket : Ticket} {pc : EnqueuePc} {pc' : ClientPc}
    (h : enqueueStep t choice s ticket pc = some (s', pc')) :
    ReportStep s s' [] pc'.inHand := by
  cases pc <;> simp only [enqueueStep] at h
  case notifyFlush pc | notifyFallback pc =>
    rcases Option.map_eq_some_iff.mp h with ⟨⟨s1, next⟩, hstep, hpair⟩
    rcases notifyFlushStep_shape hstep with ⟨_, _, rfl⟩
    cases next <;> cases hpair <;>
      exact ReportStep.of_quiet rfl rfl rfl rfl fun _ hcall => by cases hcall
  case deliver pc =>
    rcases Option.map_eq_some_iff.mp h with ⟨⟨s1, next⟩, hstep, hpair⟩
    rcases deliverStep_shape hstep with ⟨_, _, _, _, rfl, rfl⟩
    cases next <;> cases hpair <;>
      exact ReportStep.of_same rfl rfl rfl rfl fun _ hcall => by cases hcall
  all_goals
    (repeat' split at h) <;> cases h <;>
      exact ReportStep.of_quiet rfl rfl rfl rfl fun _ hcall => by cases hcall

omit [DecidableEq Thread] in
theorem dropStep_reports {s s' : Shared Thread C} {call : Nat}
    {timeout holding : Bool} {pc : DropPc} {pc' : ClientPc}
    (h : dropStep s call timeout holding pc = some (s', pc')) :
    ReportStep s s' [] [] := by
  cases pc <;> simp only [dropStep] at h
  case unreported =>
    have hshape : s'.unreportedDropped = s.unreportedDropped + 1 ∧
        s'.history.unreported = s.history.unreported ++ [call] ∧
        s'.history.reportable = s.history.reportable ++ [call] ∧
        s'.sink = s.sink := by
      (repeat' split at h) <;> cases h <;> exact ⟨rfl, rfl, rfl, rfl⟩
    rcases hshape with ⟨hcounter, hunreported, hreportable, hsink⟩
    refine ⟨⟨[], by rw [hsink, List.append_nil]⟩, fun hcounts => ?_,
      fun _ other hother => ?_, fun other hother => ?_⟩
    · unfold CountsUnreported at hcounts ⊢
      rw [hcounter, hunreported, List.length_append, hcounts]
      rfl
    · unfold Traced at hother ⊢
      rw [hunreported, hsink, List.mem_append]
      rcases hother with hcall | hrest
      · exact Or.inl (Or.inl hcall)
      · exact Or.inr hrest
    · rw [hreportable, List.mem_append] at hother
      rw [hunreported, List.mem_append]
      rcases hother with hcall | hmine
      · exact Or.inl hcall
      · exact Or.inr (Or.inr hmine)
  all_goals
    (repeat' split at h) <;> cases h <;>
      exact ReportStep.of_quiet rfl rfl rfl rfl fun _ => id

theorem flushStep_reports {t : Thread} {choice : Choice}
    {s s' : Shared Thread C} {before : List Nat} {pc : FlushPc} {pc' : ClientPc}
    (hsink : C.sinkPresent = true)
    (h : flushStep t choice s before pc = some (s', pc')) :
    ReportStep s s' (ClientPc.flush before pc).inHand pc'.inHand := by
  cases pc <;> simp only [flushStep] at h
  case report pc =>
    rcases Option.map_eq_some_iff.mp h with ⟨⟨s1, next⟩, hstep, hpair⟩
    have hreports := reportStep_reports hsink hstep
    cases next <;> cases hpair <;> exact hreports
  case flushSink pc =>
    rcases Option.map_eq_some_iff.mp h with ⟨⟨s1, next⟩, hstep, hpair⟩
    rcases flushSinkStep_shape hstep with ⟨_, _, _, rfl, rfl⟩
    cases next <;> cases hpair <;>
      exact ReportStep.of_same rfl rfl rfl rfl fun _ hcall => by cases hcall
  all_goals
    (repeat' split at h) <;> cases h <;>
      exact ReportStep.of_quiet rfl rfl rfl rfl fun _ hcall => by cases hcall

theorem clientStep_reports {t : Thread} {choice : Choice}
    {s s' : Shared Thread C} {pc pc' : ClientPc}
    (hsink : C.sinkPresent = true)
    (h : clientStep t choice s pc = some (s', pc')) :
    ReportStep s s' pc.inHand pc'.inHand := by
  cases pc with
  | idle => cases h
  | enter call record =>
      cases h
      exact ReportStep.of_quiet rfl rfl rfl rfl fun _ hcall => by cases hcall
  | enqueue ticket pc => exact enqueueStep_reports h
  | drop call timeout holding pc =>
      have hreports := dropStep_reports h
      rcases (dropStep_shape h).2 with rfl | ⟨_, rfl⟩ <;> exact hreports
  | flush before pc => exact flushStep_reports hsink h
  | stats loaded pc =>
      rcases statsStep_shape (Option.some.inj h) with ⟨⟨_, rfl⟩, hpc⟩
      exact ReportStep.of_quiet rfl rfl rfl rfl fun _ hcall => by cases hcall

end

theorem workerStep_reports {choice : Choice} {s s' : Shared Thread C}
    {pc pc' : WorkerPc} (hsink : C.sinkPresent = true)
    (h : workerStep choice s pc = some (s', pc')) :
    ReportStep s s' pc.inHand pc'.inHand := by
  cases pc <;> simp only [workerStep] at h
  case deliver ticket drained pc =>
    rcases Option.map_eq_some_iff.mp h with ⟨⟨s1, next⟩, hstep, hpair⟩
    rcases deliverStep_shape hstep with ⟨_, _, _, _, rfl, rfl⟩
    cases hpair
    exact ReportStep.of_same rfl rfl rfl rfl fun _ hcall => by cases hcall
  case report drained pc | lastReport pc =>
    rcases Option.map_eq_some_iff.mp h with ⟨⟨s1, next⟩, hstep, hpair⟩
    have hreports := reportStep_reports hsink hstep
    cases next <;> cases hpair <;> exact hreports
  case notifyFlush drained pc | lastNotify pc =>
    rcases Option.map_eq_some_iff.mp h with ⟨⟨s1, next⟩, hstep, hpair⟩
    rcases notifyFlushStep_shape hstep with ⟨_, _, rfl⟩
    cases hpair
    exact ReportStep.of_quiet rfl rfl rfl rfl fun _ hcall => by cases hcall
  case lastFlush pc =>
    rcases Option.map_eq_some_iff.mp h with ⟨⟨s1, next⟩, hstep, hpair⟩
    rcases flushSinkStep_shape hstep with ⟨_, _, _, rfl, rfl⟩
    cases hpair
    exact ReportStep.of_same rfl rfl rfl rfl fun _ hcall => by cases hcall
  all_goals
    (repeat' split at h) <;> cases h <;>
      exact ReportStep.of_quiet rfl rfl rfl rfl fun _ hcall => by cases hcall

/-!
## Every reachable state
-/

structure ReportLedger (s : State Thread C) : Prop where
  counts : CountsUnreported s.shared
  traced : forall call, call ∈ s.shared.history.reportable ->
    exists agent, Traced s.shared (s.inHand agent) call

theorem ReportLedger.step {s s' : State Thread C} (hs : ReportLedger s)
    (me : Agent Thread)
    (hreports : ReportStep s.shared s'.shared (s.inHand me) (s'.inHand me))
    (hothers : forall agent, agent ≠ me -> s'.inHand agent = s.inHand agent) :
    ReportLedger s' where
  counts := hreports.counts hs.counts
  traced := by
    intro call hcall
    rcases hreports.reportable call hcall with hold | hnew
    · rcases hs.traced call hold with ⟨agent, htraced⟩
      by_cases hagent : agent = me
      · subst hagent
        exact ⟨agent, hreports.traced hs.counts call htraced⟩
      · rcases htraced with hunreported | hannounced | hhand
        · exact ⟨me, hreports.traced hs.counts call (Or.inl hunreported)⟩
        · exact ⟨me,
            hreports.traced hs.counts call (Or.inr (Or.inl hannounced))⟩
        · rw [← hothers agent hagent] at hhand
          exact ⟨agent, Or.inr (Or.inr hhand)⟩
    · exact ⟨me, Or.inl hnew⟩

theorem reachable_reportLedger [DecidableEq Thread] {s : State Thread C}
    (hsink : C.sinkPresent = true) (h : (asyncSink Thread C).Reachable s) :
    ReportLedger s := by
  refine Machine.invariant (P := ReportLedger) ?_
    (fun s a s' _ hs hstep => ?_) h
  · exact ⟨rfl, fun call hcall => by cases hcall⟩
  have hclients : forall {t : Thread} {shared : Shared Thread C} {pc : ClientPc}
      (agent : Agent Thread), agent ≠ Agent.client t ->
        State.inHand { s with
          shared := shared
          client := Function.update s.client t pc } agent = s.inHand agent := by
    rintro t shared pc (_ | t') ht'
    · rfl
    · have hne : t' ≠ t := fun heq => ht' (congrArg Agent.client heq)
      simp [State.inHand, hne]
  cases a with
  | write t record | flush t | getStats t =>
      rcases State.begin_some hstep with ⟨hidle, rfl⟩
      refine hs.step (Agent.client t) ?_ hclients
      simp only [State.inHand, hidle, Function.update_self]
      exact ReportStep.of_quiet rfl rfl rfl rfl fun _ hcall => by cases hcall
  | client t choice =>
      rcases Option.map_eq_some_iff.mp hstep with ⟨⟨shared, pc⟩, hclient, rfl⟩
      refine hs.step (Agent.client t) ?_ hclients
      simpa [State.inHand] using clientStep_reports hsink hclient
  | worker choice =>
      rcases Option.map_eq_some_iff.mp hstep with ⟨⟨shared, pc⟩, hworker, rfl⟩
      refine hs.step Agent.worker (workerStep_reports hsink hworker) ?_
      rintro (_ | t') ht'
      · exact absurd rfl ht'
      · rfl
  | owner =>
      rcases Option.map_eq_some_iff.mp hstep with ⟨⟨shared, pc⟩, howner, rfl⟩
      rcases ownerStep_shape howner with ⟨_, _, _, rfl⟩
      exact ⟨hs.counts, hs.traced⟩

theorem traced_of_holdsDelivery [DecidableEq Thread] {s : State Thread C}
    (hsink : C.sinkPresent = true) (h : (asyncSink Thread C).Reachable s)
    (me : Agent Thread) (hholds : s.holdsDelivery me = true)
    (hhand : s.inHand me = []) {call : Nat}
    (hcall : call ∈ s.shared.history.reportable) :
    call ∈ s.shared.history.unreported ∨ call ∈ announced s.shared.sink := by
  rcases (reachable_reportLedger hsink h).traced call hcall with
    ⟨agent, hunreported | hannounced | htaken⟩
  · exact Or.inl hunreported
  · exact Or.inr hannounced
  · have hagent := (reachable_exclusive h).unique
      (State.holdsDelivery_of_inHand htaken) hholds
    rw [hagent, hhand] at htaken
    cases htaken

end Async
end NginLog
