import Mathlib.Algebra.BigOperators.Ring.Finset
import NginLog.Async.Delivery
import NginLog.Async.FlushCompleteness
import NginLog.Foundation.FamilySum

/-!
# Every drop is reported exactly once

A drop is counted twice, first as a drop and then as one to report, and the
number to report is later taken by some thread and stated in a drop report.
At every moment the numbers stated so far, the counter, the number in a
thread's hand and the drops between the two increments add up to the drops.
-/

namespace NginLog
namespace Async

open Foundation Record

variable {Thread : Type} {C : AsyncSinkConfig}

/-!
## What is stated and what is on its way
-/

def SinkEvent.stated : SinkEvent Thread -> Nat
  | SinkEvent.report dropped _ _ => dropped
  | _ => 0

/-- The sum of the numbers in the drop reports that have been emitted. -/
def reportedDrops (sink : List (SinkEvent Thread)) : Nat :=
  (sink.map SinkEvent.stated).sum

@[simp] theorem reportedDrops_append (sink events : List (SinkEvent Thread)) :
    reportedDrops (sink ++ events) =
      reportedDrops sink + reportedDrops events := by
  simp [reportedDrops]

/-- A number taken by the exchange and not yet stated in a report. -/
def ReportPc.taken : ReportPc -> Nat
  | ReportPc.write dropped _ => dropped
  | _ => 0

def ClientPc.taken : ClientPc -> Nat
  | ClientPc.flush _ (FlushPc.report pc) => pc.taken
  | _ => 0

def WorkerPc.taken : WorkerPc -> Nat
  | WorkerPc.report _ pc => pc.taken
  | WorkerPc.lastReport pc => pc.taken
  | _ => 0

/-- A drop between the two increments of `RecordDrop`. -/
def ClientPc.halfCounted : ClientPc -> Nat
  | ClientPc.drop _ _ _ DropPc.unreported => 1
  | _ => 0

def ClientPc.inFlight (pc : ClientPc) : Int :=
  pc.taken + pc.halfCounted

def Shared.untold (s : Shared Thread C) : Int :=
  s.totalDropped - s.unreportedDropped - reportedDrops s.sink

/-!
## What a report says
-/

def Counts (dropped : Nat) (calls : List Nat) : Prop :=
  dropped ≠ 0 ∧ calls.length = dropped

/-- The event states the number of its calls, and its text that number. -/
def SinkEvent.Exact : SinkEvent Thread -> Prop
  | SinkEvent.report dropped message calls =>
      Counts dropped calls ∧ message = dropReportMessage dropped
  | _ => True

def ReportPc.Exact : ReportPc -> Prop
  | ReportPc.write dropped calls => Counts dropped calls
  | _ => True

def ClientPc.Exact : ClientPc -> Prop
  | ClientPc.flush _ (FlushPc.report pc) => pc.Exact
  | _ => True

def WorkerPc.Exact : WorkerPc -> Prop
  | WorkerPc.report _ pc => pc.Exact
  | WorkerPc.lastReport pc => pc.Exact
  | _ => True

def SinkEvent.isReport : SinkEvent Thread -> Bool
  | SinkEvent.report _ _ _ => true
  | _ => false

theorem SinkEvent.of_not_report {event : SinkEvent Thread}
    (h : event.isReport = false) :
    event.stated = 0 ∧ event.Exact := by
  cases event with
  | report dropped message calls => cases h
  | _ => exact ⟨rfl, trivial⟩

theorem DeliverPc.events_not_report {event : SinkEvent Thread} (pc : DeliverPc)
    (h : event.isReport = false) :
    forall e, e ∈ pc.events event -> e.isReport = false := by
  intro e he
  cases pc with
  | write =>
      rw [List.mem_singleton.mp he]
      exact h
  | _ => cases he

theorem FlushSinkPc.events_not_report (me : Agent Thread) (pc : FlushSinkPc) :
    forall e, e ∈ pc.events me -> e.isReport = false := by
  intro e he
  cases pc with
  | flush => rw [List.mem_singleton.mp he]; rfl
  | _ => cases he

theorem announced_length {sink : List (SinkEvent Thread)}
    (h : forall event, event ∈ sink -> event.Exact) :
    (announced sink).length = reportedDrops sink := by
  induction sink with
  | nil => rfl
  | cons event rest ih =>
      have hevent : event.announces.length = event.stated := by
        have hexact := h event List.mem_cons_self
        cases event with
        | report dropped message calls => exact hexact.1.2
        | _ => rfl
      have hrest := ih fun e he => h e (List.mem_cons_of_mem _ he)
      simp only [announced, reportedDrops, List.flatMap_cons,
        List.length_append, List.map_cons, List.sum_cons] at hrest ⊢
      omega

theorem dropReportMessage_eq {dropped : Nat} (h : dropped < 2 ^ 64) :
    dropReportMessage dropped =
      ascii "Dropped " ++ decimal dropped ++
        ascii " log records due to async overflow." := by
  have hdigits : (decimal dropped).length ≤ 20 :=
    decimal_length_le (by omega) (by omega)
  have hhead : (ascii "Dropped ").length = 8 := rfl
  have htail : (ascii " log records due to async overflow.").length = 35 :=
    rfl
  simp only [dropReportMessage, appendClipped, Config.MaxMessageBytes,
    List.nil_append, List.length_nil, Nat.sub_zero]
  rw [List.take_of_length_le (l := ascii "Dropped ") (by omega),
    List.take_of_length_le (l := decimal dropped) (by omega),
    List.take_of_length_le (by rw [List.length_append]; omega)]

/-!
## One step
-/

/-- What a step may do to the drops and to the reports. -/
structure Recounted (s s' : Shared Thread C) (flight flight' : Int)
    (exact exact' : Prop) : Prop where
  untold : s'.untold - flight' = s.untold - flight
  hand : CountsUnreported s -> exact -> exact'
  reports : exact -> (forall event, event ∈ s.sink -> event.Exact) ->
    forall event, event ∈ s'.sink -> event.Exact

theorem Recounted.of_events {s s' : Shared Thread C} {flight flight' : Int}
    {exact exact' : Prop} {events : List (SinkEvent Thread)}
    (htotal : s'.totalDropped = s.totalDropped)
    (hunreported : s'.unreportedDropped = s.unreportedDropped)
    (hsink : s'.sink = s.sink ++ events)
    (hevents : forall event, event ∈ events -> event.isReport = false)
    (hflight : flight' = flight) (hexact : exact') :
    Recounted s s' flight flight' exact exact' where
  untold := by
    have hzero : reportedDrops events = 0 :=
      List.sum_eq_zero_iff.mpr fun n hn => by
        rcases List.mem_map.mp hn with ⟨event, hevent, rfl⟩
        exact (SinkEvent.of_not_report (hevents event hevent)).1
    unfold Shared.untold
    rw [htotal, hunreported, hsink, reportedDrops_append, hzero, hflight,
      Nat.add_zero]
  hand := fun _ _ => hexact
  reports := by
    intro _ hold event hevent
    rw [hsink, List.mem_append] at hevent
    rcases hevent with hevent | hevent
    · exact hold event hevent
    · exact (SinkEvent.of_not_report (hevents event hevent)).2

theorem Recounted.of_same {s s' : Shared Thread C} {flight flight' : Int}
    {exact exact' : Prop} (htotal : s'.totalDropped = s.totalDropped)
    (hunreported : s'.unreportedDropped = s.unreportedDropped)
    (hsink : s'.sink = s.sink) (hflight : flight' = flight) (hexact : exact') :
    Recounted s s' flight flight' exact exact' :=
  Recounted.of_events htotal hunreported
    (hsink.trans (List.append_nil _).symm)
    (fun _ hevent => absurd hevent List.not_mem_nil) hflight hexact

theorem reportStep_recounted {me : Agent Thread} {choice : Choice}
    {s s' : Shared Thread C} {pc : ReportPc} {next : Option ReportPc}
    (hsink : C.sinkPresent = true)
    (h : reportStep me choice s pc = some (s', next)) :
    Recounted s s' pc.taken ((next.map ReportPc.taken).getD 0) pc.Exact
      (forall pc', next = some pc' -> pc'.Exact) := by
  cases pc <;> simp only [reportStep] at h
  case lock =>
    split at h
    · cases h
      exact Recounted.of_same rfl rfl rfl rfl fun _ hpc => by cases hpc; trivial
    · cases h
  case exchange =>
    cases h
    by_cases hzero : s.unreportedDropped = 0
    · rw [if_pos (Or.inl hzero)]
      refine Recounted.of_same rfl hzero.symm rfl rfl fun _ hpc => ?_
      cases hpc
      trivial
    · rw [if_neg (by simp [hzero, hsink])]
      refine ⟨?_, fun hcounts _ pc' hpc => ?_, fun _ hold => hold⟩
      · simp only [Shared.untold, ReportPc.taken, Option.map_some,
          Option.getD_some]
        omega
      · cases hpc
        exact ⟨hzero, hcounts.symm⟩
  case write dropped calls =>
    cases h
    refine ⟨?_, fun _ _ pc' hpc => ?_, fun hexact hold event hevent => ?_⟩
    · have hstated : reportedDrops [(SinkEvent.report dropped
          (dropReportMessage dropped) calls : SinkEvent Thread)] = dropped :=
        Nat.add_zero dropped
      have hnext : forall b : Prop, [Decidable b] ->
          (((if b then some ReportPc.recordError else some ReportPc.unlock).map
            ReportPc.taken).getD 0) = 0 := by
        intro b _
        split <;> rfl
      rw [hnext]
      simp only [Shared.untold, ReportPc.taken, reportedDrops_append, hstated]
      omega
    · split at hpc <;> cases hpc <;> trivial
    · rw [List.mem_append, List.mem_singleton] at hevent
      rcases hevent with hevent | rfl
      · exact hold event hevent
      · exact ⟨hexact, rfl⟩
  all_goals
    cases h
    exact Recounted.of_same rfl rfl rfl rfl fun _ hpc => by cases hpc <;> trivial

section

variable [DecidableEq Thread]

theorem enqueueStep_recounted {t : Thread} {choice : Choice}
    {s s' : Shared Thread C} {ticket : Ticket} {pc : EnqueuePc} {pc' : ClientPc}
    (h : enqueueStep t choice s ticket pc = some (s', pc')) :
    Recounted s s' 0 pc'.inFlight True pc'.Exact := by
  cases pc <;> simp only [enqueueStep] at h
  case notifyFlush pc =>
    rcases Option.map_eq_some_iff.mp h with ⟨⟨s1, next⟩, hstep, hpair⟩
    rcases notifyFlushStep_shape hstep with ⟨_, _, rfl⟩
    cases next <;> cases hpair
    · exact Recounted.of_same rfl rfl rfl
        (afterRejection_eq ClientPc.inFlight rfl rfl rfl)
        (afterRejection_eq ClientPc.Exact rfl rfl rfl ▸ trivial)
    · exact Recounted.of_same rfl rfl rfl rfl trivial
  case notifyFallback pc =>
    rcases Option.map_eq_some_iff.mp h with ⟨⟨s1, next⟩, hstep, hpair⟩
    rcases notifyFlushStep_shape hstep with ⟨_, _, rfl⟩
    cases next <;> cases hpair <;>
      exact Recounted.of_same rfl rfl rfl rfl trivial
  case deliver pc =>
    rcases Option.map_eq_some_iff.mp h with ⟨⟨s1, next⟩, hstep, hpair⟩
    rcases deliverStep_shape hstep with ⟨_, _, _, _, rfl, hevents⟩
    cases next <;> cases hpair <;>
      exact Recounted.of_events rfl rfl hevents (pc.events_not_report rfl) rfl
        trivial
  all_goals
    (repeat' split at h) <;> cases h <;>
      exact Recounted.of_same rfl rfl rfl rfl trivial

omit [DecidableEq Thread] in
theorem dropStep_recounted {s s' : Shared Thread C} {call : Nat}
    {timeout holding : Bool} {pc : DropPc} {pc' : ClientPc}
    (h : dropStep s call timeout holding pc = some (s', pc')) :
    Recounted s s' (ClientPc.drop call timeout holding pc).inFlight pc'.inFlight
      True pc'.Exact := by
  cases pc <;> simp only [dropStep] at h
  case total =>
    cases h
    refine ⟨?_, fun _ _ => trivial, fun _ hold => hold⟩
    simp only [Shared.untold, ClientPc.inFlight, ClientPc.taken,
      ClientPc.halfCounted]
    omega
  case unreported =>
    have hshape : s'.totalDropped = s.totalDropped ∧
        s'.unreportedDropped = s.unreportedDropped + 1 ∧ s'.sink = s.sink ∧
        pc'.inFlight = 0 ∧ pc'.Exact = True := by
      (repeat' split at h) <;> cases h <;> exact ⟨rfl, rfl, rfl, rfl, rfl⟩
    rcases hshape with ⟨htotal, hunreported, hsink, hflight, hexact⟩
    refine ⟨?_, fun _ _ => hexact ▸ trivial, fun _ hold => hsink ▸ hold⟩
    rw [hflight]
    simp only [Shared.untold, htotal, hunreported, hsink, ClientPc.inFlight,
      ClientPc.taken, ClientPc.halfCounted]
    omega
  all_goals
    (repeat' split at h) <;> cases h <;>
      exact Recounted.of_same rfl rfl rfl rfl trivial

theorem flushStep_recounted {t : Thread} {choice : Choice}
    {s s' : Shared Thread C} {before : List Nat} {pc : FlushPc} {pc' : ClientPc}
    (hsink : C.sinkPresent = true)
    (h : flushStep t choice s before pc = some (s', pc')) :
    Recounted s s' (ClientPc.flush before pc).inFlight pc'.inFlight
      (ClientPc.flush before pc).Exact pc'.Exact := by
  cases pc <;> simp only [flushStep] at h
  case report pc =>
    rcases Option.map_eq_some_iff.mp h with ⟨⟨s1, next⟩, hstep, hpair⟩
    have hcounted := reportStep_recounted hsink hstep
    cases next <;> cases hpair
    · exact ⟨by simpa [ClientPc.inFlight, ClientPc.taken, ClientPc.halfCounted]
        using hcounted.untold, fun _ _ => trivial, hcounted.reports⟩
    · exact ⟨by simpa [ClientPc.inFlight, ClientPc.taken, ClientPc.halfCounted]
        using hcounted.untold,
        fun hcounts hexact => hcounted.hand hcounts hexact _ rfl,
        hcounted.reports⟩
  case flushSink pc =>
    rcases Option.map_eq_some_iff.mp h with ⟨⟨s1, next⟩, hstep, hpair⟩
    rcases flushSinkStep_shape hstep with ⟨_, _, _, rfl, hevents⟩
    cases next <;> cases hpair <;>
      exact Recounted.of_events rfl rfl hevents (pc.events_not_report _) rfl
        trivial
  all_goals
    (repeat' split at h) <;> cases h <;>
      exact Recounted.of_same rfl rfl rfl rfl trivial

theorem clientStep_recounted {t : Thread} {choice : Choice}
    {s s' : Shared Thread C} {pc pc' : ClientPc}
    (hsink : C.sinkPresent = true)
    (h : clientStep t choice s pc = some (s', pc')) :
    Recounted s s' pc.inFlight pc'.inFlight pc.Exact pc'.Exact := by
  cases pc with
  | idle => cases h
  | enter call record =>
      cases h
      split
      · exact Recounted.of_same rfl rfl rfl
          (enqueueEntry_eq ClientPc.inFlight rfl rfl) trivial
      · exact Recounted.of_same rfl rfl rfl rfl trivial
  | enqueue ticket pc => exact enqueueStep_recounted h
  | drop call timeout holding pc => exact dropStep_recounted h
  | flush before pc => exact flushStep_recounted hsink h
  | stats loaded pc =>
      rcases statsStep_shape (Option.some.inj h) with ⟨⟨_, rfl⟩, hpc⟩
      rcases hpc with rfl | ⟨_, _, rfl⟩ <;>
        exact Recounted.of_same rfl rfl rfl rfl trivial

end

theorem workerStep_recounted {choice : Choice} {s s' : Shared Thread C}
    {pc pc' : WorkerPc} (hsink : C.sinkPresent = true)
    (h : workerStep choice s pc = some (s', pc')) :
    Recounted s s' pc.taken pc'.taken pc.Exact pc'.Exact := by
  cases pc <;> simp only [workerStep] at h
  case deliver ticket drained pc =>
    rcases Option.map_eq_some_iff.mp h with ⟨⟨s1, next⟩, hstep, hpair⟩
    rcases deliverStep_shape hstep with ⟨_, _, _, _, rfl, hevents⟩
    cases next <;> cases hpair <;>
      exact Recounted.of_events rfl rfl hevents (pc.events_not_report rfl) rfl
        trivial
  case report drained pc | lastReport pc =>
    rcases Option.map_eq_some_iff.mp h with ⟨⟨s1, next⟩, hstep, hpair⟩
    have hcounted := reportStep_recounted hsink hstep
    cases next <;> cases hpair
    · exact ⟨hcounted.untold, fun _ _ => trivial, hcounted.reports⟩
    · exact ⟨hcounted.untold,
        fun hcounts hexact => hcounted.hand hcounts hexact _ rfl,
        hcounted.reports⟩
  case notifyFlush drained pc =>
    rcases Option.map_eq_some_iff.mp h with ⟨⟨s1, next⟩, hstep, hpair⟩
    rcases notifyFlushStep_shape hstep with ⟨_, _, rfl⟩
    cases next <;> cases hpair
    · exact Recounted.of_same rfl rfl rfl
        (by rw [afterIteration_eq WorkerPc.taken rfl rfl]; rfl)
        (afterIteration_eq WorkerPc.Exact rfl rfl ▸ trivial)
    · exact Recounted.of_same rfl rfl rfl rfl trivial
  case lastNotify pc =>
    rcases Option.map_eq_some_iff.mp h with ⟨⟨s1, next⟩, hstep, hpair⟩
    rcases notifyFlushStep_shape hstep with ⟨_, _, rfl⟩
    cases next <;> cases hpair <;>
      exact Recounted.of_same rfl rfl rfl rfl trivial
  case lastFlush pc =>
    rcases Option.map_eq_some_iff.mp h with ⟨⟨s1, next⟩, hstep, hpair⟩
    rcases flushSinkStep_shape hstep with ⟨_, _, _, rfl, hevents⟩
    cases next <;> cases hpair <;>
      exact Recounted.of_events rfl rfl hevents (pc.events_not_report _) rfl
        trivial
  case testEmpty =>
    cases h
    split
    · exact Recounted.of_same rfl rfl rfl
        (by rw [afterLoop_eq WorkerPc.taken rfl rfl]; rfl)
        (afterLoop_eq WorkerPc.Exact rfl rfl ▸ trivial)
    · exact Recounted.of_same rfl rfl rfl rfl trivial
  case dequeue drained =>
    (repeat' split at h) <;> cases h
    · exact Recounted.of_same rfl rfl rfl rfl trivial
    · exact Recounted.of_same rfl rfl rfl
        (by rw [afterBatch_eq WorkerPc.taken rfl rfl]; rfl)
        (afterBatch_eq WorkerPc.Exact rfl rfl ▸ trivial)
    · exact Recounted.of_same rfl rfl rfl
        (by rw [afterBatch_eq WorkerPc.taken rfl rfl]; rfl)
        (afterBatch_eq WorkerPc.Exact rfl rfl ▸ trivial)
  case testRunning | idleRunning expired =>
    cases h
    split <;> exact Recounted.of_same rfl rfl rfl rfl trivial
  all_goals
    (repeat' split at h) <;> cases h <;>
      exact Recounted.of_same rfl rfl rfl rfl trivial

/-!
## Every reachable state
-/

structure DropBalance [Fintype Thread] (s : State Thread C) : Prop where
  untold : s.shared.untold = s.worker.taken + ∑ t, (s.client t).inFlight
  worker : s.worker.Exact
  clients : forall t, (s.client t).Exact
  reports : forall event, event ∈ s.shared.sink -> event.Exact

section

variable [Fintype Thread] [DecidableEq Thread]

theorem DropBalance.client {s : State Thread C} {t : Thread}
    {shared : Shared Thread C} {pc : ClientPc} (hs : DropBalance s)
    (hcounts : CountsUnreported s.shared)
    (h : Recounted s.shared shared (s.client t).inFlight pc.inFlight
      (s.client t).Exact pc.Exact) :
    DropBalance
      { s with shared := shared, client := Function.update s.client t pc } where
  untold := by
    have hold := hs.untold
    have hstep := h.untold
    rw [sum_update s.client t pc ClientPc.inFlight]
    simp only
    omega
  worker := hs.worker
  clients := fun t' => by
    by_cases ht : t' = t
    · subst ht
      simpa using h.hand hcounts (hs.clients t')
    · simpa [ht] using hs.clients t'
  reports := h.reports (hs.clients t) hs.reports

theorem reachable_dropBalance {s : State Thread C}
    (hsink : C.sinkPresent = true) (h : (asyncSink Thread C).Reachable s) :
    DropBalance s := by
  refine Machine.invariant (P := DropBalance) ?_
    (fun s a s' hreach hs hstep => ?_) h
  · constructor
    · simp [asyncSink, Shared.untold, reportedDrops, WorkerPc.taken,
        ClientPc.inFlight, ClientPc.taken, ClientPc.halfCounted]
    · trivial
    · exact fun _ => trivial
    · exact fun event hevent => by cases hevent
  have hcounts := (reachable_reportLedger hsink hreach).counts
  cases a with
  | write t record | flush t | getStats t =>
      rcases State.begin_some hstep with ⟨hidle, rfl⟩
      apply hs.client hcounts
      rw [hidle]
      exact Recounted.of_same rfl rfl rfl rfl trivial
  | client t choice =>
      rcases Option.map_eq_some_iff.mp hstep with ⟨⟨shared, pc⟩, hclient, rfl⟩
      exact hs.client hcounts (clientStep_recounted hsink hclient)
  | worker choice =>
      rcases Option.map_eq_some_iff.mp hstep with ⟨⟨shared, pc⟩, hworker, rfl⟩
      have hmoved := workerStep_recounted hsink hworker
      have hold := hs.untold
      have huntold := hmoved.untold
      refine ⟨?_, hmoved.hand hcounts hs.worker, hs.clients,
        hmoved.reports hs.worker hs.reports⟩
      simp only
      omega
  | owner =>
      rcases Option.map_eq_some_iff.mp hstep with ⟨⟨shared, pc⟩, howner, rfl⟩
      rcases ownerStep_shape howner with ⟨_, _, _, rfl⟩
      exact ⟨hs.untold, hs.worker, hs.clients, hs.reports⟩

omit [DecidableEq Thread] in
theorem DropBalance.total {s : State Thread C} (hs : DropBalance s) :
    reportedDrops s.shared.sink + s.shared.unreportedDropped +
        (s.worker.taken + ∑ t, (s.client t).taken) +
        ∑ t, (s.client t).halfCounted =
      s.shared.totalDropped := by
  have huntold := hs.untold
  have hsum : (∑ t, (s.client t).inFlight) =
      ((∑ t, (s.client t).taken : Nat) : Int) +
        (∑ t, (s.client t).halfCounted : Nat) := by
    simp only [ClientPc.inFlight, Finset.sum_add_distrib, Nat.cast_sum]
  rw [hsum, Shared.untold] at huntold
  omega

/-!
## After a flush
-/

omit [Fintype Thread] in
theorem not_handed_of_dropped {s : State Thread C}
    (hsink : C.sinkPresent = true) (h : (asyncSink Thread C).Reachable s)
    {call : Nat} (hcall : call ∈ s.shared.history.dropped)
    {pre post : List (SinkEvent Thread)} (hsplit : s.shared.sink = pre ++ post) :
    ¬Handed pre call := by
  have hledger := reachable_ledger hsink h
  have honce := (hledger.consistent call).once
  have hdropped : 0 < (s.shared.books.tally C.overflowPolicy call).dropped :=
    List.count_pos_iff.mpr hcall
  rintro (hdelivered | hfellBack)
  · have haccepted :
        0 < (s.shared.books.tally C.overflowPolicy call).accepted := by
      apply List.count_pos_iff.mpr
      have hpipeline := reachable_pipeline hsink h
      rw [pipeline, hsplit, delivered_append] at hpipeline
      show call ∈ s.shared.history.accepted.map Ticket.call
      rw [← hpipeline]
      simp only [List.map_append, List.mem_append]
      tauto
    omega
  · have hfell :
        0 < (s.shared.books.tally C.overflowPolicy call).fellBack := by
      apply List.count_pos_iff.mpr
      show call ∈ (fellBack s.shared.sink).map fun p => p.2.call
      rw [hsplit, fellBack_append, List.map_append, List.mem_append]
      exact Or.inl hfellBack
    omega

omit [Fintype Thread] in
theorem dropped_nodup {s : State Thread C} (hsink : C.sinkPresent = true)
    (h : (asyncSink Thread C).Reachable s) :
    s.shared.history.dropped.Nodup := by
  rw [List.nodup_iff_count_le_one]
  intro call
  have honce := ((reachable_ledger hsink h).consistent call).once
  simp only [Books.tally, Shared.books] at honce
  omega

omit [Fintype Thread] in
theorem dropped_lt {s : State Thread C} (hsink : C.sinkPresent = true)
    (h : (asyncSink Thread C).Reachable s) {call : Nat}
    (hcall : call ∈ s.shared.history.dropped) :
    call < s.shared.history.calls.length := by
  by_contra hge
  have hnone := (reachable_ledger hsink h).future call (Nat.le_of_not_lt hge)
  have hzero : s.shared.history.dropped.count call = 0 :=
    congrArg Tally.dropped hnone
  exact List.count_eq_zero.mp hzero hcall

theorem dropped_announced {s : State Thread C}
    (hemit : C.emitDropReports = true) (hsink : C.sinkPresent = true)
    (h : (asyncSink Thread C).Reachable s) {t : Thread} {before : List Nat}
    (hflushed : (t, before) ∈ s.shared.history.flushed)
    (hbefore : forall call, call < s.shared.history.calls.length ->
      call ∈ before) :
    s.shared.history.dropped ⊆ announced s.shared.sink := by
  intro call hcall
  rcases (reachable_flushInvariant hsink h).complete t before hflushed with
    ⟨pre, post, hsplit, hconcluded⟩
  have hmem := hbefore call (dropped_lt hsink h hcall)
  rcases hconcluded call hmem with hhanded | ⟨_, hannounced⟩
  · exact absurd hhanded (not_handed_of_dropped hsink h hcall hsplit)
  · rw [hsplit, announced_append, List.mem_append]
    rcases hannounced hemit with hmem | hmem
    · exact Or.inl hmem
    · cases hmem

/--
Every drop is reported exactly once: at every moment the numbers stated in the
reports and the drops still on their way to one are the drops; each report
states its number in full, which the counter keeps in a 64-bit word; and when a flush
has returned that began after every call of `Write` had returned, the reports
state all drops.
-/
theorem drops_reported_once (Thread : Type) [Fintype Thread]
    [DecidableEq Thread] (C : AsyncSinkConfig)
    (hemit : C.emitDropReports = true) (hsink : C.sinkPresent = true)
    (s : State Thread C) (h : (asyncSink Thread C).Reachable s) :
    reportedDrops s.shared.sink + s.shared.unreportedDropped +
          (s.worker.taken + ∑ t, (s.client t).taken) +
          ∑ t, (s.client t).halfCounted =
        s.shared.totalDropped ∧
      (forall dropped message calls,
        SinkEvent.report dropped message calls ∈ s.shared.sink ->
        dropped ≠ 0 ∧
          (dropped < 2 ^ 64 ->
            message =
              ascii "Dropped " ++ decimal dropped ++
                ascii " log records due to async overflow.")) ∧
      (forall t before, (t, before) ∈ s.shared.history.flushed ->
        (forall call, call < s.shared.history.calls.length -> call ∈ before) ->
        reportedDrops s.shared.sink = s.shared.totalDropped) := by
  have hbalance := reachable_dropBalance hsink h
  refine ⟨hbalance.total, ?_, ?_⟩
  · intro dropped message calls hreport
    rcases hbalance.reports _ hreport with ⟨hcounts, rfl⟩
    exact ⟨hcounts.1, dropReportMessage_eq⟩
  · intro t before hflushed hbefore
    have hannounced := dropped_announced hemit hsink h hflushed hbefore
    have hle := ((dropped_nodup hsink h).subperm hannounced).length_le
    rw [announced_length hbalance.reports] at hle
    have hcounted : s.shared.totalDropped = s.shared.history.dropped.length :=
      (reachable_ledger hsink h).counted
    have htotal := hbalance.total
    omega

end

/-- Two calls fill the smallest sink, the third is dropped; then a flush. -/
def droppedThenFlushed : List (Action Bool) :=
  let writes (t : Bool) (steps : Nat) : List (Action Bool) :=
    Action.write t {} :: List.replicate steps (Action.client t Choice.plain)
  writes false 8 ++ writes true 8 ++ writes false 7 ++
    List.replicate 24 (Action.worker Choice.plain) ++
    Action.flush true :: List.replicate 11 (Action.client true Choice.plain)

theorem droppedThenFlushed_reported :
    exists s : State Bool (smallSink AsyncOverflowPolicy.dropNewest),
      s.shared.totalDropped = 1 ∧ s.shared.history.flushed = [(true, [0, 1, 2])] ∧
      reportedDrops s.shared.sink = s.shared.totalDropped := by
  have hrun : ((asyncSink Bool (smallSink AsyncOverflowPolicy.dropNewest)).run
      droppedThenFlushed).any (fun s =>
        decide (s.shared.totalDropped = 1) &&
        decide (s.shared.history.calls.length = 3) &&
        decide (s.shared.history.flushed = [(true, [0, 1, 2])])) = true := by
    decide
  rcases Machine.exists_reachable_of_run hrun with ⟨s, hreachable, htest⟩
  simp only [Bool.and_eq_true, decide_eq_true_eq] at htest
  rcases htest with ⟨⟨htotal, hcalls⟩, hflushed⟩
  refine ⟨s, htotal, hflushed, ?_⟩
  apply (drops_reported_once Bool _ rfl rfl s hreachable).2.2 true [0, 1, 2]
  · rw [hflushed]
    exact List.mem_singleton_self _
  · rw [hcalls]
    decide

end Async
end NginLog
