import NginLog.Async.DropReports
import NginLog.Async.Ledger
import NginLog.Async.Outstanding

/-!
# Flush is complete

A `Flush` that finds `m_outstanding` zero finds the queue empty and no record on
its way, so every `Write` that returned before has had its record delivered or
counted as a drop.  The drops are then announced under the delivery mutex, and
only after that is the wrapped sink flushed.
-/

namespace NginLog
namespace Async

open Foundation

variable {Thread : Type} {C : AsyncSinkConfig}

/-!
## What a flush achieves

A call is settled when its record has been passed to `Write` of the wrapped
sink, or the call is counted as a drop.
-/

def Handed (sink : List (SinkEvent Thread)) (call : Nat) : Prop :=
  call ∈ (delivered sink).map Ticket.call ∨
    call ∈ (fellBack sink).map fun p => p.2.call

def Settled (s : Shared Thread C) (call : Nat) : Prop :=
  Handed s.sink call ∨
    (call ∈ s.history.dropped ∧ call ∈ s.history.reportable)

/--
The call is settled, and with `emitDropReports` a drop has been announced to
`sink` as well, or is in the given hand.
-/
def Concluded (s : Shared Thread C) (sink : List (SinkEvent Thread))
    (hand : List Nat) (call : Nat) : Prop :=
  Handed sink call ∨
    (call ∈ s.history.dropped ∧
      (C.emitDropReports = true -> call ∈ announced sink ∨ call ∈ hand))

/-- Thread `t` flushed the wrapped sink after all these calls were concluded. -/
def FlushedAfter (s : Shared Thread C) (t : Thread) (before : List Nat) : Prop :=
  exists pre post,
    s.sink = pre ++ SinkEvent.flush (Agent.client t) :: post ∧
      forall call, call ∈ before -> Concluded s pre [] call

def FlushComplete (s : State Thread C) : Prop :=
  forall t before, (t, before) ∈ s.shared.history.flushed ->
    FlushedAfter s.shared t before

/-!
## What other threads leave intact
-/

structure Extends (s s' : Shared Thread C) : Prop where
  sink : exists events, s'.sink = s.sink ++ events
  returned : s.history.returned ⊆ s'.history.returned
  dropped : s.history.dropped ⊆ s'.history.dropped
  reportable : s.history.reportable ⊆ s'.history.reportable

theorem Extends.of_lists {s s' : Shared Thread C}
    (hsink : exists events, s'.sink = s.sink ++ events)
    (hreturned : s'.history.returned = s.history.returned)
    (hdropped : s'.history.dropped = s.history.dropped)
    (hreportable : s'.history.reportable = s.history.reportable) :
    Extends s s' where
  sink := hsink
  returned := by rw [hreturned]; exact List.Subset.refl _
  dropped := by rw [hdropped]; exact List.Subset.refl _
  reportable := by rw [hreportable]; exact List.Subset.refl _

theorem Extends.of_same {s s' : Shared Thread C} (hsink : s'.sink = s.sink)
    (hreturned : s'.history.returned = s.history.returned)
    (hdropped : s'.history.dropped = s.history.dropped)
    (hreportable : s'.history.reportable = s.history.reportable) :
    Extends s s' :=
  Extends.of_lists ⟨[], by rw [hsink, List.append_nil]⟩ hreturned hdropped
    hreportable

theorem Handed.append {sink : List (SinkEvent Thread)} {call : Nat}
    (h : Handed sink call) (events : List (SinkEvent Thread)) :
    Handed (sink ++ events) call := by
  unfold Handed at h ⊢
  simp only [delivered_append, fellBack_append, List.map_append,
    List.mem_append]
  rcases h with h | h
  · exact Or.inl (Or.inl h)
  · exact Or.inr (Or.inl h)

theorem Settled.extends {s s' : Shared Thread C} {call : Nat}
    (h : Settled s call) (hextends : Extends s s') :
    Settled s' call := by
  rcases hextends.sink with ⟨events, hsink⟩
  rcases h with h | ⟨hdropped, hreportable⟩
  · exact Or.inl (hsink ▸ h.append events)
  · exact Or.inr ⟨hextends.dropped hdropped, hextends.reportable hreportable⟩

theorem Concluded.extends {s s' : Shared Thread C}
    {sink : List (SinkEvent Thread)} {hand : List Nat} {call : Nat}
    (h : Concluded s sink hand call) (hextends : Extends s s')
    (events : List (SinkEvent Thread)) :
    Concluded s' (sink ++ events) hand call := by
  rcases h with h | ⟨hdropped, hannounced⟩
  · exact Or.inl (h.append events)
  · refine Or.inr ⟨hextends.dropped hdropped, fun hemit => ?_⟩
    rw [announced_append, List.mem_append]
    rcases hannounced hemit with h | h
    · exact Or.inl (Or.inl h)
    · exact Or.inr h

theorem FlushedAfter.extends {s s' : Shared Thread C} {t : Thread}
    {before : List Nat} (h : FlushedAfter s t before)
    (hextends : Extends s s') :
    FlushedAfter s' t before := by
  rcases h with ⟨pre, post, hflush, hconcluded⟩
  rcases hextends.sink with ⟨events, hsink⟩
  refine ⟨pre, post ++ events, ?_, fun call hcall => ?_⟩
  · rw [hsink, hflush, List.append_assoc]
    rfl
  · have hkept := (hconcluded call hcall).extends hextends []
    rwa [List.append_nil] at hkept

theorem Entry.extends {policy : AsyncOverflowPolicy} {t : Thread}
    {b b' : Books Thread} {pc pc' : ClientPc} (h : Entry policy t b pc pc' b') :
    b.returned ⊆ b'.returned ∧ b.dropped ⊆ b'.dropped ∧
      b.reportable ⊆ b'.reportable := by
  cases h <;> simp

theorem clientStep_extends [DecidableEq Thread] {t : Thread} {choice : Choice}
    {s s' : Shared Thread C} {pc pc' : ClientPc}
    (hsink : C.sinkPresent = true)
    (h : clientStep t choice s pc = some (s', pc')) :
    Extends s s' := by
  rcases (clientStep_entry hsink h).extends with
    ⟨hreturned, hdropped, hreportable⟩
  exact ⟨(clientStep_reports hsink h).sink, hreturned, hdropped, hreportable⟩

theorem workerStep_extends {choice : Choice} {s s' : Shared Thread C}
    {pc pc' : WorkerPc} (hsink : C.sinkPresent = true)
    (h : workerStep choice s pc = some (s', pc')) :
    Extends s s' := by
  have hbooks := workerStep_books h
  exact Extends.of_lists (workerStep_reports hsink h).sink
    (congrArg Books.returned hbooks) (congrArg Books.dropped hbooks)
    (congrArg Books.reportable hbooks)

/-!
## Along a flush

An empty counter settles every call that has returned, and a thread that is
about to take the counter of drops finds every drop counted or announced.
-/

/-- What holds, at each point of a `Flush`, of the calls it has to cover. -/
def FlushPc.Facts (s : Shared Thread C) (t : Thread) (before : List Nat) :
    FlushPc -> Prop
  | FlushPc.testEmpty | FlushPc.unlock =>
      forall call, call ∈ before ->
        call ∈ s.history.returned ∧ Settled s call
  | FlushPc.report ReportPc.lock | FlushPc.report ReportPc.exchange =>
      forall call, call ∈ before -> Settled s call
  | FlushPc.report pc =>
      forall call, call ∈ before -> Concluded s s.sink pc.inHand call
  | FlushPc.flushSink FlushSinkPc.recordError
  | FlushPc.flushSink FlushSinkPc.unlock => FlushedAfter s t before
  | FlushPc.flushSink _ =>
      forall call, call ∈ before -> Concluded s s.sink [] call
  | _ => forall call, call ∈ before -> call ∈ s.history.returned

theorem FlushPc.Facts.extends {s s' : Shared Thread C} {t : Thread}
    {before : List Nat} {pc : FlushPc} (h : pc.Facts s t before)
    (hextends : Extends s s') :
    pc.Facts s' t before := by
  rcases hextends.sink with ⟨events, hsink⟩
  have hconcluded : forall {hand : List Nat},
      (forall call, call ∈ before -> Concluded s s.sink hand call) ->
        forall call, call ∈ before -> Concluded s' s'.sink hand call :=
    fun hall call hcall => hsink ▸ (hall call hcall).extends hextends events
  cases pc with
  | testEmpty | unlock =>
      intro call hcall
      exact ⟨hextends.returned (h call hcall).1,
        (h call hcall).2.extends hextends⟩
  | report pc =>
      cases pc with
      | lock | exchange =>
          intro call hcall
          exact Settled.extends (h call hcall) hextends
      | _ => exact hconcluded h
  | flushSink pc =>
      cases pc with
      | recordError | unlock => exact FlushedAfter.extends h hextends
      | _ => exact hconcluded h
  | _ => exact fun call hcall => hextends.returned (h call hcall)

theorem Settled.concluded {s : Shared Thread C} {sink : List (SinkEvent Thread)}
    {hand : List Nat} {call : Nat} (h : Settled s call) (hsink : sink = s.sink)
    (hannounced : C.emitDropReports = true -> call ∈ s.history.reportable ->
      call ∈ announced sink ∨ call ∈ hand) :
    Concluded s sink hand call := by
  subst hsink
  rcases h with h | ⟨hdropped, hreportable⟩
  · exact Or.inl h
  · exact Or.inr ⟨hdropped, fun hemit => hannounced hemit hreportable⟩

theorem reportStep_facts {me : Agent Thread} {choice : Choice}
    {s s' : Shared Thread C} {pc : ReportPc} {next : Option ReportPc}
    {t : Thread} {before : List Nat} (hsink : C.sinkPresent = true)
    (hcounts : CountsUnreported s)
    (htraced : pc = ReportPc.exchange -> forall call,
      call ∈ s.history.reportable ->
        call ∈ s.history.unreported ∨ call ∈ announced s.sink)
    (hfacts : (FlushPc.report pc).Facts s t before)
    (h : reportStep me choice s pc = some (s', next)) :
    (match next with
      | some pc' => FlushPc.report pc'
      | none => FlushPc.flushSink FlushSinkPc.testSink).Facts s' t before := by
  cases pc <;> simp only [reportStep] at h
  case lock =>
    split at h
    · cases h
      exact hfacts
    · cases h
  case exchange =>
    cases h
    -- The mutex is ours, so a drop is announced or is what we have just taken.
    by_cases hnone : s.unreportedDropped = 0 ∨ C.sinkPresent = false
    · rw [if_pos hnone]
      have hzero : s.unreportedDropped = 0 := by simpa [hsink] using hnone
      have hempty : s.history.unreported = [] := by
        rw [← List.length_eq_zero_iff, ← hcounts, hzero]
      intro call hcall
      refine (hfacts call hcall).elim Or.inl fun hdrop => ?_
      refine Or.inr ⟨hdrop.1, fun _ => Or.inl ?_⟩
      rcases htraced rfl call hdrop.2 with hunreported | hannounced
      · rw [hempty] at hunreported
        cases hunreported
      · exact hannounced
    · rw [if_neg hnone]
      intro call hcall
      refine (hfacts call hcall).elim Or.inl fun hdrop => ?_
      exact Or.inr ⟨hdrop.1, fun _ => (htraced rfl call hdrop.2).symm⟩
  case write dropped calls =>
    have hwritten : forall call, call ∈ before ->
        Concluded s (s.sink ++
          [SinkEvent.report dropped (dropReportMessage dropped) calls])
          [] call := by
      intro call hcall
      rcases hfacts call hcall with h | ⟨hdropped, hannounced⟩
      · exact Or.inl (h.append _)
      · refine Or.inr ⟨hdropped, fun hemit => Or.inl ?_⟩
        rw [announced_append, List.mem_append]
        refine (hannounced hemit).imp id fun htaken => ?_
        simpa [announced, SinkEvent.announces, ReportPc.inHand] using htaken
    split at h <;> cases h <;> exact hwritten
  all_goals
    cases h
    exact hfacts

theorem flushSinkStep_facts {choice : Choice}
    {s s' : Shared Thread C} {pc : FlushSinkPc} {next : Option FlushSinkPc}
    {t : Thread} {before : List Nat} (hsink : C.sinkPresent = true)
    (hfacts : (FlushPc.flushSink pc).Facts s t before)
    (h : flushSinkStep (Agent.client t) choice s pc = some (s', next)) :
    next.elim (FlushedAfter s' t before)
      fun pc' => (FlushPc.flushSink pc').Facts s' t before := by
  cases pc <;> simp only [flushSinkStep] at h
  case testSink =>
    rw [hsink] at h
    cases h
    exact hfacts
  case lock =>
    split at h
    · cases h
      exact hfacts
    · cases h
  case flush =>
    cases h
    have hafter : FlushedAfter
        { s with sink := s.sink ++ [SinkEvent.flush (Agent.client t)] } t
        before :=
      ⟨s.sink, [], rfl, hfacts⟩
    split <;> exact hafter
  all_goals
    cases h
    exact hfacts

theorem flushStep_facts [DecidableEq Thread] {t : Thread} {choice : Choice}
    {s s' : Shared Thread C} {before : List Nat} {pc : FlushPc} {pc' : ClientPc}
    (hsink : C.sinkPresent = true)
    (hcounts : CountsUnreported s)
    (hzero : s.outstanding = 0 ->
      forall call, call ∈ s.history.returned -> Settled s call)
    (htraced : pc = FlushPc.report ReportPc.exchange -> forall call,
      call ∈ s.history.reportable ->
        call ∈ s.history.unreported ∨ call ∈ announced s.sink)
    (hfacts : pc.Facts s t before)
    (h : flushStep t choice s before pc = some (s', pc')) :
    (exists next, pc' = ClientPc.flush before next ∧ next.Facts s' t before ∧
      s'.history.flushed = s.history.flushed) ∨
      (pc' = ClientPc.idle ∧ FlushedAfter s' t before ∧
        s'.history.flushed = s.history.flushed ++ [(t, before)]) := by
  cases pc <;> simp only [flushStep] at h
  case testOutstanding =>
    cases h
    split
    · rename_i houtstanding
      exact Or.inl ⟨_, rfl, fun call hcall =>
        ⟨hfacts call hcall, hzero houtstanding call (hfacts call hcall)⟩, rfl⟩
    · exact Or.inl ⟨_, rfl, hfacts, rfl⟩
  case testEmpty =>
    cases h
    split
    · exact Or.inl ⟨_, rfl, hfacts, rfl⟩
    · exact Or.inl ⟨_, rfl, fun call hcall => (hfacts call hcall).1, rfl⟩
  case unlock =>
    cases h
    split
    · exact Or.inl ⟨_, rfl, fun call hcall => (hfacts call hcall).2, rfl⟩
    · rename_i hemit
      refine Or.inl ⟨_, rfl, fun call hcall => ?_, rfl⟩
      exact Settled.concluded (hfacts call hcall).2 rfl
        fun hon => absurd hon hemit
  case report pc =>
    rcases Option.map_eq_some_iff.mp h with ⟨⟨s1, next⟩, hstep, hpair⟩
    have hnext := reportStep_facts hsink hcounts
      (fun hpc => htraced (congrArg FlushPc.report hpc)) hfacts hstep
    rcases reportStep_shape hstep with ⟨_, _, _, _, _, rfl, _⟩
    cases next <;> cases hpair <;> exact Or.inl ⟨_, rfl, hnext, rfl⟩
  case flushSink pc =>
    rcases Option.map_eq_some_iff.mp h with ⟨⟨s1, next⟩, hstep, hpair⟩
    have hnext := flushSinkStep_facts hsink hfacts hstep
    rcases flushSinkStep_shape hstep with ⟨_, _, _, rfl, _⟩
    cases next <;> cases hpair
    · exact Or.inr ⟨rfl, hnext, rfl⟩
    · exact Or.inl ⟨_, rfl, hnext, rfl⟩
  case sleep =>
    cases h
    exact Or.inl ⟨_, rfl, hfacts, rfl⟩
  all_goals
    split at h <;> cases h
    exact Or.inl ⟨_, rfl, hfacts, rfl⟩

/-!
## Everybody else
-/

def ClientPc.flushing : ClientPc -> Bool
  | ClientPc.flush _ _ => true
  | _ => false

theorem enqueueStep_flushed [DecidableEq Thread] {t : Thread} {choice : Choice}
    {s s' : Shared Thread C} {ticket : Ticket} {pc : EnqueuePc} {pc' : ClientPc}
    (h : enqueueStep t choice s ticket pc = some (s', pc')) :
    pc'.flushing = false ∧ s'.history.flushed = s.history.flushed := by
  cases pc <;> simp only [enqueueStep] at h
  case notifyFlush pc =>
    rcases Option.map_eq_some_iff.mp h with ⟨⟨s1, next⟩, hstep, hpair⟩
    rcases notifyFlushStep_shape hstep with ⟨_, _, rfl⟩
    cases next <;> cases hpair
    · exact ⟨by cases C.overflowPolicy <;> rfl, rfl⟩
    · exact ⟨rfl, rfl⟩
  case deliver pc =>
    rcases Option.map_eq_some_iff.mp h with ⟨⟨s1, next⟩, hstep, hpair⟩
    rcases deliverStep_shape hstep with ⟨_, _, _, _, rfl, _⟩
    cases next <;> cases hpair <;> exact ⟨rfl, rfl⟩
  case notifyFallback pc =>
    rcases Option.map_eq_some_iff.mp h with ⟨⟨s1, next⟩, hstep, hpair⟩
    rcases notifyFlushStep_shape hstep with ⟨_, _, rfl⟩
    cases next <;> cases hpair <;> exact ⟨rfl, rfl⟩
  all_goals
    (repeat' split at h) <;> cases h <;> exact ⟨rfl, rfl⟩

theorem clientStep_flushed [DecidableEq Thread] {t : Thread} {choice : Choice}
    {s s' : Shared Thread C} {pc pc' : ClientPc} (hpc : pc.flushing = false)
    (h : clientStep t choice s pc = some (s', pc')) :
    pc'.flushing = false ∧ s'.history.flushed = s.history.flushed := by
  cases pc with
  | idle => cases h
  | enter call record =>
      cases h
      split <;> exact ⟨rfl, rfl⟩
  | enqueue ticket pc => exact enqueueStep_flushed h
  | drop call timeout holding pc =>
      rcases dropStep_shape h with ⟨⟨_, _, _, _, _, _, _, _, rfl⟩, hnext⟩
      rcases hnext with rfl | ⟨_, rfl⟩ <;> exact ⟨rfl, rfl⟩
  | flush before pc => cases hpc
  | stats loaded pc =>
      rcases statsStep_shape (Option.some.inj h) with ⟨⟨_, rfl⟩, hnext⟩
      rcases hnext with rfl | ⟨_, _, rfl⟩ <;> exact ⟨rfl, rfl⟩

theorem workerStep_flushed {choice : Choice} {s s' : Shared Thread C}
    {pc pc' : WorkerPc} (h : workerStep choice s pc = some (s', pc')) :
    s'.history.flushed = s.history.flushed := by
  rcases workerStep_shape h with ⟨_, _, _, _, _, _, _, _, _, _, _, _, rfl, _⟩
  rfl

/-!
## Every reachable state
-/

theorem mem_of_count_eq_one {calls : List Nat} {call : Nat}
    (h : calls.count call = 1) :
    call ∈ calls :=
  List.count_pos_iff.mp (h.symm ▸ Nat.one_pos)

theorem settled_of_outstanding_zero [Fintype Thread] [DecidableEq Thread]
    {s : State Thread C}
    (hsink : C.sinkPresent = true) (h : (asyncSink Thread C).Reachable s)
    (hzero : s.shared.outstanding = 0) {call : Nat}
    (hreturned : call ∈ s.shared.history.returned) :
    Settled s.shared call := by
  have hpipeline := reachable_pipeline hsink h
  rcases (reachable_outstandingCounts h).of_zero hzero with
    ⟨hsize, hworker, _⟩
  have hcontents : s.shared.queue.contents = [] :=
    (MpscBoundedQueue.contents_eq_nil_iff _).mpr hsize
  have hhand : s.worker.undelivered = [] := by
    cases hpc : s.worker with
    | deliver ticket drained pc =>
        rw [hpc] at hworker
        cases hworker
    | _ => rfl
  have hdelivered : delivered s.shared.sink = s.shared.history.accepted := by
    rw [pipeline, hhand, hcontents] at hpipeline
    simpa using hpipeline
  have hfinished := (reachable_ledger hsink h).finished hreturned
  generalize htally :
    s.shared.books.tally C.overflowPolicy call = tally at hfinished
  cases hfinished with
  | queued =>
      have hcount := congrArg Tally.accepted htally
      have hmem : call ∈ s.shared.history.accepted.map Ticket.call :=
        mem_of_count_eq_one hcount
      exact Or.inl (Or.inl (hdelivered ▸ hmem))
  | handed =>
      have hcount := congrArg Tally.fellBack htally
      exact Or.inl (Or.inr (mem_of_count_eq_one hcount))
  | lost =>
      have hdropped := congrArg Tally.dropped htally
      have hreportable := congrArg Tally.reportable htally
      exact Or.inr ⟨mem_of_count_eq_one hdropped,
        mem_of_count_eq_one hreportable⟩

structure FlushInvariant (s : State Thread C) : Prop where
  inProgress : forall t before pc, s.client t = ClientPc.flush before pc ->
    pc.Facts s.shared t before
  complete : FlushComplete s

theorem FlushInvariant.other {s s' : State Thread C} (hs : FlushInvariant s)
    (hextends : Extends s.shared s'.shared)
    (hflushed : s'.shared.history.flushed = s.shared.history.flushed)
    (hclient : forall t before pc, s'.client t = ClientPc.flush before pc ->
      s.client t = ClientPc.flush before pc ∨
        pc.Facts s'.shared t before) :
    FlushInvariant s' where
  inProgress := by
    intro t before pc hpc
    rcases hclient t before pc hpc with hold | hfacts
    · exact (hs.inProgress t before pc hold).extends hextends
    · exact hfacts
  complete := by
    intro t before hmem
    rw [hflushed] at hmem
    exact (hs.complete t before hmem).extends hextends

theorem FlushInvariant.flush [Fintype Thread] [DecidableEq Thread]
    {s : State Thread C} (hs : FlushInvariant s) (hsink : C.sinkPresent = true)
    (hreach : (asyncSink Thread C).Reachable s) {t : Thread} {choice : Choice}
    {shared : Shared Thread C} {pc' : ClientPc}
    (hflushing : (s.client t).flushing = true)
    (h : clientStep t choice s.shared (s.client t) = some (shared, pc')) :
    FlushInvariant
      { s with
        shared := shared
        client := Function.update s.client t pc' } := by
  have hextends := clientStep_extends hsink h
  cases hpc : s.client t with
  | flush before pc =>
      rw [hpc] at h
      have htraced : pc = FlushPc.report ReportPc.exchange -> forall call,
          call ∈ s.shared.history.reportable ->
            call ∈ s.shared.history.unreported ∨
              call ∈ announced s.shared.sink := by
        rintro rfl call hcall
        apply traced_of_holdsDelivery hsink hreach (Agent.client t)
        · simp [State.holdsDelivery, hpc, ClientPc.holdsDelivery,
            ReportPc.holds]
        · simp [State.inHand, hpc, ClientPc.inHand, ReportPc.inHand]
        · exact hcall
      have hnext := flushStep_facts hsink
        (reachable_reportLedger hsink hreach).counts
        (fun hzero call => settled_of_outstanding_zero hsink hreach hzero)
        htraced (hs.inProgress t before pc hpc) h
      rcases hnext with ⟨next, rfl, hfacts, hflushed⟩ | ⟨rfl, hafter, hflushed⟩
      · refine hs.other hextends hflushed fun t' before' pc' hflush => ?_
        by_cases ht : t' = t
        · subst ht
          simp only [Function.update_self] at hflush
          cases hflush
          exact Or.inr hfacts
        · simp only [Function.update_of_ne ht] at hflush
          exact Or.inl hflush
      · refine ⟨fun t' before' pc' hflush => ?_, fun t' before' hmem => ?_⟩
        · by_cases ht : t' = t
          · subst ht
            simp only [Function.update_self] at hflush
            cases hflush
          · simp only [Function.update_of_ne ht] at hflush
            exact (hs.inProgress t' before' pc' hflush).extends hextends
        · simp only [hflushed, List.mem_append, List.mem_singleton] at hmem
          rcases hmem with hold | hmine
          · exact (hs.complete t' before' hold).extends hextends
          · cases hmine
            exact hafter
  | _ =>
      rw [hpc] at hflushing
      cases hflushing

theorem flushInvariant_step [Fintype Thread] [DecidableEq Thread]
    {s s' : State Thread C} {a : Action Thread} (hsink : C.sinkPresent = true)
    (hreach : (asyncSink Thread C).Reachable s) (hs : FlushInvariant s)
    (h : s.step a = some s') :
    FlushInvariant s' := by
  have hupdate : forall {t : Thread} {pc : ClientPc} (t' : Thread)
      (before : List Nat) (pc' : FlushPc), pc.flushing = false ->
        Function.update s.client t pc t' = ClientPc.flush before pc' ->
        s.client t' = ClientPc.flush before pc' := by
    intro t pc t' before pc' hpc hflush
    by_cases ht : t' = t
    · subst ht
      rw [Function.update_self] at hflush
      rw [hflush] at hpc
      cases hpc
    · rwa [Function.update_of_ne ht] at hflush
  cases a with
  | write t record =>
      rcases State.begin_some h with ⟨_, rfl⟩
      refine hs.other (Extends.of_same rfl rfl rfl rfl) rfl ?_
      exact fun t' before pc' hflush => Or.inl (hupdate t' before pc' rfl hflush)
  | getStats t =>
      rcases State.begin_some h with ⟨_, rfl⟩
      refine hs.other (Extends.of_same rfl rfl rfl rfl) rfl ?_
      exact fun t' before pc' hflush => Or.inl (hupdate t' before pc' rfl hflush)
  | flush t =>
      rcases State.begin_some h with ⟨_, rfl⟩
      refine hs.other (Extends.of_same rfl rfl rfl rfl) rfl ?_
      intro t' before pc' hflush
      by_cases ht : t' = t
      · subst ht
        simp only [Function.update_self] at hflush
        cases hflush
        exact Or.inr fun call => id
      · simp only [Function.update_of_ne ht] at hflush
        exact Or.inl hflush
  | client t choice =>
      rcases Option.map_eq_some_iff.mp h with ⟨⟨shared, pc⟩, hclient, rfl⟩
      have hextends := clientStep_extends hsink hclient
      cases hflushing : (s.client t).flushing with
      | true => exact hs.flush hsink hreach hflushing hclient
      | false =>
          rcases clientStep_flushed hflushing hclient with ⟨hpc, hflushed⟩
          exact hs.other hextends hflushed fun t' before pc' hflush =>
            Or.inl (hupdate t' before pc' hpc hflush)
  | worker choice =>
      rcases Option.map_eq_some_iff.mp h with ⟨⟨shared, pc⟩, hworker, rfl⟩
      exact hs.other (workerStep_extends hsink hworker)
        (workerStep_flushed hworker) fun t before pc' hflush => Or.inl hflush
  | owner =>
      rcases Option.map_eq_some_iff.mp h with ⟨⟨shared, pc⟩, howner, rfl⟩
      rcases ownerStep_shape howner with ⟨_, _, _, rfl⟩
      exact hs.other (Extends.of_same rfl rfl rfl rfl) rfl
        fun t before pc' hflush => Or.inl hflush

theorem reachable_flushInvariant [Fintype Thread] [DecidableEq Thread]
    {s : State Thread C} (hsink : C.sinkPresent = true)
    (h : (asyncSink Thread C).Reachable s) :
    FlushInvariant s := by
  refine Machine.invariant (P := FlushInvariant) ?_
    (fun s a s' hreach hs hstep => ?_) h
  · exact ⟨fun t before pc hflush => (by cases hflush),
      fun t before hmem => (by cases hmem)⟩
  · exact flushInvariant_step hsink hreach hs hstep

/-!
## The counter covers what is on its way
-/

def ClientPc.fallingBack : ClientPc -> Nat
  | ClientPc.enqueue _ EnqueuePc.countFallback => 1
  | ClientPc.enqueue _ (EnqueuePc.deliver pc) => if pc.handed then 0 else 1
  | _ => 0

/--
`m_outstanding` is at least the number of queued records, of records dequeued
and not yet delivered, and of records taken for fallback and not yet delivered.
-/
def OutstandingCovers [Fintype Thread] (s : State Thread C) : Prop :=
  (s.shared.queue.contents.length : Int) + s.worker.undelivered.length +
    ∑ t, ((s.client t).fallingBack : Int) ≤ s.shared.outstanding

theorem ClientPc.fallingBack_le_owes (pc : ClientPc) :
    (pc.fallingBack : Int) ≤ pc.owes := by
  cases pc with
  | enqueue ticket pc =>
      cases pc with
      | deliver pc =>
          cases hpc : pc.handed <;>
            simp [ClientPc.fallingBack, ClientPc.owes, EnqueuePc.owes, hpc]
      | _ => simp [ClientPc.fallingBack, ClientPc.owes, EnqueuePc.owes]
  | _ => exact Int.le_refl 0

theorem WorkerPc.undelivered_le_owes (pc : WorkerPc) :
    (pc.undelivered.length : Int) ≤ pc.owes := by
  cases pc with
  | deliver ticket drained pc =>
      have hle := (WorkerPc.deliver ticket drained pc).undelivered_length
      simp only [WorkerPc.owes]
      omega
  | _ => exact WorkerPc.owes_nonneg _

theorem reachable_outstandingCovers [Fintype Thread] [DecidableEq Thread]
    {s : State Thread C} (h : (asyncSink Thread C).Reachable s) :
    OutstandingCovers s := by
  have hcounts := reachable_outstandingCounts h
  have hworker := s.worker.undelivered_le_owes
  have hclients : (∑ t, ((s.client t).fallingBack : Int)) ≤
      ∑ t, (s.client t).owes :=
    Finset.sum_le_sum fun t _ => (s.client t).fallingBack_le_owes
  unfold OutstandingCounts at hcounts
  unfold OutstandingCovers
  rw [MpscBoundedQueue.contents_length]
  omega

theorem OutstandingCovers.nonneg [Fintype Thread] {s : State Thread C}
    (h : OutstandingCovers s) :
    0 ≤ s.shared.outstanding := by
  have hclients : (0 : Int) ≤ ∑ t, ((s.client t).fallingBack : Int) :=
    Finset.sum_nonneg fun t _ => Int.natCast_nonneg _
  unfold OutstandingCovers at h
  omega

/--
In every reachable state the counter covers what is on its way, and every flush
that has returned has flushed the wrapped sink after concluding every call that
had returned before it began.
-/
theorem flush_complete (Thread : Type) [Fintype Thread] [DecidableEq Thread]
    (C : AsyncSinkConfig) (hsink : C.sinkPresent = true)
    (s : State Thread C) (h : (asyncSink Thread C).Reachable s) :
    OutstandingCovers s ∧ 0 ≤ s.shared.outstanding ∧
      s.shared.totalDropped = s.shared.history.dropped.length ∧
      FlushComplete s :=
  ⟨reachable_outstandingCovers h, (reachable_outstandingCovers h).nonneg,
    (reachable_ledger hsink h).counted,
    (reachable_flushInvariant hsink h).complete⟩

def flushedRun : List (Action Bool) :=
  Action.write false {} :: List.replicate 8 (Action.client false Choice.plain) ++
    List.replicate 9 (Action.worker Choice.plain) ++
    Action.flush true :: List.replicate 11 (Action.client true Choice.plain)

theorem flushedRun_complete :
    exists s : State Bool (smallSink AsyncOverflowPolicy.dropNewest),
      s.shared.history.flushed = [(true, [0])] ∧ FlushComplete s := by
  have hrun : ((asyncSink Bool (smallSink AsyncOverflowPolicy.dropNewest)).run
      flushedRun).any (fun s => s.shared.history.flushed == [(true, [0])]) =
        true := by
    decide
  rcases Machine.exists_reachable_of_run hrun with ⟨s, hreachable, htest⟩
  exact ⟨s, eq_of_beq htest,
    (flush_complete Bool _ rfl s hreachable).2.2.2⟩

end Async
end NginLog
