import Mathlib.Algebra.BigOperators.Ring.Finset
import NginLog.Async.Accounting
import NginLog.Foundation.Watermark

/-!
# Snapshots of the statistics

`GetStats` reads eight counters one after the other while the other threads
raise them, so a snapshot mixes different moments.  What it says can be off, but
by no more than the number of calls of `Write` that overlap the call of
`GetStats`.
-/

namespace NginLog
namespace Async

open Foundation

variable {Thread : Type} {C : AsyncSinkConfig}

/-!
## What a call of `Write` contributes

A call is counted at most once, and only while it is open.
-/

def ClientPc.isOpen (pc : ClientPc) : Int :=
  if pc.call?.isSome then 1 else 0

def ClientPc.uncounted : ClientPc -> Int
  | ClientPc.enqueue _ EnqueuePc.countEnqueued => 1
  | _ => 0

def EnqueuePc.stage : EnqueuePc -> Watermark.Stage
  | EnqueuePc.countEnqueued => Watermark.Stage.entered
  | EnqueuePc.sampleDepth => Watermark.Stage.entered
  | EnqueuePc.loadWatermark depth => Watermark.Stage.sampled depth
  | EnqueuePc.exchangeWatermark depth _ => Watermark.Stage.sampled depth
  | _ => Watermark.Stage.idle

def ClientPc.stage : ClientPc -> Watermark.Stage
  | ClientPc.enqueue _ pc => pc.stage
  | _ => Watermark.Stage.idle

/-- The value to exchange is one that the mark has had. -/
def ClientPc.Fresh (mark : Nat) : ClientPc -> Prop
  | ClientPc.enqueue _ (EnqueuePc.exchangeWatermark _ current) => current ≤ mark
  | _ => True

theorem ClientPc.Fresh.mono {mark mark' : Nat} {pc : ClientPc}
    (h : pc.Fresh mark) (hmark : mark ≤ mark') :
    pc.Fresh mark' := by
  unfold ClientPc.Fresh at h ⊢
  split
  · exact Nat.le_trans h hmark
  · trivial

theorem ClientPc.counted_bounds (pc : ClientPc) :
    0 ≤ pc.counted ∧ pc.counted + pc.uncounted ≤ pc.isOpen ∧
      pc.counted + pc.ahead ≤ pc.isOpen ∧
      pc.stage.busy ≤ pc.counted + pc.uncounted := by
  cases pc with
  | enqueue ticket pc =>
      cases pc <;>
        simp [ClientPc.counted, EnqueuePc.counted, ClientPc.uncounted,
          ClientPc.isOpen, ClientPc.call?, ClientPc.ahead, EnqueuePc.ahead,
          ClientPc.stage, EnqueuePc.stage, Watermark.Stage.busy]
  | drop call timeout holding pc =>
      cases pc <;>
        simp [ClientPc.counted, ClientPc.uncounted, ClientPc.isOpen,
          ClientPc.call?, ClientPc.ahead, ClientPc.stage, Watermark.Stage.busy]
  | _ =>
      simp [ClientPc.counted, ClientPc.uncounted, ClientPc.isOpen,
        ClientPc.call?, ClientPc.ahead, ClientPc.stage, Watermark.Stage.busy]

/-!
## Counters that only grow
-/

def Shared.gauges (s : Shared Thread C) : AsyncSinkStats where
  enqueued := s.totalEnqueued
  delivered := s.totalDelivered
  dropped := s.totalDropped
  timeoutDropped := s.timeoutDropped
  fallbackWrites := s.fallbackWrites
  queueHighWatermark := s.queueHighWatermark
  currentApproxDepth := s.queue.size

/-- What holds of the counters at two moments of a run, in this order. -/
structure Later (s s' : Shared Thread C) : Prop where
  enqueued : s.totalEnqueued ≤ s'.totalEnqueued
  delivered : s.totalDelivered ≤ s'.totalDelivered
  dropped : s.totalDropped ≤ s'.totalDropped
  timeouts : s.timeoutDropped ≤ s'.timeoutDropped
  fallbacks : s.fallbackWrites ≤ s'.fallbackWrites
  watermark : s.queueHighWatermark ≤ s'.queueHighWatermark
  entered : s'.queue.size + s.history.accepted.length ≤
    s.queue.size + s'.history.accepted.length

theorem Later.of_gauges {s s' : Shared Thread C} (h : s'.gauges = s.gauges)
    (haccepted : s'.history.accepted = s.history.accepted) :
    Later s s' where
  enqueued := Nat.le_of_eq (congrArg AsyncSinkStats.enqueued h).symm
  delivered := Nat.le_of_eq (congrArg AsyncSinkStats.delivered h).symm
  dropped := Nat.le_of_eq (congrArg AsyncSinkStats.dropped h).symm
  timeouts := Nat.le_of_eq (congrArg AsyncSinkStats.timeoutDropped h).symm
  fallbacks := Nat.le_of_eq (congrArg AsyncSinkStats.fallbackWrites h).symm
  watermark := Nat.le_of_eq (congrArg AsyncSinkStats.queueHighWatermark h).symm
  entered := by
    have hsize : s'.queue.size = s.queue.size :=
      congrArg AsyncSinkStats.currentApproxDepth h
    rw [hsize, haccepted]

theorem Later.trans {s s' s'' : Shared Thread C} (h : Later s s')
    (h' : Later s' s'') :
    Later s s'' where
  enqueued := Nat.le_trans h.enqueued h'.enqueued
  delivered := Nat.le_trans h.delivered h'.delivered
  dropped := Nat.le_trans h.dropped h'.dropped
  timeouts := Nat.le_trans h.timeouts h'.timeouts
  fallbacks := Nat.le_trans h.fallbacks h'.fallbacks
  watermark := Nat.le_trans h.watermark h'.watermark
  entered := by
    have hfirst := h.entered
    have hsecond := h'.entered
    omega

theorem deliverStep_later {me : Agent Thread} {event : SinkEvent Thread}
    {choice : Choice} {s s' : Shared Thread C} {pc : DeliverPc}
    {next : Option DeliverPc}
    (h : deliverStep me event choice s pc = some (s', next)) :
    Later s s' := by
  cases pc <;> simp only [deliverStep] at h
  case lock =>
    split at h <;> cases h
    exact Later.of_gauges rfl rfl
  case countDelivered =>
    cases h
    exact ⟨le_refl _, Nat.le_succ _, le_refl _, le_refl _, le_refl _,
      le_refl _, le_refl _⟩
  all_goals
    cases h
    exact Later.of_gauges rfl rfl

/-!
## One step of a client

The mark is raised, left alone, or was moved by another client meanwhile.
-/

structure Tracked (s s' : Shared Thread C) (pc pc' : ClientPc) : Prop where
  calls : s'.history.calls = s.history.calls
  returned : (s'.history.returned.length : Int) + pc'.isOpen =
    s.history.returned.length + pc.isOpen
  accepted :
    (s'.history.accepted.length : Int) - s'.totalEnqueued - pc'.uncounted =
      s.history.accepted.length - s.totalEnqueued - pc.uncounted
  watermark : Watermark.Move s.queue.size s.queueHighWatermark pc.stage pc'.stage
    s'.queue.size s'.queueHighWatermark
  fresh : pc'.Fresh s'.queueHighWatermark
  later : Later s s'

theorem Tracked.of_later {s s' : Shared Thread C} {pc pc' : ClientPc}
    (hlater : Later s s') (hcalls : s'.history.calls = s.history.calls)
    (hreturned : (s'.history.returned.length : Int) + pc'.isOpen =
      s.history.returned.length + pc.isOpen)
    (haccepted : s'.history.accepted = s.history.accepted)
    (henqueued : s'.totalEnqueued = s.totalEnqueued)
    (hsize : s'.queue.size = s.queue.size)
    (hmark : s'.queueHighWatermark = s.queueHighWatermark)
    (huncounted : pc'.uncounted = pc.uncounted) (hstage : pc'.stage = pc.stage)
    (hfresh : pc'.Fresh s'.queueHighWatermark) :
    Tracked s s' pc pc' where
  calls := hcalls
  returned := hreturned
  accepted := by rw [haccepted, henqueued, huncounted]
  watermark := by
    rw [hsize, hmark, hstage]
    exact Watermark.Move.stay (Nat.le_refl _)
  fresh := hfresh
  later := hlater

theorem Tracked.of_gauges {s s' : Shared Thread C} {pc pc' : ClientPc}
    (h : s'.gauges = s.gauges) (hcalls : s'.history.calls = s.history.calls)
    (hreturned : (s'.history.returned.length : Int) + pc'.isOpen =
      s.history.returned.length + pc.isOpen)
    (haccepted : s'.history.accepted = s.history.accepted)
    (huncounted : pc'.uncounted = pc.uncounted) (hstage : pc'.stage = pc.stage)
    (hfresh : pc'.Fresh s'.queueHighWatermark) :
    Tracked s s' pc pc' :=
  Tracked.of_later (Later.of_gauges h haccepted) hcalls hreturned haccepted
    (congrArg AsyncSinkStats.enqueued h)
    (congrArg AsyncSinkStats.currentApproxDepth h)
    (congrArg AsyncSinkStats.queueHighWatermark h) huncounted hstage hfresh

theorem Tracked.of_return {s s' : Shared Thread C} {pc : ClientPc} {call : Nat}
    (h : s'.gauges = s.gauges) (hcalls : s'.history.calls = s.history.calls)
    (haccepted : s'.history.accepted = s.history.accepted)
    (hreturned : s'.history.returned = s.history.returned ++ [call])
    (hopen : pc.isOpen = 1) (huncounted : pc.uncounted = 0)
    (hstage : pc.stage = Watermark.Stage.idle) :
    Tracked s s' pc ClientPc.idle := by
  have hidle : ClientPc.idle.uncounted = pc.uncounted := huncounted.symm
  have hdone : ClientPc.idle.stage = pc.stage := hstage.symm
  apply Tracked.of_gauges h hcalls _ haccepted hidle hdone trivial
  rw [hreturned, hopen, List.length_append, List.length_singleton, Nat.cast_add]
  exact Int.add_zero _

section

variable [DecidableEq Thread]

theorem tryEnqueue_tracked {t : Thread} {choice : Choice}
    {s s' : Shared Thread C} {ticket : Ticket} {pc' : ClientPc}
    (h : enqueueStep t choice s ticket EnqueuePc.tryEnqueue = some (s', pc')) :
    Tracked s s' (ClientPc.enqueue ticket EnqueuePc.tryEnqueue) pc' := by
  simp only [enqueueStep] at h
  split at h
  · rename_i htry
    have hsize := (MpscBoundedQueue.contents_tryEnqueue htry).2.2.1
    cases h
    refine ⟨rfl, rfl, ?_, ?_, trivial, ?_⟩
    · simp only [ClientPc.uncounted, List.length_append, List.length_singleton]
      omega
    · simp only [hsize]
      exact Watermark.Move.enter
    · refine ⟨le_refl _, le_refl _, le_refl _, le_refl _, le_refl _,
        le_refl _, ?_⟩
      simp only [hsize, List.length_append, List.length_singleton]
      omega
  · rename_i htry
    have hsame := (MpscBoundedQueue.tryEnqueue_false htry).1
    cases h
    exact Tracked.of_gauges (by simp only [Shared.gauges, hsame]) rfl rfl rfl
      rfl rfl trivial

theorem exchangeWatermark_tracked {t : Thread} {choice : Choice}
    {s s' : Shared Thread C} {ticket : Ticket} {depth current : Nat}
    {pc' : ClientPc} (hcurrent : current ≤ s.queueHighWatermark)
    (h : enqueueStep t choice s ticket
      (EnqueuePc.exchangeWatermark depth current) = some (s', pc')) :
    Tracked s s'
      (ClientPc.enqueue ticket (EnqueuePc.exchangeWatermark depth current))
      pc' := by
  have hmove :=
    @Watermark.Move.leave s.queue.size s.queueHighWatermark depth
  simp only [enqueueStep] at h
  split at h
  · split at h
    · rename_i hgreater hexchange
      cases h
      have hmax : max s.queueHighWatermark depth = depth := by omega
      rw [hmax] at hmove
      refine ⟨rfl, rfl, rfl, hmove, trivial, ?_⟩
      refine ⟨le_refl _, le_refl _, le_refl _, le_refl _, le_refl _, ?_,
        le_refl _⟩
      simp only
      omega
    · cases h
      exact Tracked.of_gauges rfl rfl rfl rfl rfl rfl
        (le_refl s.queueHighWatermark)
  · rename_i hgreater
    cases h
    have hmax : max s.queueHighWatermark depth = s.queueHighWatermark := by
      omega
    rw [hmax] at hmove
    exact ⟨rfl, rfl, rfl, hmove, trivial, Later.of_gauges rfl rfl⟩

theorem enqueueStep_tracked {t : Thread} {choice : Choice}
    {s s' : Shared Thread C} {ticket : Ticket} {pc : EnqueuePc} {pc' : ClientPc}
    (hfresh : (ClientPc.enqueue ticket pc).Fresh s.queueHighWatermark)
    (h : enqueueStep t choice s ticket pc = some (s', pc')) :
    Tracked s s' (ClientPc.enqueue ticket pc) pc' := by
  cases pc
  case tryEnqueue => exact tryEnqueue_tracked h
  case exchangeWatermark depth current =>
    exact exchangeWatermark_tracked hfresh h
  all_goals simp only [enqueueStep] at h
  case notifyFlush pc =>
    rcases Option.map_eq_some_iff.mp h with ⟨⟨s1, next⟩, hstep, hpair⟩
    rcases notifyFlushStep_shape hstep with ⟨_, _, rfl⟩
    cases next <;> cases hpair
    · exact Tracked.of_gauges rfl rfl
        (by rw [afterRejection_eq ClientPc.isOpen rfl rfl rfl]; rfl) rfl
        (afterRejection_eq ClientPc.uncounted rfl rfl rfl)
        (afterRejection_eq ClientPc.stage rfl rfl rfl)
        (afterRejection_eq (ClientPc.Fresh _) rfl rfl rfl ▸ trivial)
    · exact Tracked.of_gauges rfl rfl rfl rfl rfl rfl trivial
  case countEnqueued =>
    cases h
    refine ⟨rfl, rfl, ?_, Watermark.Move.stay (le_refl _), trivial, ?_⟩
    · simp only [ClientPc.uncounted]
      omega
    · exact ⟨Nat.le_succ _, le_refl _, le_refl _, le_refl _, le_refl _,
        le_refl _, le_refl _⟩
  case sampleDepth =>
    cases h
    exact ⟨rfl, rfl, rfl, Watermark.Move.sample, trivial,
      Later.of_gauges rfl rfl⟩
  case loadWatermark depth =>
    cases h
    exact Tracked.of_gauges rfl rfl rfl rfl rfl rfl (le_refl s.queueHighWatermark)
  case notifyWake =>
    cases h
    exact Tracked.of_return rfl rfl rfl rfl rfl rfl rfl
  case countFallback =>
    cases h
    refine Tracked.of_later ?_ rfl rfl rfl rfl rfl rfl rfl rfl trivial
    exact ⟨le_refl _, le_refl _, le_refl _, le_refl _, Nat.le_succ _,
      le_refl _, le_refl _⟩
  case deliver pc =>
    rcases Option.map_eq_some_iff.mp h with ⟨⟨s1, next⟩, hstep, hpair⟩
    have hlater := deliverStep_later hstep
    rcases deliverStep_shape hstep with ⟨_, _, _, _, rfl, _⟩
    cases next <;> cases hpair <;>
      exact Tracked.of_later hlater rfl rfl rfl rfl rfl rfl rfl rfl trivial
  case notifyFallback pc =>
    rcases Option.map_eq_some_iff.mp h with ⟨⟨s1, next⟩, hstep, hpair⟩
    rcases notifyFlushStep_shape hstep with ⟨_, _, rfl⟩
    cases next <;> cases hpair
    · exact Tracked.of_return rfl rfl rfl rfl rfl rfl rfl
    · exact Tracked.of_gauges rfl rfl rfl rfl rfl rfl trivial
  all_goals
    (repeat' split at h) <;> cases h <;>
      exact Tracked.of_gauges rfl rfl rfl rfl rfl rfl trivial

omit [DecidableEq Thread] in
theorem dropStep_tracked {s s' : Shared Thread C} {call : Nat}
    {timeout holding : Bool} {pc : DropPc} {pc' : ClientPc}
    (h : dropStep s call timeout holding pc = some (s', pc')) :
    Tracked s s' (ClientPc.drop call timeout holding pc) pc' := by
  cases pc <;> simp only [dropStep] at h
  case total =>
    cases h
    refine Tracked.of_later ?_ rfl rfl rfl rfl rfl rfl rfl rfl trivial
    exact ⟨le_refl _, le_refl _, Nat.le_succ _, le_refl _, le_refl _,
      le_refl _, le_refl _⟩
  case unreported =>
    cases timeout <;> cases holding <;> cases h
    · exact Tracked.of_return rfl rfl rfl rfl rfl rfl rfl
    · exact Tracked.of_gauges rfl rfl rfl rfl rfl rfl trivial
    · exact Tracked.of_gauges rfl rfl rfl rfl rfl rfl trivial
    · exact Tracked.of_gauges rfl rfl rfl rfl rfl rfl trivial
  case timeout =>
    have hlater : forall history, Later s
        { s with
          timeoutDropped := s.timeoutDropped + 1
          history := { s.history with returned := history } } := fun _ =>
      ⟨le_refl _, le_refl _, le_refl _, Nat.le_succ _, le_refl _, le_refl _,
        le_refl _⟩
    cases holding <;> cases h
    · refine Tracked.of_later (hlater _) rfl ?_ rfl rfl rfl rfl rfl rfl trivial
      simp [ClientPc.isOpen, ClientPc.call?]
    · exact Tracked.of_later (hlater s.history.returned) rfl rfl rfl rfl rfl rfl
        rfl rfl trivial
  case unlock =>
    cases h
    exact Tracked.of_return rfl rfl rfl rfl rfl rfl rfl

theorem clientStep_tracked {t : Thread} {choice : Choice}
    {s s' : Shared Thread C} {pc pc' : ClientPc}
    (hfresh : pc.Fresh s.queueHighWatermark)
    (h : clientStep t choice s pc = some (s', pc')) :
    Tracked s s' pc pc' := by
  cases pc with
  | idle => cases h
  | enter call record =>
      cases h
      split
      · exact Tracked.of_gauges rfl rfl
          (by rw [enqueueEntry_eq ClientPc.isOpen rfl rfl]; rfl) rfl
          (enqueueEntry_eq ClientPc.uncounted rfl rfl)
          (enqueueEntry_eq ClientPc.stage rfl rfl)
          (enqueueEntry_eq (ClientPc.Fresh _) rfl rfl ▸ trivial)
      · exact Tracked.of_gauges rfl rfl rfl rfl rfl rfl trivial
  | enqueue ticket pc => exact enqueueStep_tracked hfresh h
  | drop call timeout holding pc => exact dropStep_tracked h
  | flush before pc =>
      rcases flushStep_shape h with ⟨⟨_, _, _, _, _, _, _, _, rfl, _⟩, hpc⟩
      rcases hpc with rfl | ⟨_, rfl⟩ <;>
        exact Tracked.of_gauges rfl rfl rfl rfl rfl rfl trivial
  | stats loaded pc =>
      rcases statsStep_shape (Option.some.inj h) with ⟨⟨_, rfl⟩, hpc⟩
      rcases hpc with rfl | ⟨_, _, rfl⟩ <;>
        exact Tracked.of_gauges rfl rfl rfl rfl rfl rfl trivial

end

theorem workerStep_size_le {choice : Choice} {s s' : Shared Thread C}
    {pc pc' : WorkerPc} (h : workerStep choice s pc = some (s', pc')) :
    s'.queue.size ≤ s.queue.size ∧ s.totalDelivered ≤ s'.totalDelivered := by
  cases pc <;> simp only [workerStep] at h
  case dequeue drained =>
    split at h
    · split at h
      · rename_i hdequeue
        have hsize := (MpscBoundedQueue.contents_tryDequeue hdequeue).2
        cases h
        exact ⟨by simp only; omega, le_refl _⟩
      · rename_i hdequeue
        have hsame := (MpscBoundedQueue.tryDequeue_false hdequeue).1
        cases h
        exact ⟨by rw [hsame], le_refl _⟩
    · cases h
      exact ⟨le_refl _, le_refl _⟩
  case deliver ticket drained pc =>
    rcases Option.map_eq_some_iff.mp h with ⟨⟨s1, next⟩, hstep, hpair⟩
    have hlater := deliverStep_later hstep
    rcases deliverStep_shape hstep with ⟨_, _, _, _, rfl, _⟩
    cases hpair
    exact ⟨le_refl _, hlater.delivered⟩
  case report drained pc | lastReport pc =>
    rcases Option.map_eq_some_iff.mp h with ⟨⟨s1, next⟩, hstep, hpair⟩
    rcases reportStep_shape hstep with ⟨_, _, _, _, _, rfl, _⟩
    cases hpair
    exact ⟨le_refl _, le_refl _⟩
  case notifyFlush drained pc | lastNotify pc =>
    rcases Option.map_eq_some_iff.mp h with ⟨⟨s1, next⟩, hstep, hpair⟩
    rcases notifyFlushStep_shape hstep with ⟨_, _, rfl⟩
    cases hpair
    exact ⟨le_refl _, le_refl _⟩
  case lastFlush pc =>
    rcases Option.map_eq_some_iff.mp h with ⟨⟨s1, next⟩, hstep, hpair⟩
    rcases flushSinkStep_shape hstep with ⟨_, _, _, rfl, _⟩
    cases hpair
    exact ⟨le_refl _, le_refl _⟩
  all_goals
    (repeat' split at h) <;> cases h <;> exact ⟨le_refl _, le_refl _⟩

theorem workerStep_later {choice : Choice} {s s' : Shared Thread C}
    {pc pc' : WorkerPc} (h : workerStep choice s pc = some (s', pc')) :
    Later s s' := by
  rcases workerStep_size_le h with ⟨hsize, hdelivered⟩
  rcases workerStep_shape h with ⟨_, _, _, _, _, _, _, _, _, _, _, _, rfl, _⟩
  exact ⟨le_refl _, hdelivered, le_refl _, le_refl _, le_refl _, le_refl _,
    Nat.add_le_add_right hsize _⟩

/-!
## The counters in every reachable state
-/

structure Bounded (s : Shared Thread C) : Prop where
  returned_le : s.history.returned.length ≤
    s.totalEnqueued + s.totalDropped + s.fallbackWrites
  delivered_le : s.totalDelivered + s.totalDropped ≤ s.history.calls.length
  timeouts_le : s.timeoutDropped ≤ s.totalDropped
  counted_le : s.totalEnqueued + s.totalDropped + s.fallbackWrites ≤
    s.history.calls.length
  entered_le : s.history.accepted.length + s.totalDropped + s.fallbackWrites ≤
    s.history.calls.length
  size_le : s.queue.size + s.history.returned.length ≤
    s.queueHighWatermark + s.history.accepted.length + s.totalDropped +
      s.fallbackWrites
  watermark_le : s.queueHighWatermark ≤ C.queueCapacity

section

variable [Fintype Thread] [DecidableEq Thread]

structure Gauged (s : State Thread C) : Prop where
  calls : (s.shared.history.calls.length : Int) =
    s.shared.history.returned.length + ∑ t, (s.client t).isOpen
  accepted : (s.shared.history.accepted.length : Int) =
    s.shared.totalEnqueued + ∑ t, (s.client t).uncounted
  covered : Watermark.Covered s.shared.queue.size s.shared.queueHighWatermark
    fun t => (s.client t).stage
  watermark_le : s.shared.queueHighWatermark ≤ C.queueCapacity
  depth_le : forall t, (s.client t).stage.depth ≤ C.queueCapacity
  fresh : forall t, (s.client t).Fresh s.shared.queueHighWatermark

theorem Gauged.client {s : State Thread C} {t : Thread}
    {shared : Shared Thread C} {pc : ClientPc} (hs : Gauged s)
    (h : Tracked s.shared shared (s.client t) pc) :
    Gauged
      { s with shared := shared, client := Function.update s.client t pc } := by
  have hbounded := h.watermark.bounded s.shared.queue.size_le hs.watermark_le
    (hs.depth_le t)
  constructor
  · have hcalls := hs.calls
    have hreturned := h.returned
    rw [sum_update s.client t pc ClientPc.isOpen]
    simp only [h.calls]
    omega
  · have haccepted := hs.accepted
    have hstep := h.accepted
    rw [sum_update s.client t pc ClientPc.uncounted]
    simp only
    omega
  · have hcovered := hs.covered.move h.watermark
    simp only [Function.apply_update (fun _ => ClientPc.stage)]
    exact hcovered
  · exact hbounded.1
  · intro t'
    by_cases ht : t' = t
    · subst ht
      simpa using hbounded.2
    · simpa [ht] using hs.depth_le t'
  · intro t'
    by_cases ht : t' = t
    · subst ht
      simpa using h.fresh
    · simpa [ht] using (hs.fresh t').mono h.later.watermark

theorem Gauged.begin {s : State Thread C} {t : Thread}
    {record : Record.LogRecordView}
    (hs : Gauged s) (hidle : s.client t = ClientPc.idle) :
    Gauged
      { s with
        shared := { s.shared with
          history := { s.shared.history with
            calls := s.shared.history.calls ++
              [{ thread := t, record := record }] } }
        client := Function.update s.client t
          (ClientPc.enter s.shared.history.calls.length record) } := by
  have hcalls := hs.calls
  have hstage : (s.client t).stage =
      (ClientPc.enter s.shared.history.calls.length record).stage := by
    rw [hidle]
    rfl
  refine ⟨?_, ?_, ?_, hs.watermark_le, fun t' => ?_, fun t' => ?_⟩
  · rw [sum_update s.client t _ ClientPc.isOpen, hidle]
    simp [ClientPc.isOpen, ClientPc.call?] at hcalls ⊢
    omega
  · rw [sum_update s.client t _ ClientPc.uncounted, hidle]
    simpa [ClientPc.uncounted] using hs.accepted
  · simp only [Function.apply_update (fun _ => ClientPc.stage)]
    rw [← hstage, Function.update_eq_self]
    exact hs.covered
  · by_cases ht : t' = t
    · subst ht
      simp [ClientPc.stage, Watermark.Stage.depth]
    · simpa [ht] using hs.depth_le t'
  · by_cases ht : t' = t
    · subst ht
      simp [ClientPc.Fresh]
    · simpa [ht] using hs.fresh t'

theorem reachable_gauged {s : State Thread C}
    (h : (asyncSink Thread C).Reachable s) :
    Gauged s := by
  refine Machine.invariant (P := Gauged) ?_ (fun s a s' _ hs hstep => ?_) h
  · constructor
    · simp [asyncSink, ClientPc.isOpen, ClientPc.call?]
    · simp [asyncSink, ClientPc.uncounted]
    · exact fun left _ => Nat.zero_le _
    · exact Nat.zero_le _
    · exact fun _ => Nat.zero_le _
    · exact fun _ => trivial
  cases a with
  | write t record =>
      rcases State.begin_some hstep with ⟨hidle, rfl⟩
      exact hs.begin hidle
  | flush t =>
      rcases State.begin_some hstep with ⟨hidle, rfl⟩
      apply hs.client
      rw [hidle]
      exact Tracked.of_gauges rfl rfl rfl rfl rfl rfl trivial
  | getStats t =>
      rcases State.begin_some hstep with ⟨hidle, rfl⟩
      apply hs.client
      rw [hidle]
      exact Tracked.of_gauges rfl rfl rfl rfl rfl rfl trivial
  | client t choice =>
      rcases Option.map_eq_some_iff.mp hstep with ⟨⟨shared, pc⟩, hclient, rfl⟩
      exact hs.client (clientStep_tracked (hs.fresh t) hclient)
  | worker choice =>
      rcases Option.map_eq_some_iff.mp hstep with ⟨⟨shared, pc⟩, hworker, rfl⟩
      have hsize := (workerStep_size_le hworker).1
      rcases workerStep_shape hworker with
        ⟨_, _, _, _, _, _, _, _, _, _, _, _, rfl, _⟩
      exact ⟨hs.calls, hs.accepted, hs.covered.mono hsize, hs.watermark_le,
        hs.depth_le, hs.fresh⟩
  | owner =>
      rcases Option.map_eq_some_iff.mp hstep with ⟨⟨shared, pc⟩, howner, rfl⟩
      rcases ownerStep_shape howner with ⟨_, _, _, rfl⟩
      exact ⟨hs.calls, hs.accepted, hs.covered, hs.watermark_le, hs.depth_le,
        hs.fresh⟩

theorem reachable_bounded {s : State Thread C}
    (h : (asyncSink Thread C).Reachable s) :
    Bounded s.shared := by
  rcases reachable_exists_balances h with ⟨failed, hbalances⟩
  have hgauged := reachable_gauged h
  have hcalls := hbalances.calls
  have hrecords := hbalances.records
  have htimeouts := hbalances.timeouts
  have hopen := hgauged.calls
  have haccepted := hgauged.accepted
  have hcovered := hgauged.covered.size_le
  unfold Shared.openCalls at hcalls
  unfold Shared.unaccounted at hrecords
  unfold Shared.untimed at htimeouts
  have hlate : 0 ≤ ∑ t, (s.client t).late :=
    Finset.sum_nonneg fun t _ => (s.client t).late_nonneg
  have hcounted : 0 ≤ ∑ t, (s.client t).counted :=
    Finset.sum_nonneg fun t _ => (s.client t).counted_bounds.1
  have huncounted : (∑ t, (s.client t).counted) + (∑ t, (s.client t).uncounted) ≤
      ∑ t, (s.client t).isOpen := by
    rw [← Finset.sum_add_distrib]
    exact Finset.sum_le_sum fun t _ => (s.client t).counted_bounds.2.1
  have hahead : (∑ t, (s.client t).counted) + (∑ t, (s.client t).ahead) ≤
      ∑ t, (s.client t).isOpen := by
    rw [← Finset.sum_add_distrib]
    exact Finset.sum_le_sum fun t _ => (s.client t).counted_bounds.2.2.1
  have hbusy : ((∑ t, (s.client t).stage.busy : Nat) : Int) ≤
      (∑ t, (s.client t).counted) + (∑ t, (s.client t).uncounted) := by
    rw [← Finset.sum_add_distrib, Nat.cast_sum]
    exact Finset.sum_le_sum fun t _ => (s.client t).counted_bounds.2.2.2
  have hnonneg : 0 ≤ ∑ t, (s.client t).uncounted :=
    Finset.sum_nonneg fun t _ => by
      unfold ClientPc.uncounted
      split <;> decide
  constructor
  · omega
  · omega
  · omega
  · omega
  · omega
  · omega
  · exact hgauged.watermark_le

end

/-!
## Calls of `GetStats`

A client outside `GetStats` observes nothing.  One load keeps what the earlier
ones have found, and only the last one makes a snapshot.
-/

/-- The loads that a call of `GetStats` has made. -/
def StatsPc.done : StatsPc -> Nat
  | StatsPc.loadEnqueued => 0
  | StatsPc.loadDelivered => 1
  | StatsPc.loadDropped => 2
  | StatsPc.loadTimeoutDropped => 3
  | StatsPc.loadFallbackWrites => 4
  | StatsPc.loadErrors => 5
  | StatsPc.loadHighWatermark => 6
  | StatsPc.loadDepth => 7

/--
What a call that began at `first` has loaded by now: of the counters that should
be large at least the first value, of the others at most the present one.
-/
structure Loaded (first s : Shared Thread C) (loaded : AsyncSinkStats)
    (pc : StatsPc) : Prop where
  bounded : Bounded first
  later : Later first s
  delivered : loaded.delivered ≤ s.totalDelivered
  timeouts : loaded.timeoutDropped ≤ s.timeoutDropped
  watermark_le : loaded.queueHighWatermark ≤ C.queueCapacity
  enqueued : 0 < pc.done -> first.totalEnqueued ≤ loaded.enqueued
  dropped : 2 < pc.done -> first.totalDropped ≤ loaded.dropped
  fallbacks : 4 < pc.done -> first.fallbackWrites ≤ loaded.fallbackWrites
  watermark : 6 < pc.done ->
    first.queueHighWatermark ≤ loaded.queueHighWatermark

theorem Loaded.mono {first s s' : Shared Thread C} {loaded : AsyncSinkStats}
    {pc : StatsPc} (h : Loaded first s loaded pc) (hlater : Later s s') :
    Loaded first s' loaded pc :=
  { h with
    later := h.later.trans hlater
    delivered := Nat.le_trans h.delivered hlater.delivered
    timeouts := Nat.le_trans h.timeouts hlater.timeouts }

theorem Loaded.start {s : Shared Thread C} (h : Bounded s) :
    Loaded s s {} StatsPc.loadEnqueued where
  bounded := h
  later := Later.of_gauges rfl rfl
  delivered := Nat.zero_le _
  timeouts := Nat.zero_le _
  watermark_le := Nat.zero_le _
  enqueued := fun hdone => absurd hdone (by decide)
  dropped := fun hdone => absurd hdone (by decide)
  fallbacks := fun hdone => absurd hdone (by decide)
  watermark := fun hdone => absurd hdone (by decide)

theorem Loaded.step {first s s' : Shared Thread C}
    {loaded loaded' : AsyncSinkStats} {pc pc' : StatsPc}
    (h : Loaded first s loaded pc) (hs : Bounded s)
    (hstep : statsStep s loaded pc = (s', ClientPc.stats loaded' pc')) :
    Loaded first s' loaded' pc' := by
  have hlater := h.later
  cases pc <;> cases hstep
  case loadEnqueued =>
    exact { h with
      enqueued := fun _ => hlater.enqueued
      dropped := fun hdone => absurd hdone (by decide)
      fallbacks := fun hdone => absurd hdone (by decide)
      watermark := fun hdone => absurd hdone (by decide) }
  case loadDelivered =>
    exact { h with
      delivered := le_refl _
      enqueued := fun _ => h.enqueued (by decide)
      dropped := fun hdone => absurd hdone (by decide)
      fallbacks := fun hdone => absurd hdone (by decide)
      watermark := fun hdone => absurd hdone (by decide) }
  case loadDropped =>
    exact { h with
      enqueued := fun _ => h.enqueued (by decide)
      dropped := fun _ => hlater.dropped
      fallbacks := fun hdone => absurd hdone (by decide)
      watermark := fun hdone => absurd hdone (by decide) }
  case loadTimeoutDropped =>
    exact { h with
      timeouts := le_refl _
      enqueued := fun _ => h.enqueued (by decide)
      dropped := fun _ => h.dropped (by decide)
      fallbacks := fun hdone => absurd hdone (by decide)
      watermark := fun hdone => absurd hdone (by decide) }
  case loadFallbackWrites =>
    exact { h with
      enqueued := fun _ => h.enqueued (by decide)
      dropped := fun _ => h.dropped (by decide)
      fallbacks := fun _ => hlater.fallbacks
      watermark := fun hdone => absurd hdone (by decide) }
  case loadErrors =>
    exact { h with
      enqueued := fun _ => h.enqueued (by decide)
      dropped := fun _ => h.dropped (by decide)
      fallbacks := fun _ => h.fallbacks (by decide)
      watermark := fun hdone => absurd hdone (by decide) }
  case loadHighWatermark =>
    exact { h with
      watermark_le := hs.watermark_le
      enqueued := fun _ => h.enqueued (by decide)
      dropped := fun _ => h.dropped (by decide)
      fallbacks := fun _ => h.fallbacks (by decide)
      watermark := fun _ => hlater.watermark }

theorem statsStep_continues {s s' : Shared Thread C} {loaded : AsyncSinkStats}
    {pc : StatsPc} {pc' : ClientPc} (hpc : pc ≠ StatsPc.loadDepth)
    (h : statsStep s loaded pc = (s', pc')) :
    exists loaded' next, s' = s ∧ pc' = ClientPc.stats loaded' next := by
  cases pc with
  | loadDepth => exact absurd rfl hpc
  | _ =>
      cases h
      exact ⟨_, _, rfl, rfl⟩

def ClientPc.reading : ClientPc -> Bool
  | ClientPc.stats _ _ => true
  | _ => false

/--
The calls of `Write` that overlap the time between two moments: those that have
begun by the second and had not returned by the first.
-/
def overlap (first last : Shared Thread C) : Nat :=
  last.history.calls.length - first.history.returned.length

/-- What a snapshot says is off by at most the given number. -/
structure OffByAtMost (C : AsyncSinkConfig) (stats : AsyncSinkStats)
    (slack : Nat) : Prop where
  timeouts : stats.timeoutDropped ≤ stats.dropped + slack
  delivered : stats.delivered ≤ stats.enqueued + stats.fallbackWrites + slack
  depth : stats.currentApproxDepth ≤ stats.queueHighWatermark + slack
  depth_le : stats.currentApproxDepth ≤ C.queueCapacity
  watermark_le : stats.queueHighWatermark ≤ C.queueCapacity

theorem Loaded.off_by_overlap {first s : Shared Thread C} {loaded : AsyncSinkStats}
    (h : Loaded first s loaded StatsPc.loadDepth) (hs : Bounded s) :
    OffByAtMost C { loaded with currentApproxDepth := s.queue.approxDepth }
      (overlap first s) := by
  have hlater := h.later
  have hreturned := h.bounded.returned_le
  have hcounted := hs.counted_le
  have henqueued := h.enqueued (by decide)
  have hdropped := h.dropped (by decide)
  have hfallbacks := h.fallbacks (by decide)
  have hwatermark := h.watermark (by decide)
  have hnowEnqueued := hlater.enqueued
  have hnowDropped := hlater.dropped
  have hnowFallbacks := hlater.fallbacks
  have hcover : first.history.returned.length ≤ s.history.calls.length := by
    omega
  unfold overlap
  constructor
  · have hloaded := h.timeouts
    have htimeouts := hs.timeouts_le
    simp only
    omega
  · have hloaded := h.delivered
    have hdelivered := hs.delivered_le
    simp only
    omega
  · have hsize := h.bounded.size_le
    have hentered := hlater.entered
    have hcalls := hs.entered_le
    simp only [MpscBoundedQueue.approxDepth]
    omega
  · exact s.queue.size_le
  · exact h.watermark_le

structure Watch (Thread : Type) (C : AsyncSinkConfig) where
  /-- For each client, the moment at which its last call began. -/
  begun : Thread -> Shared Thread C := fun _ => {}
  /-- The snapshots, with the number of overlapping calls of `Write`. -/
  observed : List (AsyncSinkStats × Nat) := []

section

variable [DecidableEq Thread]

def watch (s : State Thread C) (a : Action Thread) (s' : State Thread C)
    (w : Watch Thread C) : Watch Thread C :=
  match a with
  | Action.getStats t =>
      { w with begun := Function.update w.begun t s'.shared }
  | Action.client t _ =>
      let new :=
        s'.shared.history.snapshots.drop s.shared.history.snapshots.length
      { w with
        observed := w.observed ++
          new.map fun stats => (stats, overlap (w.begun t) s'.shared) }
  | _ => w

def watchedSink (Thread : Type) [DecidableEq Thread] (C : AsyncSinkConfig) :
    Machine (State Thread C × Watch Thread C) (Action Thread) :=
  (asyncSink Thread C).recording {} watch

structure Observing (s : State Thread C) (w : Watch Thread C) : Prop where
  loading : forall t loaded pc, s.client t = ClientPc.stats loaded pc ->
    Loaded (w.begun t) s.shared loaded pc
  observed : forall stats slack, (stats, slack) ∈ w.observed ->
    OffByAtMost C stats slack
  snapshots : w.observed.map Prod.fst = s.shared.history.snapshots

omit [DecidableEq Thread] in
theorem Observing.mono {s s' : State Thread C} {w : Watch Thread C}
    (h : Observing s w) (hlater : Later s.shared s'.shared)
    (hloading : forall t loaded pc, s'.client t = ClientPc.stats loaded pc ->
      s.client t = ClientPc.stats loaded pc)
    (hsnapshots : s'.shared.history.snapshots = s.shared.history.snapshots) :
    Observing s' w where
  loading := fun t loaded pc hpc =>
    (h.loading t loaded pc (hloading t loaded pc hpc)).mono hlater
  observed := h.observed
  snapshots := h.snapshots.trans hsnapshots.symm

theorem Observing.init : Observing (asyncSink Thread C).init {} where
  loading := fun t loaded pc hpc => by cases hpc
  observed := fun stats slack hmem => by cases hmem
  snapshots := rfl

theorem enqueueStep_snapshots {t : Thread} {choice : Choice}
    {s s' : Shared Thread C} {ticket : Ticket} {pc : EnqueuePc} {pc' : ClientPc}
    (h : enqueueStep t choice s ticket pc = some (s', pc')) :
    pc'.reading = false ∧ s'.history.snapshots = s.history.snapshots := by
  cases pc <;> simp only [enqueueStep] at h
  case notifyFlush pc =>
    rcases Option.map_eq_some_iff.mp h with ⟨⟨s1, next⟩, hstep, hpair⟩
    rcases notifyFlushStep_shape hstep with ⟨_, _, rfl⟩
    cases next <;> cases hpair
    · exact ⟨afterRejection_eq ClientPc.reading rfl rfl rfl, rfl⟩
    · exact ⟨rfl, rfl⟩
  case notifyFallback pc =>
    rcases Option.map_eq_some_iff.mp h with ⟨⟨s1, next⟩, hstep, hpair⟩
    rcases notifyFlushStep_shape hstep with ⟨_, _, rfl⟩
    cases next <;> cases hpair <;> exact ⟨rfl, rfl⟩
  case deliver pc =>
    rcases Option.map_eq_some_iff.mp h with ⟨⟨s1, next⟩, hstep, hpair⟩
    rcases deliverStep_shape hstep with ⟨_, _, _, _, rfl, _⟩
    cases next <;> cases hpair <;> exact ⟨rfl, rfl⟩
  all_goals
    (repeat' split at h) <;> cases h <;> exact ⟨rfl, rfl⟩

theorem clientStep_snapshots {t : Thread} {choice : Choice}
    {s s' : Shared Thread C} {pc pc' : ClientPc} (hpc : pc.reading = false)
    (h : clientStep t choice s pc = some (s', pc')) :
    pc'.reading = false ∧ s'.history.snapshots = s.history.snapshots := by
  cases pc with
  | idle => cases h
  | enter call record =>
      cases h
      split <;> exact ⟨rfl, rfl⟩
  | enqueue ticket pc => exact enqueueStep_snapshots h
  | drop call timeout holding pc =>
      rcases dropStep_shape h with ⟨⟨_, _, _, _, _, _, _, _, rfl⟩, hnext⟩
      rcases hnext with rfl | ⟨_, rfl⟩ <;> exact ⟨rfl, rfl⟩
  | flush before pc =>
      rcases flushStep_shape h with ⟨⟨_, _, _, _, _, _, _, _, rfl, _⟩, hnext⟩
      rcases hnext with rfl | ⟨_, rfl⟩ <;> exact ⟨rfl, rfl⟩
  | stats loaded pc => cases hpc

theorem Observing.client {s : State Thread C} {w : Watch Thread C} {t : Thread}
    {shared : Shared Thread C} {pc : ClientPc}
    {observed : List (AsyncSinkStats × Nat)} (h : Observing s w)
    (hlater : Later s.shared shared)
    (hloading : forall loaded next, pc = ClientPc.stats loaded next ->
      Loaded (w.begun t) shared loaded next)
    (hobserved : forall stats slack, (stats, slack) ∈ observed ->
      OffByAtMost C stats slack)
    (hsnapshots : shared.history.snapshots =
      s.shared.history.snapshots ++ observed.map Prod.fst) :
    Observing
      { s with shared := shared, client := Function.update s.client t pc }
      { w with observed := w.observed ++ observed } where
  loading := fun t' loaded next hpc => by
    by_cases ht : t' = t
    · subst ht
      simp only [Function.update_self] at hpc
      exact hloading loaded next hpc
    · simp only [Function.update_of_ne ht] at hpc
      exact (h.loading t' loaded next hpc).mono hlater
  observed := fun stats slack hmem => by
    rcases List.mem_append.mp hmem with hmem | hmem
    · exact h.observed stats slack hmem
    · exact hobserved stats slack hmem
  snapshots := by
    rw [List.map_append, h.snapshots]
    exact hsnapshots.symm

theorem Observing.elsewhere {s : State Thread C}
    {w : Watch Thread C} {t : Thread} {shared : Shared Thread C} {pc : ClientPc}
    (h : Observing s w) (hlater : Later s.shared shared)
    (hpc : pc.reading = false)
    (hsnapshots : shared.history.snapshots = s.shared.history.snapshots) :
    Observing
      { s with shared := shared, client := Function.update s.client t pc } w := by
  refine h.mono hlater (fun t' loaded next hnext => ?_) hsnapshots
  by_cases ht : t' = t
  · subst ht
    simp only [Function.update_self] at hnext
    rw [hnext] at hpc
    cases hpc
  · simpa only [Function.update_of_ne ht] using hnext

theorem Observing.load {s : State Thread C} {w : Watch Thread C} {t : Thread}
    {shared : Shared Thread C} {loaded : AsyncSinkStats} {next : StatsPc}
    {pc : ClientPc} (h : Observing s w) (hbounded : Bounded s.shared)
    (hlater : Later s.shared shared)
    (hpc : s.client t = ClientPc.stats loaded next)
    (hstats : statsStep s.shared loaded next = (shared, pc)) :
    Observing
      { s with shared := shared, client := Function.update s.client t pc }
      { w with
        observed := w.observed ++
          (shared.history.snapshots.drop
            s.shared.history.snapshots.length).map fun stats =>
              (stats, overlap (w.begun t) shared) } := by
  have hloaded := h.loading t loaded next hpc
  by_cases hlast : next = StatsPc.loadDepth
  · subst hlast
    cases hstats
    refine h.client hlater (fun loaded next hnext => by cases hnext)
      (fun stats slack hmem => ?_) ?_
    · simp only [List.drop_left, List.map_singleton, List.mem_singleton,
        Prod.mk.injEq] at hmem
      rcases hmem with ⟨rfl, rfl⟩
      exact hloaded.off_by_overlap hbounded
    · simp
  · rcases statsStep_continues hlast hstats with ⟨loaded', next', rfl, rfl⟩
    refine h.client hlater (fun loaded'' next'' hnext => ?_)
      (fun stats slack hmem => ?_) ?_
    · cases hnext
      exact hloaded.step hbounded hstats
    · simp at hmem
    · simp

theorem observing_step [Fintype Thread] {s s' : State Thread C}
    {w : Watch Thread C} {a : Action Thread}
    (hreach : (asyncSink Thread C).Reachable s) (h : Observing s w)
    (hstep : s.step a = some s') :
    Observing s' (watch s a s' w) := by
  have hbounded := reachable_bounded hreach
  have hgauged := reachable_gauged hreach
  cases a with
  | write t record =>
      rcases State.begin_some hstep with ⟨_, rfl⟩
      exact h.elsewhere (Later.of_gauges rfl rfl) rfl rfl
  | flush t =>
      rcases State.begin_some hstep with ⟨_, rfl⟩
      exact h.elsewhere (Later.of_gauges rfl rfl) rfl rfl
  | getStats t =>
      rcases State.begin_some hstep with ⟨_, rfl⟩
      refine ⟨fun t' loaded pc hpc => ?_, h.observed, h.snapshots⟩
      by_cases ht : t' = t
      · subst ht
        simp only [Function.update_self] at hpc
        cases hpc
        simp only [watch, Function.update_self]
        exact Loaded.start hbounded
      · simp only [Function.update_of_ne ht] at hpc
        simp only [watch, Function.update_of_ne ht]
        exact h.loading t' loaded pc hpc
  | client t choice =>
      rcases Option.map_eq_some_iff.mp hstep with ⟨⟨shared, pc⟩, hclient, rfl⟩
      have hlater := (clientStep_tracked (hgauged.fresh t) hclient).later
      cases hreading : (s.client t).reading with
      | false =>
          rcases clientStep_snapshots hreading hclient with ⟨hpc, hsnapshots⟩
          simp only [watch, hsnapshots, List.drop_length, List.map_nil,
            List.append_nil]
          exact h.elsewhere hlater hpc hsnapshots
      | true =>
          cases hpc : s.client t with
          | stats loaded next =>
              rw [hpc] at hclient
              exact h.load hbounded hlater hpc (Option.some.inj hclient)
          | _ =>
              rw [hpc] at hreading
              cases hreading
  | worker choice =>
      rcases Option.map_eq_some_iff.mp hstep with ⟨⟨shared, pc⟩, hworker, rfl⟩
      have hlater := workerStep_later hworker
      rcases workerStep_shape hworker with
        ⟨_, _, _, _, _, _, _, _, _, _, _, _, rfl, _⟩
      exact h.mono hlater (fun _ _ _ hpc => hpc) rfl
  | owner =>
      rcases Option.map_eq_some_iff.mp hstep with ⟨⟨shared, pc⟩, howner, rfl⟩
      rcases ownerStep_shape howner with ⟨_, _, _, rfl⟩
      exact h.mono (Later.of_gauges rfl rfl) (fun _ _ _ hpc => hpc) rfl

/--
Every snapshot that a call of `GetStats` returns is off by at most the number of
calls of `Write` that overlap it, so it is consistent when there are none.  The
watermark and the depth never exceed the capacity of the queue.
-/
theorem snapshots_off_by_overlap (Thread : Type) [Fintype Thread]
    [DecidableEq Thread] (C : AsyncSinkConfig)
    (s : State Thread C × Watch Thread C)
    (h : (watchedSink Thread C).Reachable s) :
    s.2.observed.map Prod.fst = s.1.shared.history.snapshots ∧
      forall stats slack, (stats, slack) ∈ s.2.observed ->
        OffByAtMost C stats slack := by
  have hobserving : Observing s.1 s.2 :=
    Machine.recordingInvariant Observing.init
      (fun s past a s' hreach hs hstep => observing_step hreach hs hstep) h
  exact ⟨hobserving.snapshots, hobserving.observed⟩

end

theorem exists_snapshot_of_run {policy : AsyncOverflowPolicy}
    {trace : List (Action Bool)} {test : AsyncSinkStats -> Prop}
    [DecidablePred test]
    (hrun : ((asyncSink Bool (smallSink policy)).run trace).any (fun s =>
      decide (s.owner = OwnerPc.alive) && s.shared.history.snapshots.any
        fun stats => decide (test stats)) = true) :
    exists s, (asyncSink Bool (smallSink policy)).Reachable s ∧
      s.owner = OwnerPc.alive ∧
      exists stats, stats ∈ s.shared.history.snapshots ∧ test stats := by
  rcases Machine.exists_reachable_of_run hrun with ⟨s, hreachable, htest⟩
  rw [Bool.and_eq_true, List.any_eq_true] at htest
  rcases htest with ⟨halive, stats, hstats, htest⟩
  exact ⟨s, hreachable, of_decide_eq_true halive, stats, hstats,
    of_decide_eq_true htest⟩

def statsLoads (loads : Nat) : List (Action Bool) :=
  Action.getStats true ::
    List.replicate loads (Action.client true Choice.plain)

/-- A record is written and delivered after the first load. -/
def deliveryBetweenLoads : List (Action Bool) :=
  statsLoads 1 ++
    Action.write false {} ::
      List.replicate 8 (Action.client false Choice.plain) ++
    List.replicate 6 (Action.worker Choice.plain) ++
    List.replicate 7 (Action.client true Choice.plain)

theorem delivery_meanwhile_off_by_one :
    exists stats : AsyncSinkStats,
      stats = { delivered := 1, queueHighWatermark := 1 } ∧
      OffByAtMost (smallSink AsyncOverflowPolicy.dropNewest) stats 1 := by
  have hrun : ((watchedSink Bool (smallSink AsyncOverflowPolicy.dropNewest)).run
      deliveryBetweenLoads).any (fun s => decide (s.2.observed =
        [({ delivered := 1, queueHighWatermark := 1 }, 1)])) = true := by
    decide
  rcases Machine.exists_reachable_of_run hrun with ⟨s, hreachable, htest⟩
  have hobserved := of_decide_eq_true htest
  refine ⟨_, rfl, (snapshots_off_by_overlap Bool _ s hreachable).2 _ 1 ?_⟩
  rw [hobserved]
  exact List.mem_singleton_self _

def timeoutBetweenLoads : List (Action Bool) :=
  let write (steps : Nat) (choice : Choice) : List (Action Bool) :=
    Action.write false {} :: List.replicate steps (Action.client false choice)
  write 9 Choice.plain ++ write 9 Choice.plain ++ statsLoads 3 ++
    write 18 Choice.expires ++
    List.replicate 5 (Action.client true Choice.plain)

def writeBetweenLoads : List (Action Bool) :=
  statsLoads 7 ++
    Action.write false {} ::
      List.replicate 8 (Action.client false Choice.plain) ++
    [Action.client true Choice.plain]

/-- Each of the three inequalities fails in some snapshot of a running sink. -/
theorem torn_snapshots :
    (exists s, (asyncSink Bool
          (smallSink AsyncOverflowPolicy.blockForTimeout)).Reachable s ∧
        s.owner = OwnerPc.alive ∧
        exists stats, stats ∈ s.shared.history.snapshots ∧
          stats.dropped < stats.timeoutDropped) ∧
      (exists s, (asyncSink Bool
          (smallSink AsyncOverflowPolicy.dropNewest)).Reachable s ∧
        s.owner = OwnerPc.alive ∧
        exists stats, stats ∈ s.shared.history.snapshots ∧
          stats.enqueued + stats.fallbackWrites < stats.delivered) ∧
      exists s, (asyncSink Bool
          (smallSink AsyncOverflowPolicy.dropNewest)).Reachable s ∧
        s.owner = OwnerPc.alive ∧
        exists stats, stats ∈ s.shared.history.snapshots ∧
          stats.queueHighWatermark < stats.currentApproxDepth := by
  have htimeout :
      ((asyncSink Bool (smallSink AsyncOverflowPolicy.blockForTimeout)).run
        timeoutBetweenLoads).any (fun s =>
          decide (s.owner = OwnerPc.alive) && s.shared.history.snapshots.any
            fun stats => decide (stats.dropped < stats.timeoutDropped)) =
        true := by
    decide
  have hdelivery :
      ((asyncSink Bool (smallSink AsyncOverflowPolicy.dropNewest)).run
        deliveryBetweenLoads).any (fun s =>
          decide (s.owner = OwnerPc.alive) && s.shared.history.snapshots.any
            fun stats => decide
              (stats.enqueued + stats.fallbackWrites < stats.delivered)) =
        true := by
    decide
  have hwrite :
      ((asyncSink Bool (smallSink AsyncOverflowPolicy.dropNewest)).run
        writeBetweenLoads).any (fun s =>
          decide (s.owner = OwnerPc.alive) && s.shared.history.snapshots.any
            fun stats => decide
              (stats.queueHighWatermark < stats.currentApproxDepth)) =
        true := by
    decide
  exact ⟨exists_snapshot_of_run htimeout, exists_snapshot_of_run hdelivery,
    exists_snapshot_of_run hwrite⟩

end Async
end NginLog
