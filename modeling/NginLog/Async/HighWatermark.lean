import NginLog.Async.Snapshots

/-!
# The high watermark and the peak of the queue

`TryEnqueueOwned` inserts a record, and then asks `ApproxDepth` for the depth
that it passes to `UpdateHighWatermark`.  In between the worker may take records
out again, so the watermark is the largest depth that has been read and not the
largest size that the queue has had.
-/

namespace NginLog
namespace Async

open Foundation

variable {Thread : Type} {C : AsyncSinkConfig}

/-!
## The peak of a run
-/

/--
The largest size of the queue, and the largest depth read.  A client that comes
from `entered` to `sampled depth` has read `depth` in this step.
-/
def notePeak (s : State Thread C) (a : Action Thread) (s' : State Thread C)
    (past : Watermark.Peak) : Watermark.Peak :=
  match a with
  | Action.client t _ =>
      past.after s'.shared.queue.size (s.client t).stage (s'.client t).stage
  | _ => { past with largest := max past.largest s'.shared.queue.size }

def peakSink (Thread : Type) [DecidableEq Thread] (C : AsyncSinkConfig) :
    Machine (State Thread C × Watermark.Peak) (Action Thread) :=
  (asyncSink Thread C).recording {} notePeak

def NoWrite (s : State Thread C) : Prop :=
  forall t, (s.client t).call? = none

/-- The watermark is the peak, and that of a full queue once one has rejected. -/
def WatermarkIsPeak (s : State Thread C × Watermark.Peak) : Prop :=
  s.1.shared.queueHighWatermark = s.2.largest ∧
    (s.1.shared.history.rejected ≠ [] ->
      s.1.shared.queueHighWatermark = C.queueCapacity)

/--
No record is taken from a queue that is as long as it has ever been before some
call has read that length.
-/
def PeakIsRead (s : State Thread C × Watermark.Peak) (_ : Action Thread)
    (s' : State Thread C × Watermark.Peak) : Prop :=
  s'.1.shared.queue.size < s.1.shared.queue.size ->
    s.1.shared.queue.size = s.2.largest ->
    s.2.sampled = s.2.largest

theorem NoWrite.stage_eq {s : State Thread C} (h : NoWrite s) (t : Thread) :
    (s.client t).stage = Watermark.Stage.idle := by
  have hcall := h t
  cases hpc : s.client t with
  | enqueue ticket pc =>
      rw [hpc] at hcall
      cases hcall
  | _ => rfl

/-!
## One step
-/

section

variable [DecidableEq Thread]

theorem enqueueStep_rejected {t : Thread} {choice : Choice}
    {s s' : Shared Thread C} {ticket : Ticket} {pc : EnqueuePc} {pc' : ClientPc}
    (h : enqueueStep t choice s ticket pc = some (s', pc')) :
    s'.history.rejected = s.history.rejected ∨
      s.queue.size = C.queueCapacity := by
  cases pc <;> simp only [enqueueStep] at h
  case tryEnqueue =>
    split at h
    · cases h
      exact Or.inl rfl
    · rename_i htry
      exact Or.inr (MpscBoundedQueue.tryEnqueue_false htry).2.2
  case notifyFlush pc | notifyFallback pc =>
    rcases Option.map_eq_some_iff.mp h with ⟨⟨s1, next⟩, hstep, hpair⟩
    rcases notifyFlushStep_shape hstep with ⟨_, _, rfl⟩
    cases next <;> cases hpair <;> exact Or.inl rfl
  case deliver pc =>
    rcases Option.map_eq_some_iff.mp h with ⟨⟨s1, next⟩, hstep, hpair⟩
    rcases deliverStep_shape hstep with ⟨_, _, _, _, rfl, _⟩
    cases next <;> cases hpair <;> exact Or.inl rfl
  all_goals
    (repeat' split at h) <;> cases h <;> exact Or.inl rfl

theorem clientStep_rejected {t : Thread} {choice : Choice}
    {s s' : Shared Thread C} {pc pc' : ClientPc}
    (h : clientStep t choice s pc = some (s', pc')) :
    s'.history.rejected = s.history.rejected ∨
      s.queue.size = C.queueCapacity := by
  cases pc with
  | idle => cases h
  | enter call record =>
      cases h
      exact Or.inl rfl
  | enqueue ticket pc => exact enqueueStep_rejected h
  | drop call timeout holding pc =>
      rcases dropStep_shape h with ⟨⟨_, _, _, _, _, _, _, _, rfl⟩, _⟩
      exact Or.inl rfl
  | flush before pc =>
      rcases flushStep_shape h with ⟨⟨_, _, _, _, _, _, _, _, rfl, _⟩, _⟩
      exact Or.inl rfl
  | stats loaded pc =>
      rcases statsStep_shape (Option.some.inj h) with ⟨⟨_, rfl⟩, _⟩
      exact Or.inl rfl

end

/-!
## Every reachable state
-/

structure Peaked (s : State Thread C) (past : Watermark.Peak) : Prop where
  tracks : past.Tracks s.shared.queue.size s.shared.queueHighWatermark
    fun t => (s.client t).stage
  fresh : forall t, (s.client t).Fresh s.shared.queueHighWatermark
  largest_le : past.largest ≤ C.queueCapacity
  rejected : s.shared.history.rejected ≠ [] -> past.largest = C.queueCapacity

/-- The peak has been read, or some call is about to read it. -/
def PeakCovered (s : State Thread C) (past : Watermark.Peak) : Prop :=
  past.Covered s.shared.queue.size fun t => (s.client t).stage

/-- What a step keeps, if it takes no unread peak from the queue. -/
structure KeepsPeak (s s' : State Thread C) (past past' : Watermark.Peak) :
    Prop where
  peaked : Peaked s' past'
  covered : PeakCovered s past ->
    (s'.shared.queue.size < s.shared.queue.size ->
      s.shared.queue.size = past.largest ->
      past.sampled = past.largest) ->
    PeakCovered s' past'

theorem Peaked.init : Peaked ({} : State Thread C) {} where
  tracks := by
    refine ⟨Nat.le_refl _, Nat.le_refl _, Nat.le_refl _, ?_, Or.inl rfl⟩
    exact fun _ => Nat.le_refl _
  fresh := fun _ => trivial
  largest_le := Nat.zero_le _
  rejected := fun h => absurd rfl h

section

variable [DecidableEq Thread]

theorem Peaked.client {s : State Thread C} {past : Watermark.Peak}
    {t : Thread} {choice : Choice} {shared : Shared Thread C} {pc : ClientPc}
    (hs : Peaked s past)
    (h : clientStep t choice s.shared (s.client t) = some (shared, pc)) :
    Peaked
      { s with shared := shared, client := Function.update s.client t pc }
      (past.after shared.queue.size (s.client t).stage pc.stage) := by
  have htracked := clientStep_tracked (hs.fresh t) h
  have hsize := hs.tracks.size_le
  constructor
  · simp only [Function.apply_update (fun _ => ClientPc.stage)]
    exact hs.tracks.move htracked.watermark
  · intro t'
    by_cases ht : t' = t
    · subst ht
      simpa using htracked.fresh
    · simpa [ht] using (hs.fresh t').mono htracked.later.watermark
  · exact Nat.max_le.mpr ⟨hs.largest_le, shared.queue.size_le⟩
  · intro hrejected
    have hlargest : past.largest = C.queueCapacity := by
      rcases clientStep_rejected h with hsame | hfull
      · exact hs.rejected (hsame ▸ hrejected)
      · exact Nat.le_antisymm hs.largest_le (hfull ▸ hsize)
    show max past.largest shared.queue.size = C.queueCapacity
    rw [hlargest]
    exact Nat.max_eq_left shared.queue.size_le

omit [DecidableEq Thread] in
theorem Peaked.quiet {s s' : State Thread C} {past : Watermark.Peak}
    (hs : Peaked s past)
    (hstage : forall t, (s'.client t).stage = (s.client t).stage)
    (hfresh : forall t, (s'.client t).Fresh s.shared.queueHighWatermark)
    (hmark : s'.shared.queueHighWatermark = s.shared.queueHighWatermark)
    (hrejected : s'.shared.history.rejected = s.shared.history.rejected)
    (hsize : s'.shared.queue.size ≤ s.shared.queue.size) :
    KeepsPeak s s' past { past with
      largest := max past.largest s'.shared.queue.size } := by
  have hlargest : max past.largest s'.shared.queue.size = past.largest :=
    Nat.max_eq_left (Nat.le_trans hsize hs.tracks.size_le)
  rw [hlargest]
  refine ⟨⟨?_, ?_, hs.largest_le, ?_⟩, ?_⟩
  · simp only [hmark, hstage]
    exact hs.tracks.mono hsize
  · rw [hmark]
    exact hfresh
  · rw [hrejected]
    exact hs.rejected
  · intro hcovered hguard
    unfold PeakCovered
    simp only [hstage]
    exact Watermark.Peak.Covered.mono hcovered hsize hguard

theorem Peaked.begin {s s' : State Thread C} {past : Watermark.Peak}
    {t : Thread} {shared : Shared Thread C} {pc : ClientPc}
    (hs : Peaked s past) (hbegin : s.begin t shared pc = some s')
    (hpc : pc.stage = Watermark.Stage.idle)
    (hfresh : pc.Fresh s.shared.queueHighWatermark)
    (hmark : shared.queueHighWatermark = s.shared.queueHighWatermark)
    (hrejected : shared.history.rejected = s.shared.history.rejected)
    (hqueue : shared.queue = s.shared.queue) :
    KeepsPeak s s' past { past with
      largest := max past.largest s'.shared.queue.size } := by
  rcases State.begin_some hbegin with ⟨hidle, rfl⟩
  apply hs.quiet
  · intro t'
    by_cases ht : t' = t
    · subst ht
      have hstage : pc.stage = (s.client t').stage := by
        rw [hpc, hidle]
        rfl
      simpa using hstage
    · simp [ht]
  · intro t'
    by_cases ht : t' = t
    · subst ht
      simpa using hfresh
    · simpa [ht] using hs.fresh t'
  · exact hmark
  · exact hrejected
  · exact Nat.le_of_eq (congrArg MpscBoundedQueue.size hqueue)

theorem peaked_step {s s' : State Thread C} {past : Watermark.Peak}
    {a : Action Thread} (hs : Peaked s past) (hstep : s.step a = some s') :
    KeepsPeak s s' past (notePeak s a s' past) := by
  cases a with
  | write t record => exact hs.begin hstep rfl trivial rfl rfl rfl
  | flush t => exact hs.begin hstep rfl trivial rfl rfl rfl
  | getStats t => exact hs.begin hstep rfl trivial rfl rfl rfl
  | client t choice =>
      rcases Option.map_eq_some_iff.mp hstep with ⟨⟨shared, pc⟩, hclient, rfl⟩
      have htracked := clientStep_tracked (hs.fresh t) hclient
      simp only [notePeak, Function.update_self]
      refine ⟨hs.client hclient, fun hcovered hguard => ?_⟩
      unfold PeakCovered
      simp only [Function.apply_update (fun _ => ClientPc.stage)]
      exact Watermark.Peak.Covered.move hcovered hs.tracks htracked.watermark
        hguard
  | worker choice =>
      rcases Option.map_eq_some_iff.mp hstep with ⟨⟨shared, pc⟩, hworker, rfl⟩
      have hsize := (workerStep_size_le hworker).1
      rcases workerStep_shape hworker with
        ⟨_, _, _, _, _, _, _, _, _, _, _, _, rfl, _⟩
      exact hs.quiet (fun _ => rfl) hs.fresh rfl rfl hsize
  | owner =>
      rcases Option.map_eq_some_iff.mp hstep with ⟨⟨shared, pc⟩, howner, rfl⟩
      rcases ownerStep_shape howner with ⟨_, _, _, rfl⟩
      exact hs.quiet (fun _ => rfl) hs.fresh rfl rfl (Nat.le_refl _)

theorem reachable_peaked {s : State Thread C × Watermark.Peak}
    (h : (peakSink Thread C).Reachable s) : Peaked s.1 s.2 :=
  Machine.recordingInvariant (P := Peaked) Peaked.init
    (fun _ _ _ _ _ hs hstep => (peaked_step hs hstep).peaked) h

end

/-!
## The watermark once no call is in progress
-/

theorem Peaked.watermark_iff {s : State Thread C} {past : Watermark.Peak}
    (hs : Peaked s past) (hquiet : NoWrite s) :
    WatermarkIsPeak (s, past) <-> past.sampled = past.largest := by
  have hmark : s.shared.queueHighWatermark = past.sampled :=
    hs.tracks.mark_eq hquiet.stage_eq
  constructor
  · intro h
    exact hmark.symm.trans h.1
  · intro hread
    have hpeak : s.shared.queueHighWatermark = past.largest :=
      hmark.trans hread
    exact ⟨hpeak, fun hrejected => hpeak.trans (hs.rejected hrejected)⟩

theorem PeakCovered.read {s : State Thread C} {past : Watermark.Peak}
    (h : PeakCovered s past) (hquiet : NoWrite s) :
    past.sampled = past.largest := by
  rcases h with hread | ⟨_, t, hentered⟩
  · exact hread
  · cases (hquiet.stage_eq t).symm.trans hentered

/--
In a run that never leaves its peak unread the watermark is the peak whenever no
call of `Write` is in progress.  In any run it is the peak then exactly if some
call has read the peak.
-/
theorem high_watermark_exact (Thread : Type) [DecidableEq Thread]
    (C : AsyncSinkConfig) :
    (forall trace,
      (peakSink Thread C).EachStep PeakIsRead (peakSink Thread C).init trace ->
      (peakSink Thread C).Throughout
        (fun s => NoWrite s.1 -> WatermarkIsPeak s)
        (peakSink Thread C).init trace) ∧
    forall s, (peakSink Thread C).Reachable s -> NoWrite s.1 ->
      (WatermarkIsPeak s <-> s.2.sampled = s.2.largest) := by
  constructor
  · intro trace h
    refine @Machine.throughout_of_eachStep _ _ _
      (fun s => Peaked s.1 s.2 ∧ PeakCovered s.1 s.2) _ _ ?_ ?_ _ _ ?_ h
    · intro s hs hquiet
      exact (hs.1.watermark_iff hquiet).mpr (hs.2.read hquiet)
    · intro s a s' hs hstep hguard
      rcases Option.map_eq_some_iff.mp hstep with ⟨next, hnext, rfl⟩
      have hkeep := peaked_step hs.1 hnext
      exact ⟨hkeep.peaked, hkeep.covered hs.2 hguard⟩
    · exact ⟨Peaked.init, Or.inl rfl⟩
  · intro s h hquiet
    exact (reachable_peaked h).watermark_iff hquiet

/-!
## A peak that no call has read
-/

instance [Fintype Thread] (s : State Thread C) : Decidable (NoWrite s) :=
  inferInstanceAs (Decidable (forall t, (s.client t).call? = none))

/--
One record is written, a second one is inserted and fills the smallest queue,
and a third one is rejected.  Then the worker takes a record out, and only now
does the second call read the depth.
-/
def hiddenPeakRun : List (Action Bool) :=
  let client (t : Bool) (steps : Nat) : List (Action Bool) :=
    List.replicate steps (Action.client t Choice.plain)
  Action.write false {} :: client false 8 ++
    Action.write true {} :: client true 3 ++
    Action.write false {} :: client false 7 ++
    List.replicate 2 (Action.worker Choice.plain) ++ client true 5

theorem hidden_peak :
    exists s, (peakSink Bool
        (smallSink AsyncOverflowPolicy.dropNewest)).Reachable s ∧
      NoWrite s.1 ∧ s.1.owner = OwnerPc.alive ∧
      s.1.shared.queueHighWatermark = 1 ∧ s.2.largest = 2 ∧
      s.1.shared.history.rejected ≠ [] ∧ ¬WatermarkIsPeak s := by
  have hrun : ((peakSink Bool (smallSink AsyncOverflowPolicy.dropNewest)).run
      hiddenPeakRun).any (fun s =>
        decide (NoWrite s.1) && decide (s.1.owner = OwnerPc.alive) &&
        decide (s.1.shared.queueHighWatermark = 1) &&
        decide (s.2.largest = 2) &&
        decide (s.1.shared.history.rejected ≠ [])) = true := by
    decide
  rcases Machine.exists_reachable_of_run hrun with ⟨s, hreachable, htest⟩
  simp only [Bool.and_eq_true, decide_eq_true_eq] at htest
  rcases htest with ⟨⟨⟨⟨hquiet, halive⟩, hmark⟩, hlargest⟩, hrejected⟩
  refine ⟨s, hreachable, hquiet, halive, hmark, hlargest, hrejected, ?_⟩
  intro hpeak
  rw [WatermarkIsPeak, hmark, hlargest] at hpeak
  exact absurd hpeak.1 (by decide)

end Async
end NginLog
