import NginLog.Foundation.FamilySum
import NginLog.Logging.SnapshotDispatch

/-!
# What `GetSinkErrorCount` counts

A logger counts what goes wrong while it is used: a callback that throws, a
dispatch that is refused, a sink that throws, a snapshot that cannot be
published.  The count is raised in a step of its own, so it may lag behind, by
one for each thread at most; when no call is in progress it is exact.
-/

namespace NginLog
namespace Logging

open Foundation Record

variable {logger sink thread : Type}

/-!
## Failures
-/

inductive Failure where
  | builderThrew
  | refused
  | writeThrew
  | flushThrew
  | unpublished
deriving DecidableEq

def LogPc.failure (call : LogCall logger) (l : Logger sink)
    (inDispatch throws : Bool) : LogPc sink -> Option Failure
  | LogPc.callback =>
      if call.callback.throws then some Failure.builderThrew else none
  | LogPc.loadSinks =>
      if l.hasSinks && inDispatch then some Failure.refused else none
  | LogPc.inWrite _ => if throws then some Failure.writeThrew else none
  | _ => none

def FlushPc.failure (throws : Bool) : FlushPc sink -> Option Failure
  | FlushPc.inFlush _ => if throws then some Failure.flushThrew else none
  | _ => none

def Frame.target : Frame logger sink -> logger
  | Frame.log info _ => info.call.logger
  | Frame.flush l _ => l

def Frame.failure (s : SharedState logger sink thread) (t : thread)
    (throws : Bool) : Frame logger sink -> Option Failure
  | Frame.log info pc =>
      pc.failure info.call (s.loggers info.call.logger) (s.inDispatch t) throws
  | Frame.flush _ pc => pc.failure throws

def SharedState.failure (s : SharedState logger sink thread) :
    SharedAction logger sink thread -> Option (logger × Failure)
  | SharedAction.setSinks _ l _ published =>
      if published then none else some (l, Failure.unpublished)
  | SharedAction.goOn t throws =>
      match s.stack t with
      | frame :: _ => (frame.failure s t throws).map (frame.target, ·)
      | [] => none
  | _ => none

/-- The loggers, with the list of everything that has failed so far. -/
def failingLoggers [DecidableEq logger] [DecidableEq thread]
    (compileTimeMin : LogLevel) (loggers : logger -> Logger sink) :
    Machine (SharedState logger sink thread × List (logger × Failure))
      (SharedAction logger sink thread) :=
  (sharedLoggers compileTimeMin loggers).recording []
    fun s a _ failures => failures ++ (s.failure a).toList

/-!
## Calls that are about to count
-/

def LogPc.counts : LogPc sink -> Bool
  | LogPc.countCallbackError => true
  | LogPc.countRefused => true
  | LogPc.countSinkError _ => true
  | _ => false

def FlushPc.counts : FlushPc sink -> Bool
  | FlushPc.countSinkError _ => true
  | _ => false

def Frame.counts : Frame logger sink -> Bool
  | Frame.log _ pc => pc.counts
  | Frame.flush _ pc => pc.counts

section

variable [DecidableEq logger]

def uncounted (l : logger) (frames : List (Frame logger sink)) : Nat :=
  frames.countP fun frame => frame.counts && decide (frame.target = l)

theorem uncounted_cons (l : logger) (frame : Frame logger sink)
    (below : List (Frame logger sink)) :
    uncounted l (frame :: below) =
      uncounted l below + (frame.counts && decide (frame.target = l)).toNat := by
  cases h : frame.counts && decide (frame.target = l) <;> simp [uncounted, h]

theorem uncounted_cons_quiet (l : logger) {frame : Frame logger sink}
    (h : frame.counts = false) (below : List (Frame logger sink)) :
    uncounted l (frame :: below) = uncounted l below := by
  rw [uncounted_cons, h]
  rfl

def failuresOf (l : logger) (failures : List (logger × Failure)) : Nat :=
  failures.countP fun failure => failure.1 = l

theorem failuresOf_append (l : logger)
    (failures failures' : List (logger × Failure)) :
    failuresOf l (failures ++ failures') =
      failuresOf l failures + failuresOf l failures' :=
  List.countP_append

theorem failuresOf_singleton (l : logger) (failure : logger × Failure) :
    failuresOf l [failure] = (decide (failure.1 = l)).toNat := by
  by_cases h : failure.1 = l <;> simp [failuresOf, h]

/-!
## One step
-/

theorem sinkErrorCount_countError (s : SharedState logger sink thread)
    (l l' : logger) :
    ((s.countError l).loggers l').sinkErrorCount =
      (s.loggers l').sinkErrorCount + (decide (l = l')).toNat := by
  unfold SharedState.countError SharedState.updateLogger
  by_cases hl : l' = l
  · subst hl
    simp [Logger.countError]
  · simp [hl, Ne.symm hl]

variable [DecidableEq thread]

/-- Each failure of a step is counted, or is about to be. -/
structure CountStep (l : logger) (t : thread)
    (s s' : SharedState logger sink thread)
    (failed : Option (logger × Failure)) : Prop where
  others : forall t', t' ≠ t -> s'.stack t' = s.stack t'
  balance : (s'.loggers l).sinkErrorCount + uncounted l (s'.stack t) =
    (s.loggers l).sinkErrorCount + uncounted l (s.stack t) +
      failuresOf l failed.toList

section

variable {t : thread} {s s' : SharedState logger sink thread}
  {frame : Frame logger sink} {below : List (Frame logger sink)}

theorem CountStep.of_frames {l : logger} {failed : Option (logger × Failure)}
    {frames : List (Frame logger sink)}
    (hstack' : s'.stack = Function.update s.stack t frames)
    (hbalance : (s'.loggers l).sinkErrorCount + uncounted l frames =
      (s.loggers l).sinkErrorCount + uncounted l (s.stack t) +
        failuresOf l failed.toList) :
    CountStep l t s s' failed := by
  constructor
  · intro t' ht
    rw [hstack', Function.update_of_ne ht]
  · rw [hstack', Function.update_self]
    exact hbalance

theorem CountStep.quiet (l : logger) (hstack : s.stack t = frame :: below)
    (hframe : frame.counts = false) {frames : List (Frame logger sink)}
    (hstack' : s'.stack = Function.update s.stack t frames)
    (hloggers : s'.loggers = s.loggers)
    (hframes : uncounted l frames = uncounted l below) :
    CountStep l t s s' none := by
  refine CountStep.of_frames hstack' ?_
  rw [hloggers, hframes, hstack, uncounted_cons_quiet l hframe]
  rfl

theorem CountStep.fails (l : logger) (hstack : s.stack t = frame :: below)
    (hframe : frame.counts = false) (frame' : Frame logger sink)
    (failure : Failure) (hframe' : frame'.counts = true)
    (htarget : frame'.target = frame.target) :
    CountStep l t s (s.setStack t (frame' :: below))
      (some (frame.target, failure)) := by
  refine CountStep.of_frames rfl ?_
  rw [hstack, uncounted_cons_quiet l hframe, uncounted_cons,
    hframe', htarget, Option.toList_some, failuresOf_singleton, Bool.true_and,
    Nat.add_assoc]
  rfl

theorem CountStep.counted (l : logger) (hstack : s.stack t = frame :: below)
    (hframe : frame.counts = true) {frames : List (Frame logger sink)}
    (hstack' : s'.stack = Function.update s.stack t frames)
    (hloggers : s'.loggers = (s.countError frame.target).loggers)
    (hframes : uncounted l frames = uncounted l below) :
    CountStep l t s s' none := by
  refine CountStep.of_frames hstack' ?_
  rw [hloggers, hframes, hstack, uncounted_cons, hframe,
    sinkErrorCount_countError, Bool.true_and, Nat.add_right_comm,
    ← Nat.add_assoc]
  rfl

end

theorem logStep_counts (compileTimeMin : LogLevel) (l : logger) {t : thread}
    {s : SharedState logger sink thread} {info : CallInfo logger sink}
    {pc : LogPc sink} {below : List (Frame logger sink)}
    (hstack : s.stack t = Frame.log info pc :: below) (throws : Bool) :
    CountStep l t s (logStep compileTimeMin s t throws info below pc)
      (((Frame.log info pc).failure s t throws).map (info.call.logger, ·)) := by
  have hquiet : forall {info' : CallInfo logger sink} {pc' : LogPc sink},
      pc'.counts = false ->
      uncounted l (Frame.log info' pc' :: below) = uncounted l below :=
    fun {info' pc'} hpc' =>
      @uncounted_cons_quiet _ _ _ l (Frame.log info' pc') hpc' below
  cases pc with
  | loadRuntimeMin =>
      rw [logStep]
      split
      · exact CountStep.quiet l hstack rfl rfl rfl (hquiet rfl)
      · exact CountStep.quiet l hstack rfl rfl rfl rfl
  | callback =>
      rw [logStep, Frame.failure, LogPc.failure]
      cases info.call.callback.throws with
      | true =>
          exact CountStep.fails l hstack rfl
            (Frame.log info LogPc.countCallbackError) Failure.builderThrew rfl
            rfl
      | false => exact CountStep.quiet l hstack rfl rfl rfl (hquiet rfl)
  | countCallbackError | countSinkError rest =>
      exact CountStep.counted l hstack rfl rfl rfl (hquiet rfl)
  | loadSinks =>
      rw [logStep, Frame.failure, LogPc.failure, Logger.hasSinks]
      cases (s.loggers info.call.logger).activeSinks with
      | none => exact CountStep.quiet l hstack rfl rfl rfl rfl
      | some sinks =>
          cases sinks with
          | nil => exact CountStep.quiet l hstack rfl rfl rfl rfl
          | cons first rest =>
              cases s.inDispatch t with
              | true =>
                  exact CountStep.fails l hstack rfl
                    (Frame.log info LogPc.countRefused) Failure.refused rfl rfl
              | false =>
                  exact CountStep.quiet l hstack rfl rfl rfl (hquiet rfl)
  | countRefused => exact CountStep.counted l hstack rfl rfl rfl rfl
  | nextSink rest =>
      cases rest with
      | nil => exact CountStep.quiet l hstack rfl rfl rfl rfl
      | cons target rest =>
          cases target <;>
            exact CountStep.quiet l hstack rfl rfl rfl (hquiet rfl)
  | inWrite rest =>
      cases throws with
      | true =>
          exact CountStep.fails l hstack rfl
            (Frame.log info (LogPc.countSinkError rest)) Failure.writeThrew rfl
            rfl
      | false => exact CountStep.quiet l hstack rfl rfl rfl (hquiet rfl)

theorem flushStep_counts (l : logger) {t : thread}
    {s : SharedState logger sink thread} {l' : logger} {pc : FlushPc sink}
    {below : List (Frame logger sink)}
    (hstack : s.stack t = Frame.flush l' pc :: below) (throws : Bool) :
    CountStep l t s (flushStep s t throws l' below pc)
      (((Frame.flush l' pc).failure s t throws).map (l', ·)) := by
  have hquiet : forall {pc' : FlushPc sink}, pc'.counts = false ->
      uncounted l (Frame.flush l' pc' :: below) = uncounted l below :=
    fun {pc'} hpc' =>
      @uncounted_cons_quiet _ _ _ l (Frame.flush l' pc') hpc' below
  cases pc with
  | loadSinks =>
      rw [flushStep]
      split
      · exact CountStep.quiet l hstack rfl rfl rfl rfl
      · exact CountStep.quiet l hstack rfl rfl rfl (hquiet rfl)
  | nextSink rest =>
      cases rest with
      | nil => exact CountStep.quiet l hstack rfl rfl rfl rfl
      | cons target rest =>
          cases target <;>
            exact CountStep.quiet l hstack rfl rfl rfl (hquiet rfl)
  | inFlush rest =>
      cases throws with
      | true =>
          exact CountStep.fails l hstack rfl
            (Frame.flush l' (FlushPc.countSinkError rest)) Failure.flushThrew
            rfl rfl
      | false => exact CountStep.quiet l hstack rfl rfl rfl (hquiet rfl)
  | countSinkError rest =>
      exact CountStep.counted l hstack rfl rfl rfl (hquiet rfl)

theorem step_counts {compileTimeMin : LogLevel} {loggers : logger -> Logger sink}
    (l : logger) {s s' : SharedState logger sink thread}
    {action : SharedAction logger sink thread}
    (hstep : (sharedLoggers compileTimeMin loggers).step s action = some s') :
    exists t, CountStep l t s s' (s.failure action) := by
  have hbegin : forall {t : thread} {frame : Frame logger sink},
      frame.counts = false ->
      CountStep l t s (s.setStack t (frame :: s.stack t)) none := by
    intro t frame hframe
    refine CountStep.of_frames rfl ?_
    rw [uncounted_cons_quiet l hframe]
    rfl
  cases action with
  | log t call =>
      rcases Option.ite_none_right_eq_some.mp hstep with ⟨_, hnext⟩
      cases hnext
      exact ⟨t, hbegin rfl⟩
  | flush t l' =>
      rcases Option.ite_none_right_eq_some.mp hstep with ⟨_, hnext⟩
      cases hnext
      exact ⟨t, hbegin rfl⟩
  | setSinks t l' sinks published =>
      rcases Option.ite_none_right_eq_some.mp hstep with ⟨_, hnext⟩
      cases hnext
      cases published with
      | true =>
          have hsame := updateLogger_keeps s Logger.sinkErrorCount l'
            (fun old => old.setSinks sinks true) rfl l
          exact ⟨t, fun _ _ => rfl, congrArg (· + uncounted l (s.stack t)) hsame⟩
      | false =>
          refine ⟨t, fun _ _ => rfl, ?_⟩
          have hcounted := sinkErrorCount_countError s l' l
          simp only [SharedState.failure, Bool.false_eq_true, if_false,
            Option.toList_some, failuresOf_singleton]
          rw [Nat.add_right_comm, ← hcounted]
          rfl
  | setRuntimeMin t l' level =>
      rcases Option.ite_none_right_eq_some.mp hstep with ⟨_, hnext⟩
      cases hnext
      have hsame := updateLogger_keeps s Logger.sinkErrorCount l'
        (fun old => old.setRuntimeMin level) rfl l
      exact ⟨t, fun _ _ => rfl, congrArg (· + uncounted l (s.stack t)) hsame⟩
  | goOn t throws =>
      refine ⟨t, ?_⟩
      simp only [sharedLoggers] at hstep
      simp only [SharedState.failure]
      cases hstack : s.stack t with
      | nil =>
          rw [hstack] at hstep
          cases hstep
      | cons frame below =>
          rw [hstack] at hstep
          cases frame with
          | log info pc =>
              cases hstep
              exact logStep_counts compileTimeMin l hstack throws
          | flush l' pc =>
              cases hstep
              exact flushStep_counts l hstack throws

/-!
## Calls within calls

Only user code makes calls, so every call but the topmost one is in user code,
and a thread is at most one count behind.
-/

def Nested (frames : List (Frame logger sink)) : Prop :=
  forall frame, frame ∈ frames.tail -> frame.inUserCode = true

omit [DecidableEq logger] [DecidableEq thread] in
theorem Frame.counts_of_inUserCode {frame : Frame logger sink}
    (h : frame.inUserCode = true) :
    frame.counts = false := by
  cases frame with
  | log info pc => cases pc <;> first | rfl | cases h
  | flush l pc => cases pc <;> first | rfl | cases h

omit [DecidableEq thread] in
theorem Nested.uncounted_le {frames : List (Frame logger sink)}
    (h : Nested frames) (l : logger) :
    uncounted l frames ≤ 1 := by
  cases frames with
  | nil => exact Nat.zero_le _
  | cons frame below =>
      have hbelow : uncounted l below = 0 := by
        refine List.countP_eq_zero.mpr fun other hother => ?_
        simp [Frame.counts_of_inUserCode (h other hother)]
      rw [uncounted_cons, hbelow, Nat.zero_add]
      exact Bool.toNat_le _

theorem logStep_stack (compileTimeMin : LogLevel)
    (s : SharedState logger sink thread) (t : thread) (throws : Bool)
    (info : CallInfo logger sink) (below : List (Frame logger sink))
    (pc : LogPc sink) :
    exists frames,
      (logStep compileTimeMin s t throws info below pc).stack =
        Function.update s.stack t frames ∧
      (frames = below ∨ exists frame, frames = frame :: below) := by
  cases pc with
  | nextSink rest =>
      cases rest with
      | nil => exact ⟨_, rfl, Or.inl rfl⟩
      | cons target rest =>
          cases target <;> exact ⟨_, rfl, Or.inr ⟨_, rfl⟩⟩
  | _ =>
      simp only [logStep]
      (repeat' split) <;>
        first
          | exact ⟨_, rfl, Or.inl rfl⟩
          | exact ⟨_, rfl, Or.inr ⟨_, rfl⟩⟩

theorem flushStep_stack (s : SharedState logger sink thread) (t : thread)
    (throws : Bool) (l : logger) (below : List (Frame logger sink))
    (pc : FlushPc sink) :
    exists frames,
      (flushStep s t throws l below pc).stack =
        Function.update s.stack t frames ∧
      (frames = below ∨ exists frame, frames = frame :: below) := by
  cases pc with
  | nextSink rest =>
      cases rest with
      | nil => exact ⟨_, rfl, Or.inl rfl⟩
      | cons target rest =>
          cases target <;> exact ⟨_, rfl, Or.inr ⟨_, rfl⟩⟩
  | _ =>
      simp only [flushStep]
      (repeat' split) <;>
        first
          | exact ⟨_, rfl, Or.inl rfl⟩
          | exact ⟨_, rfl, Or.inr ⟨_, rfl⟩⟩

omit [DecidableEq logger] in
theorem nested_update {s s' : SharedState logger sink thread} {t : thread}
    {frames : List (Frame logger sink)} (h : forall t', Nested (s.stack t'))
    (hstack : s'.stack = Function.update s.stack t frames)
    (hframes : Nested frames) (t' : thread) :
    Nested (s'.stack t') := by
  rw [hstack]
  by_cases ht : t' = t
  · subst ht
    rwa [Function.update_self]
  · rw [Function.update_of_ne ht]
    exact h t'

omit [DecidableEq logger] [DecidableEq thread] in
theorem Nested.goOn {frame : Frame logger sink}
    {below frames : List (Frame logger sink)} (h : Nested (frame :: below))
    (hframes : frames = below ∨ exists frame', frames = frame' :: below) :
    Nested frames := by
  rcases hframes with rfl | ⟨frame', rfl⟩
  · exact fun other hother => h other (List.mem_of_mem_tail hother)
  · exact h

omit [DecidableEq logger] [DecidableEq thread] in
theorem Nested.call {s : SharedState logger sink thread} {t : thread}
    (h : Nested (s.stack t)) (hmay : s.mayCall t = true)
    (frame : Frame logger sink) :
    Nested (frame :: s.stack t) := by
  unfold SharedState.mayCall at hmay
  intro other hother
  cases hstack : s.stack t with
  | nil =>
      rw [hstack] at hother
      cases hother
  | cons top below =>
      rw [hstack] at h hmay hother
      rcases List.mem_cons.mp hother with rfl | hother
      · exact hmay
      · exact h other hother

theorem nested_step {compileTimeMin : LogLevel} {loggers : logger -> Logger sink}
    {s s' : SharedState logger sink thread}
    {action : SharedAction logger sink thread}
    (h : forall t, Nested (s.stack t))
    (hstep : (sharedLoggers compileTimeMin loggers).step s action = some s') :
    forall t, Nested (s'.stack t) := by
  cases action with
  | log t call | flush t l =>
      rcases Option.ite_none_right_eq_some.mp hstep with ⟨hmay, hnext⟩
      cases hnext
      exact nested_update h rfl ((h t).call hmay _)
  | setSinks t l sinks published =>
      rcases Option.ite_none_right_eq_some.mp hstep with ⟨_, hnext⟩
      cases hnext
      cases published <;> exact h
  | setRuntimeMin t l level =>
      rcases Option.ite_none_right_eq_some.mp hstep with ⟨_, hnext⟩
      cases hnext
      exact h
  | goOn t throws =>
      simp only [sharedLoggers] at hstep
      have hnested := h t
      cases hstack : s.stack t with
      | nil =>
          rw [hstack] at hstep
          cases hstep
      | cons frame below =>
          rw [hstack] at hstep hnested
          cases frame with
          | log info pc =>
              cases hstep
              rcases logStep_stack compileTimeMin s t throws info below pc with
                ⟨frames, hstack', hframes⟩
              exact nested_update h hstack' (hnested.goOn hframes)
          | flush l pc =>
              cases hstep
              rcases flushStep_stack s t throws l below pc with
                ⟨frames, hstack', hframes⟩
              exact nested_update h hstack' (hnested.goOn hframes)

end

/-!
## Every run
-/

section

variable [DecidableEq logger] [Fintype thread] [DecidableEq thread]
  {compileTimeMin : LogLevel} {loggers : logger -> Logger sink}

theorem reachable_counted
    {s : SharedState logger sink thread × List (logger × Failure)}
    (h : (failingLoggers compileTimeMin loggers).Reachable s) (l : logger) :
    (s.1.loggers l).sinkErrorCount + (∑ t, uncounted l (s.1.stack t)) =
      (loggers l).sinkErrorCount + failuresOf l s.2 := by
  refine @Machine.recordingInvariant _ _ _
    (sharedLoggers compileTimeMin loggers) [] _
    (fun s failures => (s.loggers l).sinkErrorCount +
      (∑ t, uncounted l (s.stack t)) =
        (loggers l).sinkErrorCount + failuresOf l failures) ?_ ?_ s h
  · simp [sharedLoggers, uncounted, failuresOf]
  · intro s failures action s' _ hs hstep
    rcases step_counts l hstep with ⟨t, hothers, hbalance⟩
    have hsum := @sum_add_eq_of_one thread _
      (fun t => uncounted l (s.stack t)) (fun t => uncounted l (s'.stack t))
      t (fun t' ht => by rw [hothers t' ht])
    rw [failuresOf_append]
    omega

theorem sinkErrorCount_le_steps
    {s : SharedState logger sink thread × List (logger × Failure)}
    {trace : List (SharedAction logger sink thread)}
    (hrun : (failingLoggers compileTimeMin loggers).run trace = some s)
    (l : logger) :
    (s.1.loggers l).sinkErrorCount ≤
      (loggers l).sinkErrorCount + trace.length := by
  have hcounted := reachable_counted (Machine.reachable_of_run hrun) l
  have hfailures : s.2.length ≤ trace.length := by
    refine @Machine.countedInvariant _ _
      (failingLoggers compileTimeMin loggers)
      (fun n s => s.2.length ≤ n) (Nat.le_refl 0) ?_ s trace hrun
    intro n s a s' _ hs hstep
    have hone : (s.1.failure a).toList.length ≤ 1 := by
      cases s.1.failure a <;> simp
    rw [(Machine.recording_step hstep).2, List.length_append]
    omega
  have hof : failuresOf l s.2 ≤ s.2.length := List.countP_le_length
  omega

end

/--
However the calls of the threads interleave and nest, `GetSinkErrorCount` has
counted each failure once or is about to: it is behind by one for each thread at
most, and exact when no call is in progress.
-/
theorem failures_counted_once (logger sink thread : Type) [DecidableEq logger]
    [Fintype thread] [DecidableEq thread] (compileTimeMin : LogLevel)
    (loggers : logger -> Logger sink) :
    forall s : SharedState logger sink thread × List (logger × Failure),
      (failingLoggers compileTimeMin loggers).Reachable s ->
      forall l,
        (s.1.loggers l).sinkErrorCount ≤
          (loggers l).sinkErrorCount + failuresOf l s.2 ∧
        (loggers l).sinkErrorCount + failuresOf l s.2 ≤
          (s.1.loggers l).sinkErrorCount + Fintype.card thread ∧
        ((forall t, s.1.stack t = []) ->
          (s.1.loggers l).sinkErrorCount =
            (loggers l).sinkErrorCount + failuresOf l s.2) := by
  intro s h l
  have hcounted := reachable_counted h l
  have hlag : (∑ t, uncounted l (s.1.stack t)) ≤ Fintype.card thread * 1 := by
    have hnested : forall t, Nested (s.1.stack t) :=
      @Machine.invariant _ _ (sharedLoggers compileTimeMin loggers)
        (fun s => forall t, Nested (s.stack t)) (fun _ _ hframe => by cases hframe)
        (fun _ _ _ _ hs hstep => nested_step hs hstep) s.1
        (Machine.recording_reachable h)
    exact sum_le_card_mul fun t => (hnested t).uncounted_le l
  refine ⟨by omega, by omega, fun hidle => ?_⟩
  have hnone : (∑ t, uncounted l (s.1.stack t)) = 0 :=
    Finset.sum_eq_zero fun t _ => by rw [hidle t]; rfl
  omega

def threeFailures : List (SharedAction Unit Nat Bool) :=
  replacedSinks ++ [SharedAction.setSinks false () [some 6] false]

theorem threeFailures_counted :
    exists s, (failingLoggers LogLevel.trace twoSinks :
        Machine (SharedState Unit Nat Bool × _) _).Reachable s ∧
      s.2.map Prod.snd =
        [Failure.refused, Failure.writeThrew, Failure.unpublished] ∧
      (s.1.loggers ()).sinkErrorCount = failuresOf () s.2 := by
  have hrun : (failingLoggers LogLevel.trace twoSinks :
      Machine (SharedState Unit Nat Bool × _) _).run threeFailures =
        some _ := rfl
  have hreachable := Machine.reachable_of_run hrun
  have hcounted := (failures_counted_once Unit Nat Bool LogLevel.trace twoSinks
    _ hreachable ()).2.2 (by decide)
  exact ⟨_, hreachable, rfl, hcounted.trans (Nat.zero_add _)⟩

end Logging
end NginLog
