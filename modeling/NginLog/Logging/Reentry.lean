import NginLog.Logging.Logger

/-!
# Re-entrant logging is cut off

While sinks are written to, the recursion flag of the thread is set, and every
call of `Log` that a sink makes comes back at once: it adds to the error count
of its logger and does nothing else.  So the calls nest at most two deep, and a
call from outside writes once to every sink of the snapshot.
-/

namespace NginLog
namespace Logging

open Foundation Record

variable {logger sink state : Type} (compileTimeMin : LogLevel)

/-!
## What a call that is cut off does

It adds to the error count of its logger, and nothing else happens.
-/

def LogCall.enabled (call : LogCall logger) (l : Logger sink) : Bool :=
  decide (call.level.toUInt8 ≥ compileTimeMin.toUInt8) &&
    l.isRuntimeEnabled call.level

def LogCall.callbackErrors (call : LogCall logger) : Nat :=
  if call.callback.throws then 1 else 0

def LogCall.errors (call : LogCall logger) (l : Logger sink) : Nat :=
  if call.enabled compileTimeMin l then
    call.callbackErrors + (if l.hasSinks then 1 else 0)
  else
    0

def Logger.addErrors (l : Logger sink) (errors : Nat) : Logger sink :=
  { l with sinkErrorCount := l.sinkErrorCount + errors }

section

variable [DecidableEq logger]

def Process.refuse (call : LogCall logger) (p : Process logger sink state) :
    Process logger sink state :=
  let l := p.loggers call.logger
  { p with
    loggers := Function.update p.loggers call.logger
      (l.addErrors (call.errors compileTimeMin l)) }

def World.refuse (call : LogCall logger) (w : World logger sink state) :
    World logger sink state :=
  { w with toProcess := w.toProcess.refuse compileTimeMin call }

@[simp] theorem World.refuse_inDispatch (call : LogCall logger)
    (w : World logger sink state) :
    (w.refuse compileTimeMin call).inDispatch = w.inDispatch := rfl

def World.addErrors (w : World logger sink state) (l : logger) (errors : Nat) :
    World logger sink state :=
  w.updateLogger l fun old => old.addErrors errors

theorem World.refuse_eq (call : LogCall logger) (w : World logger sink state) :
    w.refuse compileTimeMin call =
      w.addErrors call.logger
        (call.errors compileTimeMin (w.loggers call.logger)) := rfl

theorem World.countError_eq (w : World logger sink state) (l : logger) :
    w.countError l = w.addErrors l 1 := rfl

@[simp] theorem World.addErrors_zero (w : World logger sink state) (l : logger) :
    w.addErrors l 0 = w := by
  simp only [World.addErrors, World.updateLogger, Logger.addErrors, Nat.add_zero,
    Function.update_eq_self]

@[simp] theorem World.addErrors_addErrors (w : World logger sink state)
    (l : logger) (first second : Nat) :
    (w.addErrors l first).addErrors l second = w.addErrors l (first + second) := by
  simp only [World.addErrors, World.updateLogger, Logger.addErrors,
    Function.update_self, Function.update_idem, Nat.add_assoc]

@[simp] theorem World.addErrors_inDispatch (w : World logger sink state)
    (l : logger) (errors : Nat) :
    (w.addErrors l errors).inDispatch = w.inDispatch := rfl

@[simp] theorem World.addErrors_events (w : World logger sink state)
    (l : logger) (errors : Nat) :
    (w.addErrors l errors).events = w.events := rfl

@[simp] theorem World.addErrors_hasSinks (w : World logger sink state)
    (l : logger) (errors : Nat) :
    ((w.addErrors l errors).loggers l).hasSinks = (w.loggers l).hasSinks := by
  simp [World.addErrors, World.updateLogger, Logger.addErrors, Logger.hasSinks]

theorem World.addErrors_count (w : World logger sink state) (l l' : logger)
    (errors : Nat) :
    ((w.addErrors l errors).loggers l').sinkErrorCount =
      (w.loggers l').sinkErrorCount + (if l' = l then errors else 0) := by
  by_cases h : l' = l
  · subst h
    simp [World.addErrors, World.updateLogger, Logger.addErrors]
  · simp [World.addErrors, World.updateLogger, h]

variable [DecidableEq sink]

section

variable (inner : LogCall logger -> World logger sink state ->
    Option (World logger sink state))
  (body : sink -> LogRecordView -> Body logger sink state)

theorem dispatch_inDispatch (call : LogCall logger)
    {w : World logger sink state} (hw : w.inDispatch = true) :
    dispatch inner body call w =
      some (w.addErrors call.logger
        (if (w.loggers call.logger).hasSinks then 1 else 0)) := by
  unfold dispatch Logger.hasSinks
  cases hsinks : (w.loggers call.logger).activeSinks with
  | none => simp
  | some sinks =>
      cases sinks with
      | nil => simp
      | cons first rest => simp [hw, World.countError_eq]

theorem logWith_inDispatch (call : LogCall logger)
    {w : World logger sink state} (hw : w.inDispatch = true) :
    logWith inner body compileTimeMin call w =
      some (w.refuse compileTimeMin call) := by
  unfold logWith
  rw [World.refuse_eq, LogCall.errors, LogCall.enabled]
  by_cases hlevel : call.level.toUInt8 ≥ compileTimeMin.toUInt8
  · cases hruntime : (w.loggers call.logger).isRuntimeEnabled call.level with
    | false => simp [hlevel]
    | true =>
        rw [if_pos hlevel, if_pos rfl, dispatch_inDispatch inner body call]
        · cases hthrows : call.callback.throws <;>
            simp [hlevel, LogCall.callbackErrors, hthrows, World.countError_eq]
        · split
          · exact hw
          · exact hw
  · simp [hlevel]

end

/-!
## A `Write` whose calls are cut off
-/

def refusing (call : LogCall logger) (w : World logger sink state) :
    Option (World logger sink state) :=
  some (w.refuse compileTimeMin call)

def Event.CutOff : Event logger sink state -> Prop
  | Event.logged call before after =>
      before.inDispatch = true ∧ after = before.refuse compileTimeMin call
  | Event.unpublished _ => True
  | _ => False

/-- What an event adds to the error count of `l`, in a dispatch of `top`. -/
def Event.raises (top l : logger) : Event logger sink state -> Nat
  | Event.writing _ _ => 0
  | Event.logged call before _ =>
      if l = call.logger then
        call.errors compileTimeMin (before.loggers call.logger)
      else
        0
  | Event.unpublished l' => if l = l' then 1 else 0
  | Event.written _ threw => if l = top ∧ threw = true then 1 else 0

/-- A stretch of a dispatch: its events account for all errors. -/
structure Stretch (top : logger) (w w' : World logger sink state)
    (happened : List (Event logger sink state)) : Prop where
  inDispatch : w'.inDispatch = w.inDispatch
  events : w'.events = w.events ++ happened
  errors : forall l, (w'.loggers l).sinkErrorCount =
    (w.loggers l).sinkErrorCount +
      (happened.map (Event.raises compileTimeMin top l)).sum

variable {compileTimeMin} {top : logger}
  {w w' w'' : World logger sink state}

omit [DecidableEq sink] in
theorem Stretch.refl : Stretch compileTimeMin top w w [] where
  inDispatch := rfl
  events := (List.append_nil _).symm
  errors := fun _ => rfl

omit [DecidableEq sink] in
theorem Stretch.trans {first second : List (Event logger sink state)}
    (h : Stretch compileTimeMin top w w' first)
    (h' : Stretch compileTimeMin top w' w'' second) :
    Stretch compileTimeMin top w w'' (first ++ second) where
  inDispatch := h'.inDispatch.trans h.inDispatch
  events := by rw [h'.events, h.events, List.append_assoc]
  errors := fun l => by
    rw [h'.errors, h.errors, List.map_append, List.sum_append, Nat.add_assoc]

omit [DecidableEq sink] in
theorem Stretch.note {event : Event logger sink state}
    (herrors : forall l, (w'.loggers l).sinkErrorCount =
      (w.loggers l).sinkErrorCount + event.raises compileTimeMin top l)
    (hflag : w'.inDispatch = w.inDispatch) (hevents : w'.events = w.events) :
    Stretch compileTimeMin top w (w'.note event) [event] where
  inDispatch := hflag
  events := congrArg (· ++ [event]) hevents
  errors := fun l => by
    simpa [World.note] using herrors l

variable (compileTimeMin) (top)

omit [DecidableEq sink] in
theorem World.updateLogger_silent (w : World logger sink state) (l : logger)
    (change : Logger sink -> Logger sink)
    (hcount : forall old, (change old).sinkErrorCount = old.sinkErrorCount) :
    Stretch compileTimeMin top w (w.updateLogger l change) [] where
  inDispatch := rfl
  events := (List.append_nil _).symm
  errors := fun l' => by
    by_cases h : l' = l
    · subst h
      simp [World.updateLogger, hcount]
    · simp [World.updateLogger, h]

theorem Body.run_refusing (s : sink) (program : Body logger sink state)
    (w : World logger sink state) (hw : w.inDispatch = true) :
    exists w' threw happened,
      program.run (refusing compileTimeMin) s w = some (w', threw) ∧
      Stretch compileTimeMin top w w' happened ∧
      forall event, event ∈ happened -> event.CutOff compileTimeMin := by
  induction program generalizing w with
  | «return» => exact ⟨w, false, [], rfl, Stretch.refl, by simp⟩
  | throw => exact ⟨w, true, [], rfl, Stretch.refl, by simp⟩
  | get next ih => exact ih (w.members s) w hw
  | getSinkErrorCount l next ih =>
      exact ih (w.loggers l).sinkErrorCount w hw
  | put members next ih =>
      rcases ih { w with members := Function.update w.members s members } hw with
        ⟨w', threw, happened, hrun, hstretch, hcut⟩
      exact ⟨w', threw, happened, hrun, ⟨hstretch.inDispatch, hstretch.events,
        hstretch.errors⟩, hcut⟩
  | setRuntimeMin l level next ih =>
      rcases ih (w.updateLogger l fun old => old.setRuntimeMin level) hw with
        ⟨w', threw, happened, hrun, hstretch, hcut⟩
      have hsilent := World.updateLogger_silent compileTimeMin top w l
        (fun old => old.setRuntimeMin level) fun _ => rfl
      exact ⟨w', threw, happened, hrun, hsilent.trans hstretch, hcut⟩
  | setSinks l sinks published next ih =>
      cases published with
      | true =>
          rcases ih (w.updateLogger l fun old => old.setSinks sinks true) hw with
            ⟨w', threw, happened, hrun, hstretch, hcut⟩
          have hsilent := World.updateLogger_silent compileTimeMin top w l
            (fun old => old.setSinks sinks true) fun _ => rfl
          exact ⟨w', threw, happened, hrun, hsilent.trans hstretch, hcut⟩
      | false =>
          have hnote : Stretch compileTimeMin top w
              ((w.addErrors l 1).note (Event.unpublished l))
              [Event.unpublished l] :=
            Stretch.note (w.addErrors_count l · 1) rfl rfl
          rcases ih ((w.addErrors l 1).note (Event.unpublished l)) hw with
            ⟨w', threw, happened, hrun, hstretch, hcut⟩
          refine ⟨w', threw, _, hrun, hnote.trans hstretch, ?_⟩
          intro event hevent
          rcases List.mem_cons.mp hevent with rfl | hevent
          · trivial
          · exact hcut event hevent
  | log call next ih =>
      let event := Event.logged call w.toProcess
        (w.refuse compileTimeMin call).toProcess
      have hnote : Stretch compileTimeMin top w
          ((w.refuse compileTimeMin call).note event) [event] :=
        Stretch.note (w.addErrors_count call.logger · _) rfl rfl
      rcases ih ((w.refuse compileTimeMin call).note event) hw with
        ⟨w', threw, happened, hrun, hstretch, hcut⟩
      refine ⟨w', threw, _, hrun, hnote.trans hstretch, ?_⟩
      intro event hevent
      rcases List.mem_cons.mp hevent with rfl | hevent
      · exact ⟨hw, rfl⟩
      · exact hcut event hevent

def Refuses (inner : LogCall logger -> World logger sink state ->
    Option (World logger sink state)) : Prop :=
  forall call w, w.inDispatch = true ->
    inner call w = some (w.refuse compileTimeMin call)

theorem Body.run_eq_refusing
    {inner : LogCall logger -> World logger sink state ->
      Option (World logger sink state)}
    (hinner : Refuses compileTimeMin inner) (s : sink)
    (program : Body logger sink state) (w : World logger sink state)
    (hw : w.inDispatch = true) :
    program.run inner s w = program.run (refusing compileTimeMin) s w := by
  induction program generalizing w with
  | «return» => rfl
  | throw => rfl
  | get next ih => exact ih _ w hw
  | getSinkErrorCount l next ih => exact ih _ w hw
  | put members next ih => exact ih _ hw
  | setRuntimeMin l level next ih => exact ih _ hw
  | setSinks l sinks published next ih =>
      cases published with
      | true => exact ih (w.updateLogger l fun old => old.setSinks sinks true) hw
      | false => exact ih ((w.addErrors l 1).note (Event.unpublished l)) hw
  | log call next ih =>
      simp only [Body.run, hinner call w hw, refusing, Option.bind_some]
      exact ih _ hw

/-!
## A dispatch
-/

structure Run (logger sink state : Type) where
  target : sink
  record : LogRecordView
  during : List (Event logger sink state)
  threw : Bool

def Run.events (run : Run logger sink state) : List (Event logger sink state) :=
  Event.writing run.target run.record :: run.during ++
    [Event.written run.target run.threw]

theorem write_run (body : sink -> LogRecordView -> Body logger sink state)
    (s : sink) (record : LogRecordView) (w : World logger sink state)
    (hw : w.inDispatch = true) :
    exists (w' : World logger sink state) (run : Run logger sink state),
      (forall inner, Refuses compileTimeMin inner ->
        write inner body s record w = some (w', run.threw)) ∧
      Stretch compileTimeMin top w
        (if run.threw then w'.countError top else w') run.events ∧
      run.target = s ∧ run.record = record ∧
      forall event, event ∈ run.during -> event.CutOff compileTimeMin := by
  rcases Body.run_refusing compileTimeMin top s (body s record)
    (w.note (Event.writing s record)) hw with
    ⟨w', threw, during, hrun, hstretch, hcut⟩
  refine ⟨w'.note (Event.written s threw), ⟨s, record, during, threw⟩, ?_, ?_,
    rfl, rfl, hcut⟩
  · intro inner hinner
    have heq := Body.run_eq_refusing compileTimeMin hinner s (body s record)
      (w.note (Event.writing s record)) hw
    rw [write, heq, hrun]
    rfl
  · have hbegin : Stretch compileTimeMin top w
        (w.note (Event.writing s record)) [Event.writing s record] :=
      Stretch.note (fun _ => rfl) rfl rfl
    refine (hbegin.trans hstretch).trans ?_
    cases threw with
    | false =>
        refine Stretch.note (fun l => ?_) rfl rfl
        simp [Event.raises]
    | true =>
        have hcount : forall l, ((w'.addErrors top 1).loggers l).sinkErrorCount =
            (w'.loggers l).sinkErrorCount +
              (Event.written s true : Event logger sink state).raises
                compileTimeMin top l := fun l => by
          simp [Event.raises, World.addErrors_count]
        exact Stretch.note hcount rfl rfl

theorem writeSinks_runs
    (body : sink -> LogRecordView -> Body logger sink state)
    (record : LogRecordView) (sinks : List (Option sink))
    (w : World logger sink state) (hw : w.inDispatch = true) :
    exists (w' : World logger sink state) (runs : List (Run logger sink state)),
      (forall inner, Refuses compileTimeMin inner ->
        writeSinks inner body top record sinks w = some w') ∧
      Stretch compileTimeMin top w w' (runs.flatMap Run.events) ∧
      runs.map Run.target = sinks.reduceOption ∧
      forall run, run ∈ runs -> run.record = record ∧
        forall event, event ∈ run.during -> event.CutOff compileTimeMin := by
  induction sinks generalizing w with
  | nil => exact ⟨w, [], fun _ _ => rfl, Stretch.refl, rfl, by simp⟩
  | cons first rest ih =>
      cases first with
      | none =>
          rcases ih w hw with ⟨w', runs, hwrite, hstretch, hsinks, hruns⟩
          exact ⟨w', runs, hwrite, hstretch, hsinks, hruns⟩
      | some s =>
          rcases write_run compileTimeMin top body s record w hw with
            ⟨mid, run, hfirst, hstretch, hsink, hrecord, hcut⟩
          have hmid := hstretch.inDispatch.trans hw
          rcases ih _ hmid with ⟨w', runs, hwrite, hrest, hsinks, hruns⟩
          refine ⟨w', run :: runs, fun inner hinner => ?_,
            hstretch.trans hrest, ?_, ?_⟩
          · rw [writeSinks, hfirst inner hinner, Option.bind_some]
            exact hwrite inner hinner
          · rw [List.map_cons, hsinks, hsink]
            rfl
          · intro other hother
            rcases List.mem_cons.mp hother with rfl | hother
            · exact ⟨hrecord, hcut⟩
            · exact hruns other hother

/-!
## Calls from outside
-/

def LogCall.targets (call : LogCall logger) (l : Logger sink) : List sink :=
  if call.enabled compileTimeMin l then
    (l.activeSinks.getD []).reduceOption
  else
    []

/--
What a call from outside of any `Write` does: it writes its record once to each
sink of the snapshot, in order, and between the beginning and the end of a
`Write` there are only calls that are cut off.  The recursion flag is clear
afterwards, and every error is accounted for.
-/
structure Dispatched (call : LogCall logger) (w w' : World logger sink state) :
    Prop where
  clear : w'.inDispatch = false
  runs : exists runs : List (Run logger sink state),
    w'.events = w.events ++ runs.flatMap Run.events ∧
    runs.map Run.target =
      call.targets compileTimeMin (w.loggers call.logger) ∧
    (forall run, run ∈ runs ->
      run.record = loggedRecord (call.site (w.loggers call.logger).name)
        call.context call.callback ∧
      forall event, event ∈ run.during -> event.CutOff compileTimeMin) ∧
    forall l, (w'.loggers l).sinkErrorCount =
      (w.loggers l).sinkErrorCount +
        (if l = call.logger ∧
            call.enabled compileTimeMin (w.loggers call.logger) then
          call.callbackErrors
        else
          0) +
        ((runs.flatMap Run.events).map
          (Event.raises compileTimeMin call.logger l)).sum

omit [DecidableEq sink] in
theorem Dispatched.of_no_targets {call : LogCall logger}
    {w : World logger sink state} (hw : w.inDispatch = false)
    (htargets : call.targets compileTimeMin (w.loggers call.logger) = []) :
    Dispatched compileTimeMin call w
      (w.addErrors call.logger
        (if call.enabled compileTimeMin (w.loggers call.logger) then
          call.callbackErrors
        else
          0)) where
  clear := hw
  runs := by
    refine ⟨[], (List.append_nil _).symm, htargets.symm, by simp, fun l => ?_⟩
    rw [World.addErrors_count]
    by_cases hl : l = call.logger <;> simp [hl]

theorem dispatch_dispatched
    (body : sink -> LogRecordView -> Body logger sink state)
    (call : LogCall logger) {w : World logger sink state}
    (hw : w.inDispatch = false)
    (henabled : call.enabled compileTimeMin (w.loggers call.logger) = true) :
    exists w',
      (forall inner, Refuses compileTimeMin inner ->
        dispatch inner body call (w.addErrors call.logger call.callbackErrors) =
          some w') ∧
      Dispatched compileTimeMin call w w' := by
  have htargets : call.targets compileTimeMin (w.loggers call.logger) =
      ((w.loggers call.logger).activeSinks.getD []).reduceOption :=
    if_pos henabled
  have hname : ((w.addErrors call.logger call.callbackErrors).loggers
      call.logger).name = (w.loggers call.logger).name := by
    simp [World.addErrors, World.updateLogger, Logger.addErrors]
  have hsnapshot : ((w.addErrors call.logger call.callbackErrors).loggers
      call.logger).activeSinks = (w.loggers call.logger).activeSinks := by
    simp [World.addErrors, World.updateLogger, Logger.addErrors]
  have hnothing : call.targets compileTimeMin (w.loggers call.logger) = [] ->
      Dispatched compileTimeMin call w
        (w.addErrors call.logger call.callbackErrors) := fun hnone => by
    have hnone' := Dispatched.of_no_targets compileTimeMin hw hnone
    rwa [if_pos henabled] at hnone'
  cases hsinks : (w.loggers call.logger).activeSinks with
  | none =>
      rw [hsinks] at htargets hsnapshot
      refine ⟨_, fun inner _ => ?_, hnothing htargets⟩
      rw [dispatch, hsnapshot]
  | some sinks =>
      rw [hsinks] at htargets hsnapshot
      cases sinks with
      | nil =>
          refine ⟨_, fun inner _ => ?_, hnothing htargets⟩
          rw [dispatch, hsnapshot]
      | cons first rest =>
          let start := w.addErrors call.logger call.callbackErrors
          rcases writeSinks_runs compileTimeMin call.logger body
              (loggedRecord (call.site (w.loggers call.logger).name)
                call.context call.callback) (first :: rest)
              { start with inDispatch := true } rfl with
            ⟨w', runs, hwrite, hstretch, hsinks', hruns⟩
          refine ⟨{ w' with inDispatch := false }, fun inner hinner => ?_, rfl,
            runs, hstretch.events, hsinks'.trans htargets.symm, hruns,
            fun l => ?_⟩
          · rw [dispatch, hsnapshot]
            simp only [World.addErrors_inDispatch, hw, hname]
            rw [hwrite inner hinner]
            rfl
          · have herrors := hstretch.errors l
            have hstart := w.addErrors_count call.logger l call.callbackErrors
            simp only [henabled, and_true]
            rw [← hstart]
            exact herrors

theorem logWith_dispatched
    (body : sink -> LogRecordView -> Body logger sink state)
    (call : LogCall logger) {w : World logger sink state}
    (hw : w.inDispatch = false) :
    exists w',
      (forall inner, Refuses compileTimeMin inner ->
        logWith inner body compileTimeMin call w = some w') ∧
      Dispatched compileTimeMin call w w' := by
  cases henabled : call.enabled compileTimeMin (w.loggers call.logger) with
  | false =>
      have htargets :
          call.targets compileTimeMin (w.loggers call.logger) = [] := by
        simp [LogCall.targets, henabled]
      have hnone := Dispatched.of_no_targets compileTimeMin hw htargets
      simp only [henabled, Bool.false_eq_true, if_false,
        World.addErrors_zero] at hnone
      refine ⟨w, fun inner _ => ?_, hnone⟩
      simp only [LogCall.enabled, Bool.and_eq_false_iff, decide_eq_false_iff_not]
        at henabled
      unfold logWith
      rcases henabled with hlevel | hruntime
      · rw [if_neg hlevel]
      · simp [hruntime]
  | true =>
      rcases dispatch_dispatched compileTimeMin body call hw henabled with
        ⟨w', hdispatch, hdispatched⟩
      refine ⟨w', fun inner hinner => ?_, hdispatched⟩
      simp only [LogCall.enabled, Bool.and_eq_true, decide_eq_true_eq]
        at henabled
      rw [logWith, if_pos henabled.1, if_pos henabled.2,
        ← hdispatch inner hinner]
      congr 1
      unfold LogCall.callbackErrors
      cases call.callback.throws <;> simp [World.countError_eq]

theorem log_refuses (body : sink -> LogRecordView -> Body logger sink state)
    (depth : Nat) :
    Refuses compileTimeMin (log compileTimeMin body (depth + 1)) :=
  fun call _ hw => logWith_inDispatch compileTimeMin _ body call hw

theorem log_dispatched (body : sink -> LogRecordView -> Body logger sink state)
    (call : LogCall logger) {w : World logger sink state}
    (hw : w.inDispatch = false) :
    exists w',
      (forall depth, 2 ≤ depth ->
        log compileTimeMin body depth call w = some w') ∧
      Dispatched compileTimeMin call w w' := by
  rcases logWith_dispatched compileTimeMin body call hw with
    ⟨w', hlog, hdispatched⟩
  refine ⟨w', fun depth hdepth => ?_, hdispatched⟩
  obtain ⟨rest, rfl⟩ : exists rest, depth = rest + 2 := ⟨depth - 2, by omega⟩
  exact hlog _ (log_refuses compileTimeMin body rest)

theorem reachable_clear {body : sink -> LogRecordView -> Body logger sink state}
    {depth : Nat} (hdepth : 2 ≤ depth) {loggers : logger -> Logger sink}
    {members : sink -> state} {w : World logger sink state}
    (h : (thread compileTimeMin body depth loggers members).Reachable w) :
    w.inDispatch = false := by
  refine Machine.invariant
    (P := fun w : World logger sink state => w.inDispatch = false) rfl
    (fun w a w' _ hw hstep => ?_) h
  cases a with
  | log call =>
      rcases log_dispatched compileTimeMin body call hw with
        ⟨next, hlog, hdispatched⟩
      have hnext : log compileTimeMin body depth call w = some w' := hstep
      rw [hlog depth hdepth] at hnext
      cases hnext
      exact hdispatched.clear
  | setSinks l sinks published =>
      cases hstep
      exact hw
  | setRuntimeMin l level =>
      cases hstep
      exact hw

/--
After any calls from outside, however the sinks logged and threw in them, the
next call of `Log` ends, and it writes once to each sink of its snapshot while
the calls that the sinks make are cut off.
-/
theorem reentry_cut_off (compileTimeMin : LogLevel)
    (body : sink -> LogRecordView -> Body logger sink state)
    (loggers : logger -> Logger sink) (members : sink -> state) (depth : Nat)
    (hdepth : 2 ≤ depth) (w : World logger sink state)
    (h : (thread compileTimeMin body depth loggers members).Reachable w)
    (call : LogCall logger) :
    exists w',
      (forall larger, 2 ≤ larger ->
        log compileTimeMin body larger call w = some w') ∧
      Dispatched compileTimeMin call w w' :=
  log_dispatched compileTimeMin body call
    (reachable_clear compileTimeMin hdepth h)

end

def loggingSinks : Bool -> LogRecordView -> Body Bool Bool Unit
  | true, _ =>
      Body.log { logger := true, level := LogLevel.error }
        (Body.log { logger := false, level := LogLevel.error } Body.return)
  | false, _ =>
      Body.log { logger := true, level := LogLevel.error } Body.return

def cyclicLoggers : Bool -> Logger Bool
  | true => { activeSinks := some [some true, none, some false] }
  | false => { activeSinks := some [some true] }

theorem cyclicLoggers_cut_off :
    exists w',
      log LogLevel.trace loggingSinks 2
          { logger := true, level := LogLevel.info }
          { loggers := cyclicLoggers, members := fun _ => () } = some w' ∧
        ((w'.loggers true).sinkErrorCount = 2 ∧
          (w'.loggers false).sinkErrorCount = 1) ∧
        Dispatched LogLevel.trace { logger := true, level := LogLevel.info }
          { loggers := cyclicLoggers, members := fun _ => () } w' := by
  rcases reentry_cut_off LogLevel.trace loggingSinks cyclicLoggers
      (fun _ => ()) 2 (Nat.le_refl 2) _ Machine.ReachableUnder.init
      { logger := true, level := LogLevel.info } with ⟨w', hlog, hdispatched⟩
  have hlog' := hlog 2 (Nat.le_refl 2)
  refine ⟨w', hlog', ?_, hdispatched⟩
  have hcounts :
      (log LogLevel.trace loggingSinks 2
        { logger := true, level := LogLevel.info }
        { loggers := cyclicLoggers, members := fun _ => () }).any (fun w' =>
          decide ((w'.loggers true).sinkErrorCount = 2 ∧
            (w'.loggers false).sinkErrorCount = 1)) = true := by
    decide
  have hworld : (thread LogLevel.trace loggingSinks 2 cyclicLoggers
      fun _ => ()).init = { loggers := cyclicLoggers, members := fun _ => () } :=
    rfl
  rw [hworld] at hlog'
  rw [hlog'] at hcounts
  exact of_decide_eq_true hcounts

/-!
## Counts and calls

The error count is 64 bits wide in the source.  A call counts at most the error
of its callback and its own refusal, so the count is bounded by the number of
calls from outside and of the events in them.
-/

theorem LogCall.errors_le (call : LogCall logger) (l : Logger sink) :
    call.errors compileTimeMin l ≤ 2 := by
  unfold LogCall.errors LogCall.callbackErrors
  split
  · split <;> split <;> omega
  · omega

section

variable [DecidableEq logger]

theorem Event.raises_le (top l : logger) (event : Event logger sink state) :
    event.raises compileTimeMin top l ≤ 2 := by
  cases event with
  | writing s record => exact Nat.zero_le 2
  | logged call before after =>
      have herrors := call.errors_le compileTimeMin
        (before.loggers call.logger)
      show (if l = call.logger then _ else 0) ≤ 2
      split <;> omega
  | unpublished l' =>
      show (if l = l' then 1 else 0) ≤ 2
      split <;> omega
  | written s threw =>
      show (if l = top ∧ threw = true then 1 else 0) ≤ 2
      split <;> omega

theorem sum_raises_le (top l : logger)
    (happened : List (Event logger sink state)) :
    (happened.map (Event.raises compileTimeMin top l)).sum ≤
      2 * happened.length := by
  induction happened with
  | nil => exact Nat.zero_le _
  | cons event rest ih =>
      have hfirst := event.raises_le compileTimeMin top l
      rw [List.map_cons, List.sum_cons, List.length_cons]
      omega

variable {compileTimeMin}

theorem Dispatched.count_le {call : LogCall logger}
    {w w' : World logger sink state}
    (h : Dispatched compileTimeMin call w w') (l : logger) :
    (w'.loggers l).sinkErrorCount + 2 * w.events.length ≤
      (w.loggers l).sinkErrorCount + 1 + 2 * w'.events.length := by
  rcases h.runs with ⟨runs, hevents, _, _, hcount⟩
  have hraised := sum_raises_le compileTimeMin call.logger l
    (runs.flatMap Run.events)
  have hcallback : (if l = call.logger ∧
      call.enabled compileTimeMin (w.loggers call.logger) then
        call.callbackErrors
      else
        0) ≤ 1 := by
    unfold LogCall.callbackErrors
    split
    · split <;> omega
    · omega
  rw [hcount l, hevents, List.length_append]
  omega

variable [DecidableEq sink]

theorem sinkErrorCount_le_calls
    {body : sink -> LogRecordView -> Body logger sink state} {depth : Nat}
    (hdepth : 2 ≤ depth) {loggers : logger -> Logger sink}
    {members : sink -> state} {w : World logger sink state}
    {trace : List (Action logger sink)}
    (hrun : (thread compileTimeMin body depth loggers members).run trace =
      some w)
    (l : logger) :
    (w.loggers l).sinkErrorCount ≤
      (loggers l).sinkErrorCount + trace.length + 2 * w.events.length := by
  refine @Machine.countedInvariant _ _
    (thread compileTimeMin body depth loggers members)
    (fun n w => (w.loggers l).sinkErrorCount ≤
      (loggers l).sinkErrorCount + n + 2 * w.events.length) ?_ ?_ w trace hrun
  · show (loggers l).sinkErrorCount ≤ (loggers l).sinkErrorCount + 0 + 0
    omega
  · intro n w a w' hreach hw hstep
    cases a with
    | log call =>
        rcases log_dispatched compileTimeMin body call
          (reachable_clear compileTimeMin hdepth hreach) with
          ⟨next, hlog, hdispatched⟩
        have hnext : log compileTimeMin body depth call w = some w' := hstep
        rw [hlog depth hdepth] at hnext
        cases hnext
        have hcalled := hdispatched.count_le l
        omega
    | setSinks l' sinks published =>
        cases hstep
        have hone : (((w.updateLogger l' fun old =>
            old.setSinks sinks published).loggers l).sinkErrorCount ≤
              (w.loggers l).sinkErrorCount + 1) := by
          by_cases hl : l = l'
          · subst hl
            cases published <;>
              simp [World.updateLogger, Logger.setSinks, Logger.countError]
          · simp [World.updateLogger, hl]
        have hsame : (w.updateLogger l' fun old =>
          old.setSinks sinks published).events = w.events := rfl
        rw [hsame]
        omega
    | setRuntimeMin l' level =>
        cases hstep
        have hkept : ((w.updateLogger l' fun old =>
            old.setRuntimeMin level).loggers l).sinkErrorCount =
              (w.loggers l).sinkErrorCount := by
          by_cases hl : l = l'
          · subst hl
            simp [World.updateLogger, Logger.setRuntimeMin]
          · simp [World.updateLogger, hl]
        rw [hkept]
        exact Nat.le_trans hw (by
          show _ ≤ _ + (n + 1) + 2 * w.events.length
          omega)

end

end Logging
end NginLog
