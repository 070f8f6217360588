import NginLog.Logging.SnapshotDispatch

/-!
# A call that runs alone

The model of one thread computes a call of `Log` in one go, with the programs of
the sinks; the model of several threads takes its steps one by one and leaves
the sinks to the scheduler.  Here the second carries out the first: from any
state, whatever the other threads are in the middle of, a thread that goes on
alone brings its call to an end, with the effect that the first model computes.

The programs of the sinks log, reconfigure and throw, but none of them waits for
another thread.  A sink whose `Write` takes a mutex, as that of a file or of the
console does, has no such program.
-/

namespace NginLog
namespace Logging

open Foundation Record

variable {logger sink state thread : Type}

/-!
## What both models show
-/

def SharedAction.By (t : thread) : SharedAction logger sink thread -> Prop
  | SharedAction.log t' _ => t' = t
  | SharedAction.flush t' _ => t' = t
  | SharedAction.setSinks t' _ _ _ => t' = t
  | SharedAction.setRuntimeMin t' _ _ => t' = t
  | SharedAction.goOn t' _ => t' = t

def Event.writing? : Event logger sink state -> Option (sink × LogRecordView)
  | Event.writing s record => some (s, record)
  | _ => none

def World.writes (w : World logger sink state) : List (sink × LogRecordView) :=
  w.events.filterMap Event.writing?

theorem World.writes_note (w : World logger sink state)
    (event : Event logger sink state) :
    (w.note event).writes = w.writes ++ event.writing?.toList := by
  unfold World.writes World.note
  rw [List.filterMap_append]
  cases event <;> rfl

/-- The state before the thread began, with what it has to leave alone. -/
structure Outset (logger sink thread : Type) where
  inDispatch : thread -> Bool
  stack : thread -> List (Frame logger sink)
  writes : List (thread × sink × LogRecordView)
  names : logger -> Bytes

section

variable [DecidableEq thread]

/-- The shared state is what the thread has made of the outset. -/
structure Shows (start : Outset logger sink thread) (t : thread)
    (frames : List (Frame logger sink)) (s : SharedState logger sink thread)
    (w : World logger sink state) : Prop where
  loggers : s.loggers = w.loggers
  inDispatch : s.inDispatch = Function.update start.inDispatch t w.inDispatch
  stack : s.stack = Function.update start.stack t frames
  writes : s.history.writes = start.writes ++ w.writes.map (t, ·)
  names : forall l, (w.loggers l).name = start.names l

variable {start : Outset logger sink thread} {t : thread}
  {frames : List (Frame logger sink)} {s : SharedState logger sink thread}
  {w : World logger sink state}

theorem Shows.top (h : Shows start t frames s w) : s.stack t = frames := by
  rw [h.stack, Function.update_self]

theorem Shows.flag (h : Shows start t frames s w) :
    s.inDispatch t = w.inDispatch := by
  rw [h.inDispatch, Function.update_self]

theorem Shows.setStack (h : Shows start t frames s w)
    (frames' : List (Frame logger sink)) :
    Shows start t frames' (s.setStack t frames') w := by
  refine ⟨h.loggers, h.inDispatch, ?_, h.writes, h.names⟩
  simp only [SharedState.setStack, h.stack, Function.update_idem]

theorem Shows.setFlag (h : Shows start t frames s w) (flag : Bool) :
    Shows start t frames (s.setFlag t flag) { w with inDispatch := flag } := by
  refine ⟨h.loggers, ?_, h.stack, h.writes, h.names⟩
  simp only [SharedState.setFlag, h.inDispatch, Function.update_idem]

theorem Shows.finish (h : Shows start t frames s w)
    (info : CallInfo logger sink) (outcome : Outcome)
    (below : List (Frame logger sink)) :
    Shows start t below (s.finish t info outcome below) w :=
  ⟨h.loggers, h.inDispatch, (h.setStack below).stack, h.writes, h.names⟩

theorem Shows.begin (h : Shows start t frames s w) (call : LogCall logger) :
    exists info, info.call = call ∧
      Shows start t (Frame.log info LogPc.loadRuntimeMin :: frames)
        (s.begin t call) w := by
  let info : CallInfo logger sink :=
    { call := call
      snapshotsBefore := (s.history.snapshots call.logger).length
      levelsBefore := (s.history.levels call.logger).length
      insideWrite := (s.stack t).any Frame.dispatching }
  have hbegun := h.setStack (Frame.log info LogPc.loadRuntimeMin :: frames)
  refine ⟨info, rfl, ?_⟩
  unfold SharedState.begin
  rw [h.top]
  exact h.top ▸ hbegun

theorem Shows.note (h : Shows start t frames s w)
    (event : Event logger sink state) (hevent : event.writing? = none) :
    Shows start t frames s (w.note event) := by
  refine ⟨h.loggers, h.inDispatch, h.stack, ?_, h.names⟩
  rw [World.writes_note, hevent, Option.toList_none, List.append_nil]
  exact h.writes

section

variable [DecidableEq logger]

theorem Shows.updateLogger (h : Shows start t frames s w) (l : logger)
    (change : Logger sink -> Logger sink)
    (hname : forall old, (change old).name = old.name) :
    Shows start t frames (s.updateLogger l change) (w.updateLogger l change)
    where
  loggers := by
    simp only [SharedState.updateLogger, World.updateLogger, h.loggers]
  inDispatch := h.inDispatch
  stack := h.stack
  writes := h.writes
  names := fun l' => by
    rw [← h.names l']
    by_cases hl : l' = l
    · subst hl
      simp [World.updateLogger, hname]
    · simp [World.updateLogger, hl]

theorem Shows.countError (h : Shows start t frames s w) (l : logger) :
    Shows start t frames (s.countError l) (w.countError l) :=
  h.updateLogger l Logger.countError fun _ => rfl

theorem Shows.setSinks (h : Shows start t frames s w) (l : logger)
    (sinks : List (Option sink)) (published : Bool) :
    Shows start t frames (s.setSinks l sinks published)
      (w.updateLogger l fun old => old.setSinks sinks published) := by
  have hset := h.updateLogger l (fun old => old.setSinks sinks published)
    fun old => by cases published <;> rfl
  cases published with
  | true =>
      exact ⟨hset.loggers, hset.inDispatch, hset.stack, hset.writes, hset.names⟩
  | false => exact hset

theorem Shows.setRuntimeMin (h : Shows start t frames s w) (l : logger)
    (level : LogLevel) :
    Shows start t frames (s.setRuntimeMin l level)
      (w.updateLogger l fun old => old.setRuntimeMin level) := by
  have hset := h.updateLogger l (fun old => old.setRuntimeMin level)
    fun _ => rfl
  exact ⟨hset.loggers, hset.inDispatch, hset.stack, hset.writes, hset.names⟩

end

/-!
## The programs of the sinks
-/

def MayCall : List (Frame logger sink) -> Bool
  | [] => true
  | frame :: _ => frame.inUserCode

theorem Shows.mayCall (h : Shows start t frames s w)
    (hmay : MayCall frames = true) :
    s.mayCall t = true := by
  unfold SharedState.mayCall
  rw [h.top]
  exact hmay

section

variable [DecidableEq logger] [DecidableEq sink] (compileTimeMin : LogLevel)
  (loggers : logger -> Logger sink) (start : Outset logger sink thread)
  (t : thread)

/-- The thread, going on alone, has the effect that the call computes. -/
def CarriedOut (inner : LogCall logger -> World logger sink state ->
    Option (World logger sink state)) : Prop :=
  forall call frames s w w', MayCall frames = true ->
    Shows start t frames s w -> inner call w = some w' ->
    exists s', (sharedLoggers compileTimeMin loggers).Leads
      (SharedAction.By t) s s' ∧ Shows start t frames s' w'

theorem Body.run_carriedOut
    {inner : LogCall logger -> World logger sink state ->
      Option (World logger sink state)}
    (hinner : CarriedOut compileTimeMin loggers start t inner) (target : sink)
    (program : Body logger sink state) {frames : List (Frame logger sink)}
    {s : SharedState logger sink thread} {w w' : World logger sink state}
    {threw : Bool} (hmay : MayCall frames = true)
    (h : Shows start t frames s w)
    (hrun : program.run inner target w = some (w', threw)) :
    exists s', (sharedLoggers compileTimeMin loggers).Leads
      (SharedAction.By t) s s' ∧ Shows start t frames s' w' := by
  induction program generalizing s w with
  | «return» | throw =>
      cases hrun
      exact ⟨s, Machine.Leads.refl s, h⟩
  | get next ih => exact ih (w.members target) h hrun
  | put members next ih =>
      have hput : Shows start t frames s
          { w with members := Function.update w.members target members } :=
        ⟨h.loggers, h.inDispatch, h.stack, h.writes, h.names⟩
      exact ih hput hrun
  | log call next ih =>
      rcases Option.bind_eq_some_iff.mp hrun with ⟨mid, hcall, hrest⟩
      rcases hinner call frames s w mid hmay h hcall with
        ⟨s1, hleads, hshows⟩
      rcases ih (hshows.note _ rfl) hrest with ⟨s', hleads', hshows'⟩
      exact ⟨s', hleads.trans hleads', hshows'⟩
  | setSinks l sinks published next ih =>
      have hset := h.setSinks l sinks published
      have hstep : (sharedLoggers compileTimeMin loggers).Leads
          (SharedAction.By t) s (s.setSinks l sinks published) :=
        @Machine.Leads.single _ _ _ (SharedAction.By t) _ _
          (SharedAction.setSinks t l sinks published) rfl
          (if_pos (h.mayCall hmay))
      have hshows : Shows start t frames (s.setSinks l sinks published)
          (if published then
            w.updateLogger l fun old => old.setSinks sinks published
          else
            (w.updateLogger l fun old => old.setSinks sinks published).note
              (Event.unpublished l)) := by
        split
        · exact hset
        · exact hset.note _ rfl
      rcases ih hshows hrun with ⟨s', hleads, hshows'⟩
      exact ⟨s', hstep.trans hleads, hshows'⟩
  | setRuntimeMin l level next ih =>
      have hstep : (sharedLoggers compileTimeMin loggers).Leads
          (SharedAction.By t) s (s.setRuntimeMin l level) :=
        @Machine.Leads.single _ _ _ (SharedAction.By t) _ _
          (SharedAction.setRuntimeMin t l level) rfl
          (if_pos (h.mayCall hmay))
      rcases ih (h.setRuntimeMin l level) hrun with ⟨s', hleads, hshows'⟩
      exact ⟨s', hstep.trans hleads, hshows'⟩
  | getSinkErrorCount l next ih =>
      exact ih (w.loggers l).sinkErrorCount h hrun

/-!
## The loop over the sinks
-/

variable {compileTimeMin loggers start t} {info : CallInfo logger sink}
  {pc : LogPc sink} {below : List (Frame logger sink)}
  {s : SharedState logger sink thread} {w w' : World logger sink state}

omit [DecidableEq sink] in
theorem Shows.goOn (compileTimeMin : LogLevel) (loggers : logger -> Logger sink)
    (h : Shows start t (Frame.log info pc :: below) s w) (throws : Bool) :
    (sharedLoggers compileTimeMin loggers).Leads (SharedAction.By t) s
      (logStep compileTimeMin s t throws info below pc) := by
  refine @Machine.Leads.single _ _ _ (SharedAction.By t) _ _
    (SharedAction.goOn t throws) rfl ?_
  simp only [sharedLoggers, h.top]

/-- The record that the call writes, as the loggers are named. -/
def Outset.record (start : Outset logger sink thread) (call : LogCall logger) :
    LogRecordView :=
  loggedRecord (call.site (start.names call.logger)) call.context call.callback

omit [DecidableEq logger] [DecidableEq sink] in
theorem Shows.record (h : Shows start t (Frame.log info pc :: below) s w) :
    s.record info.call = start.record info.call := by
  unfold SharedState.record Outset.record
  rw [h.loggers, h.names]

omit [DecidableEq sink] in
theorem Shows.written (compileTimeMin : LogLevel)
    (loggers : logger -> Logger sink) {rest : List (Option sink)}
    (h : Shows start t (Frame.log info (LogPc.inWrite rest) :: below) s w)
    (threw : Bool) :
    exists s', (sharedLoggers compileTimeMin loggers).Leads
        (SharedAction.By t) s s' ∧
      Shows start t (Frame.log info (LogPc.nextSink rest) :: below) s'
        (if threw then w.countError info.call.logger else w) := by
  have hended := h.goOn compileTimeMin loggers threw
  cases threw with
  | false => exact ⟨_, hended, h.setStack _⟩
  | true =>
      have hcount := h.setStack
        (Frame.log info (LogPc.countSinkError rest) :: below)
      refine ⟨_, hended.trans (hcount.goOn compileTimeMin loggers false), ?_⟩
      exact (hcount.countError info.call.logger).setStack _

theorem writeSinks_carriedOut
    {inner : LogCall logger -> World logger sink state ->
      Option (World logger sink state)}
    (hinner : CarriedOut compileTimeMin loggers start t inner)
    (body : sink -> LogRecordView -> Body logger sink state)
    (rest : List (Option sink))
    (h : Shows start t (Frame.log info (LogPc.nextSink rest) :: below) s w)
    (hrun : writeSinks inner body info.call.logger (start.record info.call)
      rest w = some w') :
    exists s' info', (sharedLoggers compileTimeMin loggers).Leads
        (SharedAction.By t) s s' ∧
      Shows start t (Frame.log info' (LogPc.nextSink []) :: below) s' w' := by
  induction rest generalizing info s w with
  | nil =>
      cases hrun
      exact ⟨s, info, Machine.Leads.refl s, h⟩
  | cons first rest ih =>
      have hnext := h.goOn compileTimeMin loggers false
      cases first with
      | none =>
          rcases ih (h.setStack _) hrun with ⟨s', info', hleads, hshows⟩
          exact ⟨s', info', hnext.trans hleads, hshows⟩
      | some target =>
          rw [writeSinks] at hrun
          rcases Option.bind_eq_some_iff.mp hrun with
            ⟨⟨mid, threw⟩, hwrite, hrest⟩
          rcases Option.map_eq_some_iff.mp hwrite with
            ⟨⟨ended, threw'⟩, hbody, hpair⟩
          cases hpair
          let info' := { info with
            written := info.written ++ [(target, s.record info.call)] }
          have hbegun : Shows start t
              (Frame.log info' (LogPc.inWrite rest) :: below)
              (logStep compileTimeMin s t false info below
                (LogPc.nextSink (some target :: rest)))
              (w.note (Event.writing target (start.record info.call))) := by
            refine ⟨h.loggers, h.inDispatch, (h.setStack _).stack, ?_, h.names⟩
            rw [World.writes_note, List.map_append, ← List.append_assoc,
              ← h.writes, ← h.record]
            rfl
          rcases Body.run_carriedOut compileTimeMin loggers start t hinner
              target _ rfl hbegun hbody with ⟨s1, hleads, hshows⟩
          rcases (hshows.note (Event.written target threw) rfl).written
              compileTimeMin loggers threw with
            ⟨s2, hleads', hshows'⟩
          rcases ih hshows' hrest with ⟨s', info'', hleads'', hdone⟩
          exact ⟨s', info'', hnext.trans (hleads.trans
            (hleads'.trans hleads'')), hdone⟩

/-!
## Whole calls
-/

theorem dispatch_carriedOut
    {inner : LogCall logger -> World logger sink state ->
      Option (World logger sink state)}
    (hinner : CarriedOut compileTimeMin loggers start t inner)
    (body : sink -> LogRecordView -> Body logger sink state)
    (h : Shows start t (Frame.log info LogPc.loadSinks :: below) s w)
    (hrun : dispatch inner body info.call w = some w') :
    exists s', (sharedLoggers compileTimeMin loggers).Leads
        (SharedAction.By t) s s' ∧
      Shows start t below s' w' := by
  have hload := h.goOn compileTimeMin loggers false
  rw [logStep, h.loggers] at hload
  rw [dispatch] at hrun
  cases hsinks : (w.loggers info.call.logger).activeSinks with
  | none =>
      rw [hsinks] at hload hrun
      cases hrun
      exact ⟨_, hload, h.finish _ _ _⟩
  | some sinks =>
      rw [hsinks] at hload hrun
      cases sinks with
      | nil =>
          cases hrun
          exact ⟨_, hload, h.finish _ _ _⟩
      | cons first rest =>
          simp only [h.flag] at hload
          cases hset : w.inDispatch with
          | true =>
              rw [hset] at hload
              simp only [hset, if_true] at hrun
              cases hrun
              have hrefused := h.setStack
                (Frame.log info LogPc.countRefused :: below)
              refine ⟨_, hload.trans
                (hrefused.goOn compileTimeMin loggers false), ?_⟩
              exact (hrefused.countError info.call.logger).finish _ _ _
          | false =>
              rw [hset] at hload
              simp only [hset, Bool.false_eq_true, if_false, h.names] at hrun
              rcases Option.map_eq_some_iff.mp hrun with ⟨w1, hwrite, rfl⟩
              have hguard := (h.setFlag true).setStack
                (Frame.log info (LogPc.nextSink (first :: rest)) :: below)
              rcases writeSinks_carriedOut hinner body _ hguard hwrite with
                ⟨s1, info', hleads, hshows⟩
              refine ⟨_, hload.trans (hleads.trans
                (hshows.goOn compileTimeMin loggers false)), ?_⟩
              exact (hshows.setFlag false).finish _ _ _

theorem logWith_eq (compileTimeMin : LogLevel)
    (inner : LogCall logger -> World logger sink state ->
      Option (World logger sink state))
    (body : sink -> LogRecordView -> Body logger sink state)
    (call : LogCall logger) (w : World logger sink state) :
    logWith inner body compileTimeMin call w =
      if call.enabled compileTimeMin (w.loggers call.logger) then
        dispatch inner body call
          (if call.callback.throws then w.countError call.logger else w)
      else
        some w := by
  unfold logWith LogCall.enabled
  by_cases hlevel : call.level.toUInt8 ≥ compileTimeMin.toUInt8 <;>
    simp [hlevel]

theorem logStep_carriedOut
    {inner : LogCall logger -> World logger sink state ->
      Option (World logger sink state)}
    (hinner : CarriedOut compileTimeMin loggers start t inner)
    (body : sink -> LogRecordView -> Body logger sink state)
    (h : Shows start t (Frame.log info LogPc.loadRuntimeMin :: below) s w)
    (hrun : logWith inner body compileTimeMin info.call w = some w') :
    exists s', (sharedLoggers compileTimeMin loggers).Leads
        (SharedAction.By t) s s' ∧
      Shows start t below s' w' := by
  have hload := h.goOn compileTimeMin loggers false
  rw [logStep, h.loggers] at hload
  rw [logWith_eq] at hrun
  split at hrun
  · rename_i henabled
    rw [if_pos henabled] at hload
    have hcallback := h.setStack (Frame.log info LogPc.callback :: below)
    have hcalled := hcallback.goOn compileTimeMin loggers false
    rw [logStep] at hcalled
    split at hrun
    · rename_i hthrows
      rw [if_pos hthrows] at hcalled
      have hthrew := hcallback.setStack
        (Frame.log info LogPc.countCallbackError :: below)
      have hcounted := (hthrew.countError info.call.logger).setStack
        (Frame.log info LogPc.loadSinks :: below)
      rcases dispatch_carriedOut hinner body hcounted hrun with
        ⟨s', hleads, hshows⟩
      exact ⟨s', hload.trans (hcalled.trans
        ((hthrew.goOn compileTimeMin loggers false).trans hleads)), hshows⟩
    · rename_i hreturns
      rw [if_neg hreturns] at hcalled
      rcases dispatch_carriedOut hinner body
          (hcallback.setStack (Frame.log info LogPc.loadSinks :: below)) hrun with
        ⟨s', hleads, hshows⟩
      exact ⟨s', hload.trans (hcalled.trans hleads), hshows⟩
  · rename_i hfiltered
    rw [if_neg hfiltered] at hload
    cases hrun
    exact ⟨_, hload, h.finish _ _ _⟩

theorem logWith_carriedOut
    {inner : LogCall logger -> World logger sink state ->
      Option (World logger sink state)}
    (hinner : CarriedOut compileTimeMin loggers start t inner)
    (body : sink -> LogRecordView -> Body logger sink state) :
    CarriedOut compileTimeMin loggers start t
      (logWith inner body compileTimeMin) := by
  intro call frames s w w' hmay h hrun
  have hbegin : (sharedLoggers compileTimeMin loggers).Leads
      (SharedAction.By t) s (s.begin t call) :=
    @Machine.Leads.single _ _ _ (SharedAction.By t) _ _
      (SharedAction.log t call) rfl (if_pos (h.mayCall hmay))
  rcases h.begin call with ⟨info, rfl, hbegun⟩
  rcases logStep_carriedOut hinner body hbegun hrun with ⟨s', hleads, hshows⟩
  exact ⟨s', hbegin.trans hleads, hshows⟩

theorem log_carriedOut
    (body : sink -> LogRecordView -> Body logger sink state) (depth : Nat) :
    CarriedOut compileTimeMin loggers start t
      (log compileTimeMin body depth) := by
  induction depth with
  | zero =>
      intro call frames s w w' _ _ hrun
      cases hrun
  | succ depth ih => exact logWith_carriedOut ih body

end

end

/--
A thread that is in no call begins one, and goes on alone, whatever the other
threads are in the middle of: the call ends, and the loggers, the flag and the
writes are then what the call computes in one go, with any programs of the sinks
and however large a depth of calls.
-/
theorem log_completes_alone (logger sink state thread : Type)
    [DecidableEq logger] [DecidableEq sink] [DecidableEq thread]
    (compileTimeMin : LogLevel) (loggers : logger -> Logger sink)
    (body : sink -> LogRecordView -> Body logger sink state) :
    forall (s : SharedState logger sink thread) t (call : LogCall logger)
        (members : sink -> state),
      (sharedLoggers compileTimeMin loggers).Reachable s -> s.stack t = [] ->
      exists w' rest s',
        (forall depth, 2 ≤ depth ->
          log compileTimeMin body depth call
            { loggers := s.loggers, members := members } = some w') ∧
        (forall a, a ∈ rest -> a.By t) ∧
        (sharedLoggers compileTimeMin loggers).runFrom s
          (SharedAction.log t call :: rest) = some s' ∧
        s'.loggers = w'.loggers ∧ w'.inDispatch = false ∧
        s'.inDispatch = s.inDispatch ∧ s'.stack = s.stack ∧
        s'.history.writes = s.history.writes ++ w'.writes.map (t, ·) := by
  intro s t call members h hidle
  let w : World logger sink state :=
    { loggers := s.loggers, members := members }
  let start : Outset logger sink thread :=
    { inDispatch := s.inDispatch, stack := s.stack, writes := s.history.writes
      names := fun l => (s.loggers l).name }
  have hclear : s.inDispatch t = false := by
    rw [(reachable_sound h).flag t, hidle]
    rfl
  have hshows : Shows start t [] s w := by
    refine ⟨rfl, ?_, ?_, (List.append_nil _).symm, fun _ => rfl⟩
    · exact (hclear ▸ Function.update_eq_self t s.inDispatch).symm
    · exact (hidle ▸ Function.update_eq_self t s.stack).symm
  have hbegin : (sharedLoggers compileTimeMin loggers).step s
      (SharedAction.log t call) = some (s.begin t call) :=
    if_pos (hshows.mayCall rfl)
  rcases @log_dispatched _ _ _ compileTimeMin _ _ body call w rfl with
    ⟨w', hlog, hdispatched⟩
  rcases hshows.begin call with ⟨info, rfl, hbegun⟩
  rcases @logStep_carriedOut _ _ _ _ _ _ _ compileTimeMin loggers start t info
      [] _ w w' _ (log_carriedOut body 1) body hbegun (hlog 2 (Nat.le_refl 2))
    with ⟨s', ⟨rest, hrest, hrun⟩, hended⟩
  refine ⟨w', rest, s', hlog, hrest, ?_, hended.loggers, hdispatched.clear, ?_,
    ?_, hended.writes⟩
  · rw [Machine.runFrom_cons, hbegin]
    exact hrun
  · rw [hended.inDispatch, hdispatched.clear]
    exact hclear ▸ Function.update_eq_self t s.inDispatch
  · rw [hended.stack]
    exact hidle ▸ Function.update_eq_self t s.stack

def throwingSink : Nat -> LogRecordView -> Body Unit Nat Unit
  | 1, _ => Body.log { logger := (), level := LogLevel.error } Body.throw
  | _, _ => Body.return

def insideWrite : List (SharedAction Unit Nat Bool) :=
  SharedAction.log true { logger := (), level := LogLevel.info } ::
    List.replicate 4 (SharedAction.goOn true false)

theorem insideWrite_completes :
    exists s rest s', (sharedLoggers LogLevel.trace twoSinks :
        Machine (SharedState Unit Nat Bool) _).Reachable s ∧
      (s.stack true).any Frame.inUserCode = true ∧
      (sharedLoggers LogLevel.trace twoSinks).runFrom s
        (SharedAction.log false { logger := (), level := LogLevel.info } ::
          rest) = some s' ∧
      s'.stack = s.stack ∧ (s'.loggers ()).sinkErrorCount = 2 ∧
      s'.history.writes.map (fun entry => (entry.1, entry.2.1)) =
        [(true, 1), (false, 1), (false, 2)] := by
  have hrun : (sharedLoggers LogLevel.trace twoSinks :
      Machine (SharedState Unit Nat Bool) _).run insideWrite = some _ := rfl
  have hreachable := Machine.reachable_of_run hrun
  rcases log_completes_alone Unit Nat Unit Bool LogLevel.trace twoSinks
      throwingSink _ false { logger := (), level := LogLevel.info }
      (fun _ => ()) hreachable rfl with
    ⟨w', rest, s', hlog, _, hleads, hloggers, _, _, hstack, hwrites⟩
  have hresult := hlog 2 (Nat.le_refl 2)
  rw [show log LogLevel.trace throwingSink 2 _ _ = some _ from rfl,
    Option.some.injEq] at hresult
  subst hresult
  refine ⟨_, rest, s', hreachable, rfl, hleads, hstack, ?_, ?_⟩
  · rw [hloggers]
    rfl
  · rw [hwrites]
    rfl

end Logging
end NginLog
