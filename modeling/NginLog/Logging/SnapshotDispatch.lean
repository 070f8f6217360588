import NginLog.Logging.SharedLogger

/-!
# Each call writes to one snapshot

However the calls of the threads interleave, a call of `Log` writes its record
to the sinks of one snapshot, once to each and in order, and the logger had this
snapshot at some time during the call.  So a call that begins after `SetSinks`
has returned does not write to the sinks that it replaced.  Only a `Write` on
the same thread cuts a call off.
-/

namespace NginLog
namespace Logging

open Foundation Record

variable {logger sink thread : Type}

/-!
## What is known of a call
-/

def LogCall.enabledAt (compileTimeMin : LogLevel) (call : LogCall logger)
    (level : LogLevel) : Bool :=
  call.enabled compileTimeMin ({ runtimeMin := level } : Logger Unit)

section

variable (compileTimeMin : LogLevel) (loggers : logger -> Logger sink)
  (past : Timelines logger sink)

def CallInfo.targets (info : CallInfo logger sink)
    (sinks : List (Option sink)) : List (sink × LogRecordView) :=
  sinks.reduceOption.map fun target =>
    (target,
      loggedRecord (info.call.site (loggers info.call.logger).name)
        info.call.context info.call.callback)

/-- The logger had this snapshot at some time during the call. -/
def CallInfo.SawSinks (info : CallInfo logger sink) (after : Nat)
    (snapshot : Option (List (Option sink))) : Prop :=
  CurrentDuring (past.snapshots info.call.logger) info.snapshotsBefore after
    snapshot

/-- The filters let the call pass, or not, at some time during the call. -/
def CallInfo.Enabled (info : CallInfo logger sink) (after : Nat)
    (enabled : Bool) : Prop :=
  exists level,
    CurrentDuring (past.levels info.call.logger) info.levelsBefore after
      level ∧
    info.call.enabledAt compileTimeMin level = enabled

def CallInfo.Did (info : CallInfo logger sink)
    (snapshotsAfter levelsAfter : Nat) : Outcome -> Prop
  | Outcome.filtered =>
      info.Enabled compileTimeMin past levelsAfter false ∧ info.written = []
  | Outcome.noSinks =>
      info.Enabled compileTimeMin past levelsAfter true ∧ info.written = [] ∧
        exists snapshot, info.SawSinks past snapshotsAfter snapshot ∧
          snapshot.getD [] = []
  | Outcome.refused =>
      info.Enabled compileTimeMin past levelsAfter true ∧ info.written = [] ∧
        info.insideWrite = true
  | Outcome.dispatched =>
      info.Enabled compileTimeMin past levelsAfter true ∧
        info.insideWrite = false ∧
        exists snapshot, info.SawSinks past snapshotsAfter (some snapshot) ∧
          info.written = info.targets loggers snapshot

/-- The call, which has returned, has done what its outcome says. -/
structure ReturnedCall.Sound (returned : ReturnedCall logger sink) : Prop where
  snapshots : returned.snapshotsAfter ≤
    (past.snapshots returned.info.call.logger).length
  levels : returned.levelsAfter ≤
    (past.levels returned.info.call.logger).length
  did : returned.info.Did compileTimeMin loggers past returned.snapshotsAfter
    returned.levelsAfter returned.outcome

/-!
## Calls in progress
-/

def CallInfo.snapshotsNow (info : CallInfo logger sink) : Nat :=
  (past.snapshots info.call.logger).length

def CallInfo.levelsNow (info : CallInfo logger sink) : Nat :=
  (past.levels info.call.logger).length

def CallInfo.At (info : CallInfo logger sink) : LogPc sink -> Prop
  | LogPc.loadRuntimeMin => info.written = []
  | LogPc.callback | LogPc.countCallbackError | LogPc.loadSinks =>
      info.Enabled compileTimeMin past (info.levelsNow past) true ∧
        info.written = []
  | LogPc.countRefused =>
      info.Enabled compileTimeMin past (info.levelsNow past) true ∧
        info.written = [] ∧ info.insideWrite = true
  | LogPc.nextSink rest | LogPc.inWrite rest | LogPc.countSinkError rest =>
      info.Enabled compileTimeMin past (info.levelsNow past) true ∧
        info.insideWrite = false ∧
        exists snapshot,
          info.SawSinks past (info.snapshotsNow past) (some snapshot) ∧
          info.written ++ info.targets loggers rest =
            info.targets loggers snapshot

/-- A call, with the calls below it on its thread. -/
def Frame.Sound (below : List (Frame logger sink)) : Frame logger sink -> Prop
  | Frame.log info pc =>
      info.snapshotsBefore ≤ info.snapshotsNow past ∧
        info.levelsBefore ≤ info.levelsNow past ∧
        info.insideWrite = below.any Frame.dispatching ∧
        info.At compileTimeMin loggers past pc
  | Frame.flush _ _ => True

def StackSound : List (Frame logger sink) -> Prop
  | [] => True
  | frame :: below =>
      frame.Sound compileTimeMin loggers past below ∧ StackSound below

end

namespace SharedHistory

variable [DecidableEq thread]

def writesOf (history : SharedHistory logger sink thread) (t : thread) :
    List (sink × LogRecordView) :=
  (history.writes.filter fun entry => entry.1 = t).map Prod.snd

/-- What its calls have written, in the order in which they have returned. -/
def returnedWritesOf (history : SharedHistory logger sink thread)
    (t : thread) : List (sink × LogRecordView) :=
  (history.returned.filter fun entry => entry.1 = t).flatMap fun entry =>
    entry.2.info.written

end SharedHistory

structure SharedState.Sound [DecidableEq thread] (compileTimeMin : LogLevel)
    (loggers : logger -> Logger sink) (s : SharedState logger sink thread) :
    Prop where
  names : forall l, (s.loggers l).name = (loggers l).name
  snapshots : forall l,
    Timeline (s.history.snapshots l) (s.loggers l).activeSinks
  levels : forall l, Timeline (s.history.levels l) (s.loggers l).runtimeMin
  stack : forall t,
    StackSound compileTimeMin loggers s.history.toTimelines (s.stack t)
  flag : forall t, s.inDispatch t = (s.stack t).any Frame.dispatching
  returned : forall entry, entry ∈ s.history.returned ->
    entry.2.Sound compileTimeMin loggers s.history.toTimelines
  writes : forall t, s.history.writesOf t =
    s.history.returnedWritesOf t ++ (s.stack t).flatMap Frame.written

/-!
## The past only grows
-/

/-- The cells have had more values since. -/
structure Timelines.Grows (past later : Timelines logger sink) : Prop where
  snapshots : forall l, past.snapshots l <+: later.snapshots l
  levels : forall l, past.levels l <+: later.levels l

section

variable {compileTimeMin : LogLevel} {loggers : logger -> Logger sink}
  {past later : Timelines logger sink} (h : past.Grows later)

include h

theorem CallInfo.SawSinks.grows {info : CallInfo logger sink} {after : Nat}
    {snapshot : Option (List (Option sink))}
    (hsaw : info.SawSinks past after snapshot)
    (hafter : after ≤ info.snapshotsNow past) :
    info.SawSinks later after snapshot := by
  rcases h.snapshots info.call.logger with ⟨new, hnew⟩
  unfold CallInfo.SawSinks
  rw [← hnew]
  exact CurrentDuring.append hsaw hafter new

theorem CallInfo.Enabled.grows {info : CallInfo logger sink} {after : Nat}
    {enabled : Bool} (henabled : info.Enabled compileTimeMin past after enabled)
    (hafter : after ≤ info.levelsNow past) :
    info.Enabled compileTimeMin later after enabled := by
  rcases h.levels info.call.logger with ⟨new, hnew⟩
  rcases henabled with ⟨level, hlevel, heq⟩
  refine ⟨level, ?_, heq⟩
  rw [← hnew]
  exact CurrentDuring.append hlevel hafter new

theorem CallInfo.snapshotsNow_le (info : CallInfo logger sink) :
    info.snapshotsNow past ≤ info.snapshotsNow later :=
  (h.snapshots info.call.logger).length_le

theorem CallInfo.levelsNow_le (info : CallInfo logger sink) :
    info.levelsNow past ≤ info.levelsNow later :=
  (h.levels info.call.logger).length_le

theorem ReturnedCall.Sound.grows {returned : ReturnedCall logger sink}
    (hreturned : returned.Sound compileTimeMin loggers past) :
    returned.Sound compileTimeMin loggers later := by
  rcases hreturned with ⟨hsnapshots, hlevels, hdid⟩
  refine ⟨Nat.le_trans hsnapshots (CallInfo.snapshotsNow_le h _),
    Nat.le_trans hlevels (CallInfo.levelsNow_le h _), ?_⟩
  generalize returned.outcome = outcome at hdid ⊢
  cases outcome with
  | filtered => exact ⟨hdid.1.grows h hlevels, hdid.2⟩
  | noSinks =>
      rcases hdid with ⟨henabled, hwritten, snapshot, hsaw, hempty⟩
      exact ⟨henabled.grows h hlevels, hwritten, snapshot,
        hsaw.grows h hsnapshots, hempty⟩
  | refused => exact ⟨hdid.1.grows h hlevels, hdid.2⟩
  | dispatched =>
      rcases hdid with ⟨henabled, hinside, snapshot, hsaw, hwritten⟩
      exact ⟨henabled.grows h hlevels, hinside, snapshot,
        hsaw.grows h hsnapshots, hwritten⟩

theorem CallInfo.At.grows {info : CallInfo logger sink} {pc : LogPc sink}
    (hat : info.At compileTimeMin loggers past pc) :
    info.At compileTimeMin loggers later pc := by
  have henabled : info.Enabled compileTimeMin past (info.levelsNow past) true ->
      info.Enabled compileTimeMin later (info.levelsNow later) true := by
    intro henabled
    rcases henabled.grows h (Nat.le_refl _) with ⟨level, hlevel, heq⟩
    exact ⟨level, hlevel.mono (info.levelsNow_le h), heq⟩
  cases pc with
  | loadRuntimeMin => exact hat
  | callback | countCallbackError | loadSinks =>
      exact ⟨henabled hat.1, hat.2⟩
  | countRefused => exact ⟨henabled hat.1, hat.2⟩
  | nextSink rest | inWrite rest | countSinkError rest =>
      rcases hat with ⟨hpassed, hinside, snapshot, hsaw, hwritten⟩
      exact ⟨henabled hpassed, hinside, snapshot,
        (hsaw.grows h (Nat.le_refl _)).mono (info.snapshotsNow_le h), hwritten⟩

theorem StackSound.grows {frames : List (Frame logger sink)}
    (hframes : StackSound compileTimeMin loggers past frames) :
    StackSound compileTimeMin loggers later frames := by
  induction frames with
  | nil => exact trivial
  | cons frame below ih =>
      refine ⟨?_, ih hframes.2⟩
      cases frame with
      | log info pc =>
          rcases hframes.1 with ⟨hsnapshots, hlevels, hinside, hat⟩
          exact ⟨Nat.le_trans hsnapshots (info.snapshotsNow_le h),
            Nat.le_trans hlevels (info.levelsNow_le h), hinside, hat.grows h⟩
      | flush l pc => exact trivial

end

/-!
## Steps of a thread
-/

def SameCells (loggers loggers' : logger -> Logger sink) : Prop :=
  forall l, (loggers' l).name = (loggers l).name ∧
    (loggers' l).activeSinks = (loggers l).activeSinks ∧
    (loggers' l).runtimeMin = (loggers l).runtimeMin

theorem SameCells.refl (loggers : logger -> Logger sink) :
    SameCells loggers loggers := fun _ => ⟨rfl, rfl, rfl⟩

theorem sameCells_countError [DecidableEq logger]
    (s : SharedState logger sink thread) (l : logger) :
    SameCells s.loggers (s.countError l).loggers := by
  intro l'
  unfold SharedState.countError SharedState.updateLogger
  by_cases hl : l' = l
  · subst hl
    simp [Logger.countError]
  · simp [hl]

theorem StackSound.written_eq_nil {compileTimeMin : LogLevel}
    {loggers : logger -> Logger sink} {past : Timelines logger sink}
    {frames : List (Frame logger sink)}
    (h : StackSound compileTimeMin loggers past frames)
    (hnone : frames.any Frame.dispatching = false) :
    frames.flatMap Frame.written = [] := by
  induction frames with
  | nil => rfl
  | cons frame below ih =>
      rw [List.any_cons, Bool.or_eq_false_iff] at hnone
      rw [List.flatMap_cons, ih h.2 hnone.2, List.append_nil]
      cases frame with
      | flush l pc => rfl
      | log info pc =>
          rcases h.1 with ⟨_, _, _, hat⟩
          cases pc with
          | loadRuntimeMin => exact hat
          | callback | countCallbackError | loadSinks => exact hat.2
          | countRefused => exact hat.2.1
          | nextSink rest | inWrite rest | countSinkError rest =>
              cases hnone.1

section

variable [DecidableEq thread] {compileTimeMin : LogLevel}
  {loggers : logger -> Logger sink} {s s' : SharedState logger sink thread}

theorem SharedState.Sound.advance (h : s.Sound compileTimeMin loggers)
    (t : thread) {frames : List (Frame logger sink)} {flag : Bool}
    (hloggers : SameCells s.loggers s'.loggers)
    (hpast : s'.history.toTimelines = s.history.toTimelines)
    (hstack : s'.stack = Function.update s.stack t frames)
    (hflag : s'.inDispatch = Function.update s.inDispatch t flag)
    (hframes : StackSound compileTimeMin loggers s.history.toTimelines frames)
    (hdispatching : flag = frames.any Frame.dispatching)
    (hreturned : forall entry, entry ∈ s'.history.returned ->
      entry ∈ s.history.returned ∨
        entry.2.Sound compileTimeMin loggers s.history.toTimelines)
    (hmine : s'.history.writesOf t =
      s'.history.returnedWritesOf t ++ frames.flatMap Frame.written)
    (hothers : forall t', t' ≠ t ->
      s'.history.writesOf t' = s.history.writesOf t' ∧
        s'.history.returnedWritesOf t' = s.history.returnedWritesOf t') :
    s'.Sound compileTimeMin loggers := by
  have hsnapshots : s'.history.snapshots = s.history.snapshots :=
    congrArg Timelines.snapshots hpast
  have hlevels : s'.history.levels = s.history.levels :=
    congrArg Timelines.levels hpast
  refine ⟨fun l => (hloggers l).1.trans (h.names l), fun l => ?_, fun l => ?_,
    fun t' => ?_, fun t' => ?_, fun entry hentry => ?_, fun t' => ?_⟩
  · rw [hsnapshots, (hloggers l).2.1]
    exact h.snapshots l
  · rw [hlevels, (hloggers l).2.2]
    exact h.levels l
  · rw [hpast, hstack]
    by_cases ht : t' = t
    · subst ht
      rw [Function.update_self]
      exact hframes
    · rw [Function.update_of_ne ht]
      exact h.stack t'
  · rw [hstack, hflag]
    by_cases ht : t' = t
    · subst ht
      rw [Function.update_self, Function.update_self]
      exact hdispatching
    · rw [Function.update_of_ne ht, Function.update_of_ne ht]
      exact h.flag t'
  · rw [hpast]
    rcases hreturned entry hentry with hold | hnew
    · exact h.returned entry hold
    · exact hnew
  · rw [hstack]
    by_cases ht : t' = t
    · subst ht
      rw [Function.update_self]
      exact hmine
    · rw [Function.update_of_ne ht, (hothers t' ht).1, (hothers t' ht).2]
      exact h.writes t'

theorem SharedState.Sound.move (h : s.Sound compileTimeMin loggers) (t : thread)
    {frames : List (Frame logger sink)} {flag : Bool}
    (hloggers : SameCells s.loggers s'.loggers)
    (hhistory : s'.history = s.history)
    (hstack : s'.stack = Function.update s.stack t frames)
    (hflag : s'.inDispatch = Function.update s.inDispatch t flag)
    (hframes : StackSound compileTimeMin loggers s.history.toTimelines frames)
    (hdispatching : flag = frames.any Frame.dispatching)
    (hwritten : frames.flatMap Frame.written =
      (s.stack t).flatMap Frame.written) :
    s'.Sound compileTimeMin loggers := by
  refine h.advance t hloggers (by rw [hhistory]) hstack hflag hframes
    hdispatching (fun entry hentry => ?_) ?_ (fun t' _ => ?_)
  · exact Or.inl (hhistory ▸ hentry)
  · rw [hhistory, hwritten]
    exact h.writes t
  · rw [hhistory]
    exact ⟨rfl, rfl⟩

theorem SharedState.Sound.write (h : s.Sound compileTimeMin loggers)
    (t : thread) {frames : List (Frame logger sink)}
    {write : sink × LogRecordView}
    (hloggers : s'.loggers = s.loggers)
    (hhistory : s'.history =
      { s.history with writes := s.history.writes ++ [(t, write)] })
    (hstack : s'.stack = Function.update s.stack t frames)
    (hflag : s'.inDispatch = s.inDispatch)
    (hframes : StackSound compileTimeMin loggers s.history.toTimelines frames)
    (hdispatching : s.inDispatch t = frames.any Frame.dispatching)
    (hwritten : frames.flatMap Frame.written =
      (s.stack t).flatMap Frame.written ++ [write]) :
    s'.Sound compileTimeMin loggers := by
  refine h.advance t (hloggers ▸ SameCells.refl s.loggers) (by rw [hhistory])
    hstack (hflag.trans (Function.update_eq_self t s.inDispatch).symm) hframes
    hdispatching (fun entry hentry => ?_) ?_ (fun t' ht => ?_)
  · rw [hhistory] at hentry
    exact Or.inl hentry
  · have hold := h.writes t
    unfold SharedHistory.writesOf SharedHistory.returnedWritesOf at hold ⊢
    rw [hhistory, hwritten, ← List.append_assoc]
    dsimp only
    rw [List.filter_append, List.map_append, hold]
    simp
  · rw [hhistory]
    unfold SharedHistory.writesOf SharedHistory.returnedWritesOf
    simp [Ne.symm ht]

theorem SharedState.Sound.finish (h : s.Sound compileTimeMin loggers)
    (t : thread) {below : List (Frame logger sink)} {flag : Bool}
    {returned : ReturnedCall logger sink}
    (hloggers : SameCells s.loggers s'.loggers)
    (hhistory : s'.history =
      { s.history with returned := s.history.returned ++ [(t, returned)] })
    (hstack : s'.stack = Function.update s.stack t below)
    (hflag : s'.inDispatch = Function.update s.inDispatch t flag)
    (hbelow : StackSound compileTimeMin loggers s.history.toTimelines below)
    (hdispatching : flag = below.any Frame.dispatching)
    (hreturned : returned.Sound compileTimeMin loggers s.history.toTimelines)
    (hwritten : (s.stack t).flatMap Frame.written =
      returned.info.written ++ below.flatMap Frame.written) :
    s'.Sound compileTimeMin loggers := by
  refine h.advance t hloggers (by rw [hhistory]) hstack hflag hbelow
    hdispatching (fun entry hentry => ?_) ?_ (fun t' ht => ?_)
  · rw [hhistory] at hentry
    rcases List.mem_append.mp hentry with hentry | hentry
    · exact Or.inl hentry
    · cases List.mem_singleton.mp hentry
      exact Or.inr hreturned
  · have hold := h.writes t
    unfold SharedHistory.writesOf SharedHistory.returnedWritesOf at hold ⊢
    rw [hhistory]
    dsimp only
    rw [List.filter_append, List.flatMap_append, hold, hwritten]
    simp
  · rw [hhistory]
    unfold SharedHistory.writesOf SharedHistory.returnedWritesOf
    simp [Ne.symm ht]

/-!
The cases of `Log`.
-/

section

variable {t : thread} {info : CallInfo logger sink} {pc : LogPc sink}
  {below : List (Frame logger sink)}

theorem SharedState.Sound.goto (h : s.Sound compileTimeMin loggers)
    (hstack : s.stack t = Frame.log info pc :: below) {pc' : LogPc sink}
    (hloggers : SameCells s.loggers s'.loggers)
    (hhistory : s'.history = s.history)
    (hstack' : s'.stack = Function.update s.stack t
      (Frame.log info pc' :: below))
    (hflag : s'.inDispatch = s.inDispatch)
    (hpc : pc'.dispatching = pc.dispatching)
    (hat : info.At compileTimeMin loggers s.history.toTimelines pc') :
    s'.Sound compileTimeMin loggers := by
  have hframes := h.stack t
  have hold := h.flag t
  rw [hstack] at hframes hold
  rcases hframes with ⟨⟨hsnapshots, hlevels, hinside, _⟩, hbelow⟩
  refine h.move t hloggers hhistory hstack'
    (hflag.trans (Function.update_eq_self t s.inDispatch).symm)
    ⟨⟨hsnapshots, hlevels, hinside, hat⟩, hbelow⟩ ?_ ?_
  · rw [hold, List.any_cons, List.any_cons]
    exact congrArg (· || _) hpc.symm
  · rw [hstack]
    rfl

theorem SharedState.Sound.leave (h : s.Sound compileTimeMin loggers)
    (hstack : s.stack t = Frame.log info pc :: below) {outcome : Outcome}
    (hpc : pc.dispatching = false)
    (hdid : info.Did compileTimeMin loggers s.history.toTimelines
      (info.snapshotsNow s.history.toTimelines)
      (info.levelsNow s.history.toTimelines) outcome) :
    (s.finish t info outcome below).Sound compileTimeMin loggers := by
  have hframes := h.stack t
  have hold := h.flag t
  rw [hstack] at hframes hold
  refine h.finish t (SameCells.refl s.loggers) rfl rfl
    (Function.update_eq_self t s.inDispatch).symm hframes.2 ?_
    ⟨Nat.le_refl _, Nat.le_refl _, hdid⟩ ?_
  · rw [hold, List.any_cons]
    exact congrArg (· || _) hpc
  · rw [hstack]
    rfl

variable [DecidableEq logger]

theorem SharedState.Sound.countError (h : s.Sound compileTimeMin loggers)
    (l : logger) : (s.countError l).Sound compileTimeMin loggers := by
  have hloggers := sameCells_countError s l
  exact ⟨fun l' => (hloggers l').1.trans (h.names l'),
    fun l' => by
      rw [(hloggers l').2.1]
      exact h.snapshots l',
    fun l' => by
      rw [(hloggers l').2.2]
      exact h.levels l',
    h.stack, h.flag, h.returned, h.writes⟩

theorem sound_logStep (h : s.Sound compileTimeMin loggers)
    (hstack : s.stack t = Frame.log info pc :: below) (throws : Bool) :
    (logStep compileTimeMin s t throws info below pc).Sound compileTimeMin
      loggers := by
  have hframes := h.stack t
  have hflag := h.flag t
  rw [hstack] at hframes hflag
  rcases hframes with ⟨⟨hsnapshots, hlevels, hinside, hat⟩, hbelow⟩
  have hsame := SameCells.refl s.loggers
  have hlevel := (h.levels info.call.logger).current hlevels
  have hsinks := (h.snapshots info.call.logger).current hsnapshots
  cases pc with
  | loadRuntimeMin =>
      rw [logStep]
      cases henabled : info.call.enabled compileTimeMin
          (s.loggers info.call.logger) with
      | true =>
          rw [if_pos rfl]
          exact h.goto hstack hsame rfl rfl rfl rfl
            ⟨⟨_, hlevel, henabled⟩, hat⟩
      | false =>
          rw [if_neg Bool.false_ne_true]
          exact h.leave hstack rfl ⟨⟨_, hlevel, henabled⟩, hat⟩
  | callback =>
      rw [logStep]
      split
      · exact h.goto hstack hsame rfl rfl rfl rfl hat
      · exact h.goto hstack hsame rfl rfl rfl rfl hat
  | countCallbackError =>
      exact h.goto hstack (sameCells_countError s info.call.logger) rfl rfl rfl
        rfl hat
  | loadSinks =>
      rw [logStep]
      cases hactive : (s.loggers info.call.logger).activeSinks with
      | none =>
          rw [hactive] at hsinks
          exact h.leave hstack rfl ⟨hat.1, hat.2, none, hsinks, rfl⟩
      | some sinks =>
          rw [hactive] at hsinks
          cases sinks with
          | nil => exact h.leave hstack rfl ⟨hat.1, hat.2, some [], hsinks, rfl⟩
          | cons first rest =>
              dsimp only
              cases hset : s.inDispatch t with
              | true =>
                  have hwithin : info.insideWrite = true := by
                    rw [hinside, ← hset, hflag]
                    rfl
                  rw [if_pos rfl]
                  exact h.goto hstack hsame rfl rfl rfl rfl
                    ⟨hat.1, hat.2, hwithin⟩
              | false =>
                  have hwithin : info.insideWrite = false := by
                    rw [hinside, ← hset, hflag]
                    rfl
                  rw [if_neg Bool.false_ne_true]
                  refine h.move t hsame rfl rfl rfl
                    ⟨⟨hsnapshots, hlevels, hinside, hat.1, hwithin, _, hsinks,
                      ?_⟩, hbelow⟩ rfl ?_
                  · rw [hat.2, List.nil_append]
                  · rw [hstack]
                    rfl
  | countRefused =>
      exact (h.countError info.call.logger).leave hstack rfl hat
  | nextSink rest =>
      rcases hat with ⟨hpassed, hwithin, snapshot, hsaw, hwritten⟩
      have hclear : below.any Frame.dispatching = false :=
        hinside.symm.trans hwithin
      cases rest with
      | nil =>
          refine h.finish t hsame rfl rfl rfl hbelow hclear.symm
            ⟨Nat.le_refl _, Nat.le_refl _, hpassed, hwithin, snapshot, hsaw,
              (List.append_nil _).symm.trans hwritten⟩ ?_
          rw [hstack]
          rfl
      | cons target rest =>
          cases target with
          | none =>
              exact h.goto hstack hsame rfl rfl rfl rfl
                ⟨hpassed, hwithin, snapshot, hsaw, hwritten⟩
          | some target =>
              have hnone := hbelow.written_eq_nil hclear
              have hnow : s.record info.call = loggedRecord
                  (info.call.site (loggers info.call.logger).name)
                  info.call.context info.call.callback := by
                unfold SharedState.record
                rw [h.names]
              refine h.write t rfl rfl rfl rfl
                ⟨⟨hsnapshots, hlevels, hinside, hpassed, hwithin, snapshot,
                  hsaw, ?_⟩, hbelow⟩ hflag ?_
              · rw [hnow, List.append_assoc]
                exact hwritten
              · rw [hstack, List.flatMap_cons, List.flatMap_cons, hnone]
                simp [Frame.written]
  | inWrite rest =>
      rw [logStep]
      split
      · exact h.goto hstack hsame rfl rfl rfl rfl hat
      · exact h.goto hstack hsame rfl rfl rfl rfl hat
  | countSinkError rest =>
      exact h.goto hstack (sameCells_countError s info.call.logger) rfl rfl rfl
        rfl hat

/-!
The cases of `Flush` and of the setters.
-/

theorem sound_flushStep (h : s.Sound compileTimeMin loggers) {l : logger}
    {pc : FlushPc sink} (hstack : s.stack t = Frame.flush l pc :: below)
    (throws : Bool) :
    (flushStep s t throws l below pc).Sound compileTimeMin loggers := by
  have hframes := h.stack t
  have hflag := h.flag t
  rw [hstack] at hframes hflag
  have hpop : (s.setStack t below).Sound compileTimeMin loggers := by
    refine h.move t (SameCells.refl s.loggers) rfl rfl
      (Function.update_eq_self t s.inDispatch).symm hframes.2 hflag ?_
    rw [hstack]
    rfl
  have hgo : forall pc' : FlushPc sink,
      (s.setStack t (Frame.flush l pc' :: below)).Sound compileTimeMin
        loggers := by
    intro pc'
    refine h.move t (SameCells.refl s.loggers) rfl rfl
      (Function.update_eq_self t s.inDispatch).symm ⟨trivial, hframes.2⟩ hflag
      ?_
    rw [hstack]
    rfl
  cases pc with
  | loadSinks =>
      rw [flushStep]
      split
      · exact hpop
      · exact hgo _
  | nextSink rest =>
      cases rest with
      | nil => exact hpop
      | cons target rest =>
          cases target with
          | none => exact hgo _
          | some target => exact hgo _
  | inFlush rest =>
      rw [flushStep]
      split
      · exact hgo _
      · exact hgo _
  | countSinkError rest => exact (hgo _).countError l

omit [DecidableEq logger] in
theorem SharedState.Sound.store (h : s.Sound compileTimeMin loggers)
    (hgrows : s.history.toTimelines.Grows s'.history.toTimelines)
    (hnames : forall l, (s'.loggers l).name = (s.loggers l).name)
    (hsnapshots : forall l,
      Timeline (s'.history.snapshots l) (s'.loggers l).activeSinks)
    (hlevels : forall l,
      Timeline (s'.history.levels l) (s'.loggers l).runtimeMin)
    (hstack : s'.stack = s.stack) (hflag : s'.inDispatch = s.inDispatch)
    (hwrites : s'.history.writes = s.history.writes)
    (hreturned : s'.history.returned = s.history.returned) :
    s'.Sound compileTimeMin loggers where
  names := fun l => (hnames l).trans (h.names l)
  snapshots := hsnapshots
  levels := hlevels
  stack := fun t => hstack ▸ (h.stack t).grows hgrows
  flag := fun t => hstack ▸ hflag ▸ h.flag t
  returned := by
    rw [hreturned]
    exact fun entry hentry => (h.returned entry hentry).grows hgrows
  writes := fun t => by
    unfold SharedHistory.writesOf SharedHistory.returnedWritesOf
    rw [hstack, hwrites, hreturned]
    exact h.writes t

omit [DecidableEq thread] in
theorem updateLogger_field {field : Type}
    (s : SharedState logger sink thread) (get : Logger sink -> field)
    (l : logger) (change : Logger sink -> Logger sink) (l' : logger) :
    get ((s.updateLogger l change).loggers l') =
      Function.update (fun l => get (s.loggers l)) l
        (get (change (s.loggers l))) l' :=
  Function.apply_update (fun _ => get) s.loggers l _ l'

omit [DecidableEq thread] in
theorem updateLogger_keeps {field : Type} (s : SharedState logger sink thread)
    (get : Logger sink -> field) (l : logger)
    (change : Logger sink -> Logger sink)
    (hkeeps : get (change (s.loggers l)) = get (s.loggers l)) (l' : logger) :
    get ((s.updateLogger l change).loggers l') = get (s.loggers l') := by
  have hfield := updateLogger_field s get l change l'
  rw [hkeeps] at hfield
  exact hfield.trans
    (congrFun (Function.update_eq_self l fun l => get (s.loggers l)) l')

theorem sound_setSinks (h : s.Sound compileTimeMin loggers) (l : logger)
    (sinks : List (Option sink)) (published : Bool) :
    (s.setSinks l sinks published).Sound compileTimeMin loggers := by
  cases published with
  | false => exact h.countError l
  | true =>
      refine h.store ⟨Timeline.prefix_update s.history.snapshots l (some sinks),
        fun _ => List.prefix_rfl⟩
        (updateLogger_keeps s Logger.name l (fun old => old.setSinks sinks true)
          rfl)
        (fun l' => ?_) (fun l' => ?_) rfl rfl rfl rfl
      · have hcell := updateLogger_field s Logger.activeSinks l
          (fun old => old.setSinks sinks true) l'
        exact hcell ▸ Timeline.update h.snapshots l (some sinks) l'
      · have hcell := updateLogger_keeps s Logger.runtimeMin l
          (fun old => old.setSinks sinks true) rfl l'
        exact hcell ▸ h.levels l'

theorem sound_setRuntimeMin (h : s.Sound compileTimeMin loggers) (l : logger)
    (level : LogLevel) :
    (s.setRuntimeMin l level).Sound compileTimeMin loggers := by
  refine h.store ⟨fun _ => List.prefix_rfl,
    Timeline.prefix_update s.history.levels l level⟩
    (updateLogger_keeps s Logger.name l (fun old => old.setRuntimeMin level)
      rfl) (fun l' => ?_) (fun l' => ?_) rfl rfl rfl rfl
  · have hcell := updateLogger_keeps s Logger.activeSinks l
      (fun old => old.setRuntimeMin level) rfl l'
    exact hcell ▸ h.snapshots l'
  · have hcell := updateLogger_field s Logger.runtimeMin l
      (fun old => old.setRuntimeMin level) l'
    exact hcell ▸ Timeline.update h.levels l level l'

/-!
## Every run
-/

theorem sound_step (h : s.Sound compileTimeMin loggers)
    {action : SharedAction logger sink thread}
    (hstep : (sharedLoggers compileTimeMin loggers).step s action = some s') :
    s'.Sound compileTimeMin loggers := by
  cases action with
  | log t call =>
      rcases Option.ite_none_right_eq_some.mp hstep with ⟨_, hbegin⟩
      cases hbegin
      exact h.move t (SameCells.refl s.loggers) rfl rfl
        (Function.update_eq_self t s.inDispatch).symm
        ⟨⟨Nat.le_refl _, Nat.le_refl _, rfl, rfl⟩, h.stack t⟩ (h.flag t) rfl
  | flush t l =>
      rcases Option.ite_none_right_eq_some.mp hstep with ⟨_, hbegin⟩
      cases hbegin
      exact h.move t (SameCells.refl s.loggers) rfl rfl
        (Function.update_eq_self t s.inDispatch).symm ⟨trivial, h.stack t⟩
        (h.flag t) rfl
  | setSinks t l sinks published =>
      rcases Option.ite_none_right_eq_some.mp hstep with ⟨_, hset⟩
      cases hset
      exact sound_setSinks h l sinks published
  | setRuntimeMin t l level =>
      rcases Option.ite_none_right_eq_some.mp hstep with ⟨_, hset⟩
      cases hset
      exact sound_setRuntimeMin h l level
  | goOn t throws =>
      cases hstack : s.stack t with
      | nil =>
          simp only [sharedLoggers, hstack] at hstep
          cases hstep
      | cons frame below =>
          simp only [sharedLoggers, hstack] at hstep
          cases frame with
          | log info pc =>
              cases hstep
              exact sound_logStep h hstack throws
          | flush l pc =>
              cases hstep
              exact sound_flushStep h hstack throws

theorem reachable_sound
    (h : (sharedLoggers compileTimeMin loggers).Reachable s) :
    s.Sound compileTimeMin loggers := by
  refine Machine.invariant (P := fun s => s.Sound compileTimeMin loggers) ?_
    (fun s action s' _ hs hstep => sound_step hs hstep) h
  exact ⟨fun l => rfl, fun l => Timeline.singleton _,
    fun l => Timeline.singleton _, fun t => trivial, fun t => rfl,
    fun entry hentry => absurd hentry List.not_mem_nil, fun t => rfl⟩

end

end

/--
Whatever the threads and the user code do: a call that has returned was
filtered, found no sinks, was made inside of a `Write` on its own thread, or has
written once to each sink of one snapshot, in order; the levels and the snapshot
were current at some time during the call.  The writes of each thread are those
of its calls, one call after the other.
-/
theorem calls_write_one_snapshot [DecidableEq logger] [DecidableEq thread]
    (compileTimeMin : LogLevel) (loggers : logger -> Logger sink)
    {s : SharedState logger sink thread}
    (h : (sharedLoggers compileTimeMin loggers).Reachable s) :
    (forall t returned, (t, returned) ∈ s.history.returned ->
      returned.Sound compileTimeMin loggers s.history.toTimelines) ∧
    (forall t, s.history.writesOf t = s.history.returnedWritesOf t ++
      (s.stack t).flatMap Frame.written) ∧
    forall t, s.inDispatch t = (s.stack t).any Frame.dispatching := by
  have hsound := reachable_sound h
  exact ⟨fun t returned hreturned => hsound.returned (t, returned) hreturned,
    hsound.writes, hsound.flag⟩

def twoSinks : Unit -> Logger Nat := fun _ =>
  { activeSinks := some [some 1, none, some 2] }

/--
The other thread replaces the sinks while the callback runs, and again while the
first new sink is written to.  That sink logs too, and throws.
-/
def replacedSinks : List (SharedAction Unit Nat Bool) :=
  let call : LogCall Unit := { logger := (), level := LogLevel.info }
  [ SharedAction.log true call,
    SharedAction.goOn true false,
    SharedAction.setSinks false () [some 3, some 4] true,
    SharedAction.goOn true false,
    SharedAction.goOn true false,
    SharedAction.setSinks false () [] true,
    SharedAction.goOn true false,
    SharedAction.setSinks false () [some 5] true,
    SharedAction.log true call,
    SharedAction.goOn true false,
    SharedAction.goOn true false,
    SharedAction.goOn true false,
    SharedAction.goOn true false,
    SharedAction.goOn true true,
    SharedAction.goOn true false,
    SharedAction.goOn true false,
    SharedAction.goOn true false,
    SharedAction.goOn true false ]

theorem replacedSinks_one_snapshot :
    exists s, (sharedLoggers LogLevel.trace twoSinks :
        Machine (SharedState Unit Nat Bool) _).Reachable s ∧
      s.history.returned.map (fun entry => entry.2.outcome) =
        [Outcome.refused, Outcome.dispatched] ∧
      s.history.writes.map (fun entry => entry.2.1) = [3, 4] ∧
      (s.loggers ()).sinkErrorCount = 2 ∧
      forall t returned, (t, returned) ∈ s.history.returned ->
        returned.Sound LogLevel.trace twoSinks s.history.toTimelines := by
  have hrun : (sharedLoggers LogLevel.trace twoSinks :
      Machine (SharedState Unit Nat Bool) _).run replacedSinks = some _ := rfl
  have hreachable := Machine.reachable_of_run hrun
  exact ⟨_, hreachable, rfl, rfl, rfl,
    (calls_write_one_snapshot LogLevel.trace twoSinks hreachable).1⟩

end Logging
end NginLog
