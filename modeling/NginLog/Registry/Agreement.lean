import NginLog.Registry.LoggerRegistry

/-!
# Registered loggers agree with the rules

As long as levels and sinks are set through the registry only, every registered
logger has the configuration that the defaults and rules give its name, between
any two critical sections.  A run therefore leaves a logger with a configuration
that depends on the order of the settings calls alone.
-/

namespace NginLog
namespace Registry

open Foundation Record

variable {sink : Type}

def Agrees (registry : LoggerRegistry sink) : Prop :=
  forall logger, logger ∈ registry.loggers ->
    logger.config = registry.getEffectiveConfig logger.name

/--
The calls of the runs considered here: `GetOrCreate` with its default level, and
the calls that change the settings.
-/
def Regular : Action sink -> Prop
  | Action.getOrCreate _ _ runtimeMin => runtimeMin = LogLevel.info
  | Action.create _ => True
  | Action.configure _ _ => True
  | _ => False

/-!
## One critical section
-/

namespace LoggerRegistry

theorem agrees_applyConfigUpdatesLocked (registry : LoggerRegistry sink) :
    Agrees registry.applyConfigUpdatesLocked := by
  intro logger hlogger
  rcases List.mem_map.mp hlogger with ⟨old, _, rfl⟩
  rfl

theorem agrees_configure (registry : LoggerRegistry sink)
    (call : SettingsCall sink) :
    Agrees (registry.configure call) := by
  cases call with
  | setDefaultRuntimeMin runtimeMin =>
      exact agrees_applyConfigUpdatesLocked _
  | setDefaultSinks sinks => exact agrees_applyConfigUpdatesLocked _
  | upsertRule rule =>
      simp only [configure, upsertRule]
      split
      · exact agrees_applyConfigUpdatesLocked _
      · exact agrees_applyConfigUpdatesLocked _
  | removeRule rulePrefix => exact agrees_applyConfigUpdatesLocked _

theorem agrees_create {registry : LoggerRegistry sink} (h : Agrees registry)
    (name : Bytes) :
    Agrees (registry.create name LogLevel.info) := by
  unfold create
  split
  · exact h
  · intro logger hlogger
    rw [List.mem_append, List.mem_singleton] at hlogger
    rcases hlogger with hold | rfl
    · exact h logger hold
    · simp [Logger.config, getEffectiveConfig]

theorem create_toSettings (registry : LoggerRegistry sink) (name : Bytes)
    (runtimeMin : LogLevel) :
    (registry.create name runtimeMin).toSettings = registry.toSettings := by
  unfold create
  split <;> rfl

theorem mem_of_find {registry : LoggerRegistry sink} {name : Bytes}
    {logger : Logger sink} (h : registry.find name = some logger) :
    logger ∈ registry.loggers ∧ logger.name = name :=
  ⟨List.mem_of_find?_eq_some h, by simpa using List.find?_some h⟩

end LoggerRegistry

def Settings.apply (settings : Settings sink) :
    SettingsCall sink -> Settings sink
  | SettingsCall.setDefaultRuntimeMin runtimeMin =>
      { settings with defaultRuntimeMin := runtimeMin }
  | SettingsCall.setDefaultSinks sinks =>
      { settings with defaultSinks := sinks }
  | SettingsCall.upsertRule rule =>
      { settings with
        rules :=
          (KeyedMerge.replace? LoggerRule.rulePrefix settings.rules
            rule).getD (settings.rules ++ [rule]) }
  | SettingsCall.removeRule rulePrefix =>
      { settings with
        rules := settings.rules.filter
          fun rule => rule.rulePrefix ≠ rulePrefix }

theorem LoggerRegistry.configure_toSettings (registry : LoggerRegistry sink)
    (call : SettingsCall sink) :
    (registry.configure call).toSettings = registry.toSettings.apply call := by
  cases call with
  | setDefaultRuntimeMin runtimeMin => rfl
  | setDefaultSinks sinks => rfl
  | upsertRule rule =>
      simp only [configure, upsertRule, Settings.apply]
      cases KeyedMerge.replace? LoggerRule.rulePrefix registry.rules rule with
      | some rules => rfl
      | none => rfl
  | removeRule rulePrefix => rfl

/-!
## Whole runs
-/

/-- What the threads keep true between critical sections. -/
structure Agreement (s : SharedRegistry sink) : Prop where
  registry : Agrees s.registry
  phases : forall thread, s.phases thread = Phase.idle ∨
    exists name, s.phases thread = Phase.creating name LogLevel.info

namespace Agreement

variable {s : SharedRegistry sink}

theorem setPhase (h : Agreement s) (thread : Nat) {phase : Phase sink}
    (hphase : phase = Phase.idle ∨
      exists name, phase = Phase.creating name LogLevel.info) :
    Agreement (s.setPhase thread phase) where
  registry := h.registry
  phases := by
    intro other
    simp only [SharedRegistry.setPhase, Function.update_apply]
    split
    · exact hphase
    · exact h.phases other

theorem setRegistry (h : Agreement s) {registry : LoggerRegistry sink}
    (hregistry : Agrees registry) : Agreement (s.setRegistry registry) where
  registry := hregistry
  phases := h.phases

theorem step {s' : SharedRegistry sink} {a : Action sink} (h : Agreement s)
    (ha : Regular a) (hstep : s.step a = some s') : Agreement s' := by
  cases a with
  | getOrCreate thread name runtimeMin =>
      simp only [SharedRegistry.step] at hstep
      split at hstep
      · split at hstep
        · cases hstep
          exact h
        · cases hstep
          rw [show runtimeMin = LogLevel.info from ha]
          exact h.setPhase thread (Or.inr ⟨name, rfl⟩)
      · cases hstep
  | create thread =>
      simp only [SharedRegistry.step] at hstep
      split at hstep
      · rename_i name runtimeMin hphase
        cases hstep
        rcases h.phases thread with hidle | ⟨name', hcreating⟩
        · rw [hidle] at hphase
          cases hphase
        · rw [hcreating] at hphase
          cases hphase
          exact (h.setRegistry
            (LoggerRegistry.agrees_create h.registry _)).setPhase thread
              (Or.inl rfl)
      · cases hstep
  | configure thread call =>
      simp only [SharedRegistry.step] at hstep
      split at hstep
      · cases hstep
        exact h.setRegistry (LoggerRegistry.agrees_configure s.registry call)
      · cases hstep
  | setLoggerRuntimeMin thread name runtimeMin => exact absurd ha id
  | replaceLoggerSinks thread name sinks => exact absurd ha id
  | store thread => exact absurd ha id

end Agreement

theorem reachable_agreement {s : SharedRegistry sink}
    (h : (sharedRegistry sink).ReachableUnder (fun _ a => Regular a) s) :
    Agreement s := by
  refine Machine.invariantUnder ⟨?_, fun _ => Or.inl rfl⟩
    (fun s a s' _ hs ha hstep => hs.step ha hstep) h
  intro logger hlogger
  cases hlogger

def Action.settingsCall? : Action sink -> Option (SettingsCall sink)
  | Action.configure _ call => some call
  | _ => none

theorem step_toSettings {s s' : SharedRegistry sink} {a : Action sink}
    (hstep : s.step a = some s') :
    s'.registry.toSettings =
      a.settingsCall?.toList.foldl Settings.apply s.registry.toSettings := by
  cases a with
  | getOrCreate thread name runtimeMin =>
      simp only [SharedRegistry.step] at hstep
      split at hstep
      · split at hstep <;> cases hstep <;> rfl
      · cases hstep
  | create thread =>
      simp only [SharedRegistry.step] at hstep
      split at hstep
      · cases hstep
        exact LoggerRegistry.create_toSettings _ _ _
      · cases hstep
  | configure thread call =>
      simp only [SharedRegistry.step] at hstep
      split at hstep
      · cases hstep
        exact LoggerRegistry.configure_toSettings s.registry call
      · cases hstep
  | setLoggerRuntimeMin thread name runtimeMin =>
      simp only [SharedRegistry.step] at hstep
      split at hstep
      · split at hstep <;> cases hstep <;> rfl
      · cases hstep
  | replaceLoggerSinks thread name sinks =>
      simp only [SharedRegistry.step] at hstep
      split at hstep
      · split at hstep <;> cases hstep <;> rfl
      · cases hstep
  | store thread =>
      simp only [SharedRegistry.step] at hstep
      split at hstep <;> cases hstep <;> rfl

theorem run_toSettings {s : SharedRegistry sink} {trace : List (Action sink)}
    (hrun : (sharedRegistry sink).run trace = some s) :
    s.registry.toSettings =
      (trace.filterMap Action.settingsCall?).foldl Settings.apply {} := by
  have hfrom : forall start : SharedRegistry sink,
      (sharedRegistry sink).runFrom start trace = some s ->
      s.registry.toSettings =
        (trace.filterMap Action.settingsCall?).foldl Settings.apply
          start.registry.toSettings := by
    clear hrun
    induction trace with
    | nil =>
        intro start hrun
        cases hrun
        rfl
    | cons a rest ih =>
        intro start hrun
        rw [Machine.runFrom_cons] at hrun
        rcases Option.bind_eq_some_iff.mp hrun with ⟨mid, hstep, hrest⟩
        rw [ih mid hrest, step_toSettings hstep, ← List.foldl_append]
        congr 1
        cases hcall : a.settingsCall? with
        | none => rw [List.filterMap_cons_none hcall]; rfl
        | some call => rw [List.filterMap_cons_some hcall]; rfl
  exact hfrom _ hrun

/-!
## Agreement
-/

/--
Between critical sections every registered logger has the effective
configuration of its name.  Runs with the same settings calls in the same order,
whenever they create their loggers, give loggers of one name one configuration.
-/
theorem registered_loggers_agree (sink : Type) :
    (forall s, (sharedRegistry sink).ReachableUnder (fun _ a => Regular a) s ->
      forall name logger, s.registry.find name = some logger ->
        logger.config = s.registry.getEffectiveConfig name) ∧
    (forall trace trace' s s',
      (forall a, a ∈ trace -> Regular a) ->
      (forall a, a ∈ trace' -> Regular a) ->
      trace.filterMap Action.settingsCall? =
        trace'.filterMap Action.settingsCall? ->
      (sharedRegistry sink).run trace = some s ->
      (sharedRegistry sink).run trace' = some s' ->
      forall name logger logger', s.registry.find name = some logger ->
        s'.registry.find name = some logger' ->
        logger.config = logger'.config) := by
  have hagree : forall s,
      (sharedRegistry sink).ReachableUnder (fun _ a => Regular a) s ->
      forall name logger, s.registry.find name = some logger ->
        logger.config = s.registry.getEffectiveConfig name := by
    intro s hreach name logger hfind
    rcases LoggerRegistry.mem_of_find hfind with ⟨hmem, rfl⟩
    exact (reachable_agreement hreach).registry logger hmem
  refine ⟨hagree, ?_⟩
  intro trace trace' s s' hregular hregular' hcalls hrun hrun' name logger
    logger' hfind hfind'
  rw [hagree s (Machine.reachableUnder_of_run hregular hrun) name logger hfind,
    hagree s' (Machine.reachableUnder_of_run hregular' hrun') name logger'
      hfind', LoggerRegistry.getEffectiveConfig,
    LoggerRegistry.getEffectiveConfig, run_toSettings hrun,
    run_toSettings hrun', hcalls]

/-- Thread 1 sets a rule while thread 0 is about to create a logger. -/
def ruleDuringCreation : List (Action Nat) :=
  [ Action.getOrCreate 0 (ascii "app.db") LogLevel.info,
    Action.configure 1 (SettingsCall.upsertRule
      { rulePrefix := ascii "app", runtimeMin := some LogLevel.debug }),
    Action.create 0,
    Action.configure 1 (SettingsCall.setDefaultSinks [7]) ]

def creationAtLast : List (Action Nat) :=
  [ Action.configure 1 (SettingsCall.upsertRule
      { rulePrefix := ascii "app", runtimeMin := some LogLevel.debug }),
    Action.configure 0 (SettingsCall.setDefaultSinks [7]),
    Action.getOrCreate 0 (ascii "app.db") LogLevel.info,
    Action.create 0 ]

theorem creation_order_is_invisible :
    exists s s' logger logger',
      (sharedRegistry Nat).run ruleDuringCreation = some s ∧
        (sharedRegistry Nat).run creationAtLast = some s' ∧
        s.registry.find (ascii "app.db") = some logger ∧
        s'.registry.find (ascii "app.db") = some logger' ∧
        logger.config = logger'.config :=
  ⟨((sharedRegistry Nat).run ruleDuringCreation).get rfl,
    ((sharedRegistry Nat).run creationAtLast).get rfl,
    { name := ascii "app.db", runtimeMin := LogLevel.debug,
      activeSinks := [7] },
    { name := ascii "app.db", runtimeMin := LogLevel.debug,
      activeSinks := [7] },
    rfl, rfl, rfl, rfl,
    (registered_loggers_agree Nat).2 ruleDuringCreation creationAtLast _ _
      (by simp [ruleDuringCreation, Regular])
      (by simp [creationAtLast, Regular]) rfl rfl rfl (ascii "app.db") _ _
      rfl rfl⟩

end Registry
end NginLog
