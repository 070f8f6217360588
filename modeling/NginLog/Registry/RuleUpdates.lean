import NginLog.Registry.Agreement

/-!
# What a rule update changes

A call that changes the settings gives every registered logger its effective
configuration anew.  The effective configuration of a name depends only on the
rules that match it, so the call leaves an unconcerned logger as it is, unless
an override is live: a level or sinks that were set for this logger alone since
the settings last changed.  No override is remembered outside the logger.
-/

namespace NginLog
namespace Registry

open Foundation Record

variable {sink : Type}

/-- The call is about the rule with the given prefix. -/
inductive SettingsCall.AboutRule (rulePrefix : Bytes) :
    SettingsCall sink -> Prop where
  | upsertRule {rule : LoggerRule sink} :
      rule.rulePrefix = rulePrefix ->
      AboutRule rulePrefix (SettingsCall.upsertRule rule)
  | removeRule : AboutRule rulePrefix (SettingsCall.removeRule rulePrefix)

/-!
## Rules that do not match
-/

theorem foldl_considerRule_filter (name : Bytes) (rules : List (LoggerRule sink))
    (bestRule : Option (LoggerRule sink)) :
    (rules.filter fun rule => loggerNameMatchesPrefix name rule.rulePrefix).foldl
        (considerRule name) bestRule =
      rules.foldl (considerRule name) bestRule := by
  induction rules generalizing bestRule with
  | nil => rfl
  | cons rule rest ih =>
      cases hmatch : loggerNameMatchesPrefix name rule.rulePrefix with
      | true =>
          rw [List.filter_cons_of_pos (by simpa using hmatch), List.foldl_cons,
            List.foldl_cons, ih]
      | false =>
          have hskip : considerRule name bestRule rule = bestRule := by
            simp [considerRule, hmatch]
          rw [List.filter_cons_of_neg (by simpa using hmatch), List.foldl_cons,
            hskip, ih]

theorem Settings.computeEffectiveConfigLocked_congr
    {settings settings' : Settings sink} {name : Bytes}
    (hmin : settings'.defaultRuntimeMin = settings.defaultRuntimeMin)
    (hsinks : settings'.defaultSinks = settings.defaultSinks)
    (hrules :
      (settings'.rules.filter fun rule =>
          loggerNameMatchesPrefix name rule.rulePrefix) =
        settings.rules.filter fun rule =>
          loggerNameMatchesPrefix name rule.rulePrefix) :
    settings'.computeEffectiveConfigLocked name =
      settings.computeEffectiveConfigLocked name := by
  unfold computeEffectiveConfigLocked
  rw [← foldl_considerRule_filter name settings'.rules, hrules,
    foldl_considerRule_filter, hmin, hsinks]

theorem replace?_filter {name : Bytes} {rules rules' : List (LoggerRule sink)}
    {rule : LoggerRule sink}
    (hmatch : loggerNameMatchesPrefix name rule.rulePrefix = false)
    (h : KeyedMerge.replace? LoggerRule.rulePrefix rules rule = some rules') :
    (rules'.filter fun rule => loggerNameMatchesPrefix name rule.rulePrefix) =
      rules.filter fun rule => loggerNameMatchesPrefix name rule.rulePrefix := by
  induction rules generalizing rules' with
  | nil => cases h
  | cons old rest ih =>
      rw [KeyedMerge.replace?] at h
      split at h
      · rename_i hsame
        cases h
        rw [List.filter_cons_of_neg (by simpa using hmatch),
          List.filter_cons_of_neg (by simpa [hsame] using hmatch)]
      · rcases Option.map_eq_some_iff.mp h with ⟨tail, htail, rfl⟩
        rw [List.filter_cons, List.filter_cons, ih htail]

theorem Settings.apply_about_rule {settings : Settings sink}
    {call : SettingsCall sink} {rulePrefix name : Bytes}
    (habout : call.AboutRule rulePrefix)
    (hmatch : loggerNameMatchesPrefix name rulePrefix = false) :
    (settings.apply call).computeEffectiveConfigLocked name =
      settings.computeEffectiveConfigLocked name := by
  cases habout with
  | upsertRule hsame =>
      rename_i rule
      subst hsame
      refine computeEffectiveConfigLocked_congr rfl rfl ?_
      simp only [Settings.apply]
      cases hreplace :
          KeyedMerge.replace? LoggerRule.rulePrefix settings.rules rule with
      | some rules => exact replace?_filter hmatch hreplace
      | none => simp [hmatch]
  | removeRule =>
      refine computeEffectiveConfigLocked_congr rfl rfl ?_
      simp only [Settings.apply]
      rw [List.filter_filter]
      apply List.filter_congr
      intro rule _
      cases hrule : loggerNameMatchesPrefix name rule.rulePrefix with
      | false => rfl
      | true =>
          have hne : rule.rulePrefix ≠ rulePrefix := by
            intro heq
            rw [heq, hmatch] at hrule
            cases hrule
          simp [hne]

theorem Settings.apply_setDefaultSinks_runtimeMin (settings : Settings sink)
    (sinks : List sink) (name : Bytes) :
    ((settings.apply (SettingsCall.setDefaultSinks
        sinks)).computeEffectiveConfigLocked name).runtimeMin =
      (settings.computeEffectiveConfigLocked name).runtimeMin := by
  unfold Settings.apply computeEffectiveConfigLocked
  simp only
  split <;> rfl

/-!
## Registered loggers after a call
-/

theorem LoggerRegistry.find_updateLoggers (registry : LoggerRegistry sink)
    (change : Logger sink -> Logger sink)
    (hname : forall logger, (change logger).name = logger.name) (name : Bytes) :
    (registry.updateLoggers change hname).find name =
      (registry.find name).map change := by
  show List.find? _ (registry.loggers.map change) = _
  rw [List.find?_map]
  congr 2
  funext logger
  simp [hname]

theorem LoggerRegistry.find_configure {registry : LoggerRegistry sink}
    {name : Bytes} {logger : Logger sink} (call : SettingsCall sink)
    (hfind : registry.find name = some logger) :
    exists logger', (registry.configure call).find name = some logger' ∧
      logger'.config =
        (registry.toSettings.apply call).computeEffectiveConfigLocked name := by
  have happly : forall changed : LoggerRegistry sink,
      changed.find name = some logger ->
      exists logger',
        changed.applyConfigUpdatesLocked.find name = some logger' := by
    intro changed hchanged
    have hupdated : changed.applyConfigUpdatesLocked.find name =
        (changed.find name).map _ := find_updateLoggers changed _ _ name
    rw [hchanged] at hupdated
    exact ⟨_, hupdated⟩
  have hfound : exists logger',
      (registry.configure call).find name = some logger' := by
    cases call with
    | upsertRule rule =>
        simp only [configure, upsertRule]
        split
        · exact happly _ hfind
        · exact happly _ hfind
    | _ => exact happly _ hfind
  rcases hfound with ⟨logger', hfind'⟩
  rcases mem_of_find hfind' with ⟨hmem, rfl⟩
  refine ⟨logger', hfind', ?_⟩
  rw [← configure_toSettings]
  exact agrees_configure registry call logger' hmem

/-- The call leaves the level of the logger with the name as it is. -/
def KeepsRuntimeMin (registry : LoggerRegistry sink) (call : SettingsCall sink)
    (name : Bytes) : Prop :=
  ((registry.configure call).find name).map Logger.runtimeMin =
    (registry.find name).map Logger.runtimeMin

/-- The call leaves the sinks of the logger with the name as they are. -/
def KeepsSinks (registry : LoggerRegistry sink) (call : SettingsCall sink)
    (name : Bytes) : Prop :=
  ((registry.configure call).find name).map Logger.activeSinks =
    (registry.find name).map Logger.activeSinks

/-- No call changes what it does not concern about the logger with the name. -/
structure UpdatesAreLocal (registry : LoggerRegistry sink) (name : Bytes) :
    Prop where
  rules : forall call rulePrefix, call.AboutRule rulePrefix ->
    loggerNameMatchesPrefix name rulePrefix = false ->
    KeepsRuntimeMin registry call name ∧ KeepsSinks registry call name
  defaultSinks : forall sinks,
    KeepsRuntimeMin registry (SettingsCall.setDefaultSinks sinks) name

section

variable {registry : LoggerRegistry sink} {name : Bytes}
  {logger : Logger sink}

theorem keepsRuntimeMin_iff {call : SettingsCall sink}
    (hfind : registry.find name = some logger)
    (hsame :
      ((registry.toSettings.apply call).computeEffectiveConfigLocked
        name).runtimeMin = (registry.getEffectiveConfig name).runtimeMin) :
    KeepsRuntimeMin registry call name <->
      logger.runtimeMin = (registry.getEffectiveConfig name).runtimeMin := by
  rcases registry.find_configure call hfind with ⟨logger', hfind', hconfig⟩
  have hlevel := congrArg LoggerConfig.runtimeMin hconfig
  rw [hsame] at hlevel
  rw [KeepsRuntimeMin, hfind, hfind', Option.map_some, Option.map_some,
    Option.some_inj, eq_comm, ← hlevel]
  rfl

theorem keepsSinks_iff {call : SettingsCall sink}
    (hfind : registry.find name = some logger)
    (hsame :
      ((registry.toSettings.apply call).computeEffectiveConfigLocked
        name).sinks = (registry.getEffectiveConfig name).sinks) :
    KeepsSinks registry call name <->
      logger.activeSinks = (registry.getEffectiveConfig name).sinks := by
  rcases registry.find_configure call hfind with ⟨logger', hfind', hconfig⟩
  have hsinks := congrArg LoggerConfig.sinks hconfig
  rw [hsame] at hsinks
  rw [KeepsSinks, hfind, hfind', Option.map_some, Option.map_some,
    Option.some_inj, eq_comm, ← hsinks]
  rfl

end

/-!
## Overrides
-/

/-- The names of the loggers with an override since the settings last changed. -/
def noteOverride (s : SharedRegistry sink) (a : Action sink)
    (_ : SharedRegistry sink) (overridden : List Bytes) : List Bytes :=
  match a with
  | Action.configure _ _ => []
  | Action.create thread =>
      match s.phases thread with
      | Phase.creating name runtimeMin =>
          if runtimeMin = LogLevel.info ∨ (s.registry.find name).isSome then
            overridden
          else
            name :: overridden
      | _ => overridden
  | Action.store thread =>
      match s.phases thread with
      | Phase.settingRuntimeMin name _ => name :: overridden
      | Phase.settingSinks name _ => name :: overridden
      | _ => overridden
  | _ => overridden

def AgreesUnlessOverridden (registry : LoggerRegistry sink)
    (overridden : List Bytes) : Prop :=
  forall logger, logger ∈ registry.loggers -> logger.name ∉ overridden ->
    logger.config = registry.getEffectiveConfig logger.name

theorem AgreesUnlessOverridden.create {registry : LoggerRegistry sink}
    {overridden : List Bytes} (h : AgreesUnlessOverridden registry overridden)
    (name : Bytes) (runtimeMin : LogLevel) :
    AgreesUnlessOverridden (registry.create name runtimeMin)
      (if runtimeMin = LogLevel.info ∨ (registry.find name).isSome then
        overridden
      else
        name :: overridden) := by
  unfold LoggerRegistry.create
  split
  · intro logger hlogger hnone
    refine h logger hlogger fun hmem => hnone ?_
    split
    · exact hmem
    · exact List.mem_cons_of_mem _ hmem
  · rename_i hnew
    intro logger hlogger hnone
    rw [List.mem_append, List.mem_singleton] at hlogger
    rcases hlogger with hold | rfl
    · refine h logger hold fun hmem => hnone ?_
      split
      · exact hmem
      · exact List.mem_cons_of_mem _ hmem
    · split at hnone
      · rename_i hcase
        rcases hcase with rfl | hfound
        · simp [Logger.config, LoggerRegistry.getEffectiveConfig]
        · rcases Option.isSome_iff_exists.mp hfound with ⟨old, hold⟩
          rcases LoggerRegistry.mem_of_find hold with ⟨hmem, rfl⟩
          exact absurd (List.mem_map_of_mem hmem) hnew
      · exact absurd List.mem_cons_self hnone

theorem noteOverride_step {s s' : SharedRegistry sink} {a : Action sink}
    {overridden : List Bytes}
    (h : AgreesUnlessOverridden s.registry overridden)
    (hstep : s.step a = some s') :
    AgreesUnlessOverridden s'.registry (noteOverride s a s' overridden) := by
  have hstore : forall (name : Bytes) (change : Logger sink -> Logger sink)
      (hname : forall logger, (change logger).name = logger.name),
      AgreesUnlessOverridden (s.registry.updateLogger name change hname)
        (name :: overridden) := by
    intro name change hname logger hlogger hnone
    rcases List.mem_map.mp hlogger with ⟨old, hold, rfl⟩
    rw [List.mem_cons, not_or] at hnone
    have hother : old.name ≠ name := by
      intro heq
      rw [if_pos heq, hname] at hnone
      exact hnone.1 heq
    rw [if_neg hother] at hnone ⊢
    exact h old hold hnone.2
  cases a with
  | configure thread call =>
      simp only [SharedRegistry.step] at hstep
      split at hstep
      · cases hstep
        intro logger hlogger _
        exact LoggerRegistry.agrees_configure s.registry call logger hlogger
      · cases hstep
  | create thread =>
      simp only [SharedRegistry.step] at hstep
      split at hstep
      · rename_i name runtimeMin hphase
        cases hstep
        simp only [noteOverride, hphase]
        exact h.create name runtimeMin
      · cases hstep
  | store thread =>
      simp only [SharedRegistry.step] at hstep
      split at hstep
      · rename_i name runtimeMin hphase
        cases hstep
        simp only [noteOverride, hphase]
        exact hstore name (fun logger => logger.setRuntimeMin runtimeMin)
          fun _ => rfl
      · rename_i name sinks hphase
        cases hstep
        simp only [noteOverride, hphase]
        exact hstore name (fun logger => logger.setSinks sinks) fun _ => rfl
      · cases hstep
  | _ =>
      simp only [SharedRegistry.step] at hstep
      split at hstep
      · split at hstep <;> cases hstep <;> exact h
      · cases hstep

/-- The registry, with the names of the loggers that an override is live for. -/
def overrideHistory (sink : Type) :
    Machine (SharedRegistry sink × List Bytes) (Action sink) :=
  (sharedRegistry sink).recording [] noteOverride

theorem reachable_agreesUnlessOverridden
    {s : SharedRegistry sink × List Bytes}
    (h : (overrideHistory sink).Reachable s) :
    AgreesUnlessOverridden s.1.registry s.2 := by
  refine Machine.recordingInvariant
    (P := fun s : SharedRegistry sink => AgreesUnlessOverridden s.registry)
    (fun logger hlogger => ?_)
    (fun s overridden a s' _ hs hstep => noteOverride_step hs hstep) h
  cases hlogger

/-!
## Updates and overrides
-/

/--
Of a registered logger that a rule update does not concern, the update keeps the
level exactly if it is the effective one, and the sinks exactly if they are, and
likewise new default sinks keep a level.  A logger without a live override keeps
both.
-/
theorem rule_updates_exact (sink : Type) :
    (forall s, (sharedRegistry sink).Reachable s ->
      forall name logger, s.registry.find name = some logger ->
        (forall call rulePrefix, call.AboutRule rulePrefix ->
          loggerNameMatchesPrefix name rulePrefix = false ->
          (KeepsRuntimeMin s.registry call name <->
            logger.runtimeMin =
              (s.registry.getEffectiveConfig name).runtimeMin) ∧
          (KeepsSinks s.registry call name <->
            logger.activeSinks =
              (s.registry.getEffectiveConfig name).sinks)) ∧
        forall sinks,
          KeepsRuntimeMin s.registry (SettingsCall.setDefaultSinks sinks)
              name <->
            logger.runtimeMin =
              (s.registry.getEffectiveConfig name).runtimeMin) ∧
    (forall s, (overrideHistory sink).Reachable s ->
      forall name logger, s.1.registry.find name = some logger ->
        name ∉ s.2 -> UpdatesAreLocal s.1.registry name) := by
  have hlevel : forall (registry : LoggerRegistry sink) (sinks : List sink)
      (name : Bytes) (logger : Logger sink),
      registry.find name = some logger ->
      (KeepsRuntimeMin registry (SettingsCall.setDefaultSinks sinks) name <->
        logger.runtimeMin = (registry.getEffectiveConfig name).runtimeMin) := by
    intro registry sinks name logger hfind
    exact keepsRuntimeMin_iff hfind
      (registry.apply_setDefaultSinks_runtimeMin sinks name)
  have hrules : forall (registry : LoggerRegistry sink)
      (call : SettingsCall sink) (rulePrefix name : Bytes)
      (logger : Logger sink), registry.find name = some logger ->
      call.AboutRule rulePrefix ->
      loggerNameMatchesPrefix name rulePrefix = false ->
      (KeepsRuntimeMin registry call name <->
        logger.runtimeMin = (registry.getEffectiveConfig name).runtimeMin) ∧
      (KeepsSinks registry call name <->
        logger.activeSinks = (registry.getEffectiveConfig name).sinks) := by
    intro registry call rulePrefix name logger hfind habout hmatch
    have hsame := @Settings.apply_about_rule _ registry.toSettings _ _ _
      habout hmatch
    exact ⟨keepsRuntimeMin_iff hfind (congrArg LoggerConfig.runtimeMin hsame),
      keepsSinks_iff hfind (congrArg LoggerConfig.sinks hsame)⟩
  constructor
  · intro s _ name logger hfind
    exact ⟨fun call rulePrefix habout hmatch =>
      hrules s.registry call rulePrefix name logger hfind habout hmatch,
      fun sinks => hlevel s.registry sinks name logger hfind⟩
  · intro s hs name logger hfind hnone
    rcases LoggerRegistry.mem_of_find hfind with ⟨hmem, rfl⟩
    have hconfig := reachable_agreesUnlessOverridden hs logger hmem hnone
    constructor
    · intro call rulePrefix habout hmatch
      rcases hrules s.1.registry call rulePrefix _ logger hfind habout hmatch
        with ⟨hruntimeMin, hsinks⟩
      exact ⟨hruntimeMin.mpr (congrArg LoggerConfig.runtimeMin hconfig),
        hsinks.mpr (congrArg LoggerConfig.sinks hconfig)⟩
    · intro sinks
      exact (hlevel s.1.registry sinks _ logger hfind).mpr
        (congrArg LoggerConfig.runtimeMin hconfig)

def ownLevel : List (Action Nat) :=
  [ Action.getOrCreate 0 (ascii "app") LogLevel.info,
    Action.create 0,
    Action.setLoggerRuntimeMin 0 (ascii "app") LogLevel.error,
    Action.store 0 ]

theorem new_logger_is_left_alone :
    exists s logger, (overrideHistory Nat).run (ownLevel.take 2) = some s ∧
      s.1.registry.find (ascii "app") = some logger ∧
      UpdatesAreLocal s.1.registry (ascii "app") := by
  have hrun : (overrideHistory Nat).run (ownLevel.take 2) =
      some (((overrideHistory Nat).run (ownLevel.take 2)).get rfl) := rfl
  refine ⟨_, _, hrun, rfl, ?_⟩
  exact (rule_updates_exact Nat).2 _ (Machine.reachable_of_run hrun)
    (ascii "app") _ rfl (by decide)

/-- A rule for other loggers resets the level. -/
theorem unrelated_rule_resets_level :
    exists s, (sharedRegistry Nat).Reachable s ∧
      (exists logger, s.registry.find (ascii "app") = some logger) ∧
      loggerNameMatchesPrefix (ascii "app") (ascii "db") = false ∧
      ¬ KeepsRuntimeMin s.registry
        (SettingsCall.upsertRule { rulePrefix := ascii "db" }) (ascii "app") ∧
      ¬ UpdatesAreLocal s.registry (ascii "app") := by
  have hrun : (sharedRegistry Nat).run ownLevel =
      some (((sharedRegistry Nat).run ownLevel).get rfl) := rfl
  have hlost : ¬ KeepsRuntimeMin
      (((sharedRegistry Nat).run ownLevel).get rfl).registry
      (SettingsCall.upsertRule { rulePrefix := ascii "db" }) (ascii "app") := by
    unfold KeepsRuntimeMin
    decide
  have hother : loggerNameMatchesPrefix (ascii "app") (ascii "db") = false := by
    decide
  refine ⟨_, Machine.reachable_of_run hrun, ⟨_, rfl⟩, hother, hlost, ?_⟩
  intro hlocal
  exact hlost (hlocal.rules _ (ascii "db")
    (SettingsCall.AboutRule.upsertRule rfl) hother).1

end Registry
end NginLog
