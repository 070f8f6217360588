import NginLog.Foundation.KeyedMerge
import NginLog.Foundation.Transition
import NginLog.Record.Types

/-!
# The logger registry

The registry keeps loggers by name, and the default level, default sinks and
rules that configure them.  Every member function is one critical section of the
registry's lock, except `GetOrCreate`, which looks a name up in a first section
and creates the logger in a second one, and the functions that fetch a logger and
then change it without the lock.
-/

namespace NginLog
namespace Registry

open Foundation Record

variable {sink : Type}

/-!
## Rules
-/

structure LoggerConfig (sink : Type) where
  runtimeMin : LogLevel := LogLevel.info
  sinks : List sink := []

structure LoggerRule (sink : Type) where
  rulePrefix : Bytes := []
  runtimeMin : Option LogLevel := none
  sinks : Option (List sink) := none

def loggerNameMatchesPrefix (name rulePrefix : Bytes) : Bool :=
  if rulePrefix = [] then
    true
  else if name = rulePrefix then
    true
  else
    name.length > rulePrefix.length && rulePrefix.isPrefixOf name &&
      name[rulePrefix.length]? == some 46

structure Settings (sink : Type) where
  defaultSinks : List sink := []
  defaultRuntimeMin : LogLevel := LogLevel.info
  rules : List (LoggerRule sink) := []

def considerRule (name : Bytes) (bestRule : Option (LoggerRule sink))
    (rule : LoggerRule sink) : Option (LoggerRule sink) :=
  if loggerNameMatchesPrefix name rule.rulePrefix then
    match bestRule with
    | none => some rule
    | some best =>
        if rule.rulePrefix.length > best.rulePrefix.length then
          some rule
        else
          some best
  else
    bestRule

def Settings.computeEffectiveConfigLocked (settings : Settings sink)
    (name : Bytes) : LoggerConfig sink :=
  match settings.rules.foldl (considerRule name) none with
  | none =>
      { runtimeMin := settings.defaultRuntimeMin
        sinks := settings.defaultSinks }
  | some bestRule =>
      { runtimeMin := bestRule.runtimeMin.getD settings.defaultRuntimeMin
        sinks := bestRule.sinks.getD settings.defaultSinks }

/-!
## Loggers
-/

/-- A logger's name, runtime minimum and published sinks. -/
structure Logger (sink : Type) where
  name : Bytes
  runtimeMin : LogLevel
  activeSinks : List sink

namespace Logger

def setRuntimeMin (logger : Logger sink) (level : LogLevel) : Logger sink :=
  { logger with runtimeMin := level }

def setSinks (logger : Logger sink) (sinks : List sink) : Logger sink :=
  { logger with activeSinks := sinks }

def config (logger : Logger sink) : LoggerConfig sink :=
  { runtimeMin := logger.runtimeMin, sinks := logger.activeSinks }

end Logger

/--
`BasicLoggerRegistry`.  The map from names to loggers is a list of loggers with
different names: a logger is registered under its own name.
-/
structure LoggerRegistry (sink : Type) extends Settings sink where
  loggers : List (Logger sink) := []
  distinct : (loggers.map Logger.name).Nodup := by simp

namespace LoggerRegistry

def find (registry : LoggerRegistry sink) (name : Bytes) :
    Option (Logger sink) :=
  registry.loggers.find? fun logger => logger.name = name

def updateLoggers (registry : LoggerRegistry sink)
    (change : Logger sink -> Logger sink)
    (hname : forall logger, (change logger).name = logger.name) :
    LoggerRegistry sink :=
  { registry with
    loggers := registry.loggers.map change
    distinct := by
      have hsame : (registry.loggers.map change).map Logger.name =
          registry.loggers.map Logger.name := by
        rw [List.map_map]
        exact List.map_congr_left fun logger _ => hname logger
      rw [hsame]
      exact registry.distinct }

def applyConfigUpdatesLocked (registry : LoggerRegistry sink) :
    LoggerRegistry sink :=
  registry.updateLoggers
    (fun logger =>
      let config := registry.computeEffectiveConfigLocked logger.name
      (logger.setRuntimeMin config.runtimeMin).setSinks config.sinks)
    fun _ => rfl

def create (registry : LoggerRegistry sink) (name : Bytes)
    (runtimeMin : LogLevel) : LoggerRegistry sink :=
  if h : name ∈ registry.loggers.map Logger.name then
    registry
  else
    let config := registry.computeEffectiveConfigLocked name
    let level :=
      if config.runtimeMin = registry.defaultRuntimeMin ∧
          runtimeMin ≠ LogLevel.info then
        runtimeMin
      else
        config.runtimeMin
    { registry with
      loggers := registry.loggers ++
        [{ name := name, runtimeMin := level, activeSinks := config.sinks }]
      distinct := by
        rw [List.map_append, List.map_singleton, ← List.concat_eq_append]
        exact registry.distinct.concat h }

def setDefaultRuntimeMin (registry : LoggerRegistry sink)
    (runtimeMin : LogLevel) : LoggerRegistry sink :=
  applyConfigUpdatesLocked { registry with defaultRuntimeMin := runtimeMin }

def setDefaultSinks (registry : LoggerRegistry sink) (sinks : List sink) :
    LoggerRegistry sink :=
  applyConfigUpdatesLocked { registry with defaultSinks := sinks }

/-- The first rule with the prefix is overwritten, or the rule is appended. -/
def upsertRule (registry : LoggerRegistry sink) (rule : LoggerRule sink) :
    LoggerRegistry sink :=
  match KeyedMerge.replace? LoggerRule.rulePrefix registry.rules rule with
  | some rules => applyConfigUpdatesLocked { registry with rules := rules }
  | none =>
      applyConfigUpdatesLocked { registry with rules := registry.rules ++ [rule] }

def removeRule (registry : LoggerRegistry sink) (rulePrefix : Bytes) :
    LoggerRegistry sink :=
  applyConfigUpdatesLocked
    { registry with
      rules := registry.rules.filter fun rule => rule.rulePrefix ≠ rulePrefix }

def getEffectiveConfig (registry : LoggerRegistry sink) (name : Bytes) :
    LoggerConfig sink :=
  registry.computeEffectiveConfigLocked name

/-- A store to the logger with the name, if there is one. -/
def updateLogger (registry : LoggerRegistry sink) (name : Bytes)
    (change : Logger sink -> Logger sink)
    (hname : forall logger, (change logger).name = logger.name) :
    LoggerRegistry sink :=
  registry.updateLoggers
    (fun logger => if logger.name = name then change logger else logger)
    fun logger => by split <;> simp [hname]

end LoggerRegistry

/-!
## Threads
-/

inductive SettingsCall (sink : Type) where
  | setDefaultRuntimeMin (runtimeMin : LogLevel)
  | setDefaultSinks (sinks : List sink)
  | upsertRule (rule : LoggerRule sink)
  | removeRule (rulePrefix : Bytes)

def LoggerRegistry.configure (registry : LoggerRegistry sink) :
    SettingsCall sink -> LoggerRegistry sink
  | SettingsCall.setDefaultRuntimeMin runtimeMin =>
      registry.setDefaultRuntimeMin runtimeMin
  | SettingsCall.setDefaultSinks sinks => registry.setDefaultSinks sinks
  | SettingsCall.upsertRule rule => registry.upsertRule rule
  | SettingsCall.removeRule rulePrefix => registry.removeRule rulePrefix

/-- Where a thread stands between its critical sections. -/
inductive Phase (sink : Type) where
  | idle
  /-- In `GetOrCreate`, after the name was not found. -/
  | creating (name : Bytes) (runtimeMin : LogLevel)
  /-- In `SetLoggerRuntimeMin`, with a pointer to the logger. -/
  | settingRuntimeMin (name : Bytes) (runtimeMin : LogLevel)
  /-- In `ReplaceLoggerSinks`, with a pointer to the logger. -/
  | settingSinks (name : Bytes) (sinks : List sink)

structure SharedRegistry (sink : Type) where
  registry : LoggerRegistry sink := {}
  phases : Nat -> Phase sink := fun _ => Phase.idle

/-- The critical sections that threads execute, and their stores outside. -/
inductive Action (sink : Type) where
  /-- `GetOrCreate(name, runtimeMin)` looks the name up. -/
  | getOrCreate (thread : Nat) (name : Bytes) (runtimeMin : LogLevel)
  /-- `GetOrCreate` goes on under the exclusive lock. -/
  | create (thread : Nat)
  | configure (thread : Nat) (call : SettingsCall sink)
  /-- `SetLoggerRuntimeMin` fetches the logger. -/
  | setLoggerRuntimeMin (thread : Nat) (name : Bytes) (runtimeMin : LogLevel)
  /-- `ReplaceLoggerSinks` fetches the logger. -/
  | replaceLoggerSinks (thread : Nat) (name : Bytes) (sinks : List sink)
  /-- The store to the fetched logger. -/
  | store (thread : Nat)

namespace SharedRegistry

def setPhase (s : SharedRegistry sink) (thread : Nat) (phase : Phase sink) :
    SharedRegistry sink :=
  { s with phases := Function.update s.phases thread phase }

def setRegistry (s : SharedRegistry sink) (registry : LoggerRegistry sink) :
    SharedRegistry sink :=
  { s with registry := registry }

def step (s : SharedRegistry sink) :
    Action sink -> Option (SharedRegistry sink)
  | Action.getOrCreate thread name runtimeMin =>
      match s.phases thread with
      | Phase.idle =>
          match s.registry.find name with
          | some _ => some s
          | none => some (s.setPhase thread (Phase.creating name runtimeMin))
      | _ => none
  | Action.create thread =>
      match s.phases thread with
      | Phase.creating name runtimeMin =>
          some ((s.setRegistry (s.registry.create name runtimeMin)).setPhase
            thread Phase.idle)
      | _ => none
  | Action.configure thread call =>
      match s.phases thread with
      | Phase.idle => some (s.setRegistry (s.registry.configure call))
      | _ => none
  | Action.setLoggerRuntimeMin thread name runtimeMin =>
      match s.phases thread with
      | Phase.idle =>
          match s.registry.find name with
          | some _ =>
              some (s.setPhase thread
                (Phase.settingRuntimeMin name runtimeMin))
          | none => some s
      | _ => none
  | Action.replaceLoggerSinks thread name sinks =>
      match s.phases thread with
      | Phase.idle =>
          match s.registry.find name with
          | some _ => some (s.setPhase thread (Phase.settingSinks name sinks))
          | none => some s
      | _ => none
  | Action.store thread =>
      match s.phases thread with
      | Phase.settingRuntimeMin name runtimeMin =>
          some ((s.setRegistry (s.registry.updateLogger name
            (fun logger => logger.setRuntimeMin runtimeMin)
            fun _ => rfl)).setPhase thread Phase.idle)
      | Phase.settingSinks name sinks =>
          some ((s.setRegistry (s.registry.updateLogger name
            (fun logger => logger.setSinks sinks)
            fun _ => rfl)).setPhase thread Phase.idle)
      | _ => none

end SharedRegistry

def sharedRegistry (sink : Type) : Machine (SharedRegistry sink) (Action sink)
    where
  init := {}
  step := SharedRegistry.step

end Registry
end NginLog
