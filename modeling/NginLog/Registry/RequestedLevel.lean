import NginLog.Registry.RuleTable

/-!
# The level that a new logger is requested with

`GetOrCreate` takes a level for the logger that it may create.  A rule's level
comes before it, but whether a rule has set the level is told from the level
alone: one that equals the default level passes for no rule at all.
-/

namespace NginLog
namespace Registry

open Foundation Record

variable {sink : Type}

/-- The rule with the longest prefix that matches, the first one among equals. -/
def LongestMatching (rules : List (LoggerRule sink)) (name : Bytes)
    (rule : LoggerRule sink) : Prop :=
  KeyedTable.FirstLargest LoggerRule.rulePrefix
    (fun rulePrefix => loggerNameMatchesPrefix name rulePrefix = true)
    List.length rules rule

def createdLevel (registry : LoggerRegistry sink) (name : Bytes)
    (requested : LogLevel) : Option LogLevel :=
  ((registry.create name requested).find name).map Logger.runtimeMin

/--
The level of the longest rule decides if it has one, and the requested level,
unless it is the default argument, if no matching rule has one.
-/
structure RuleBeatsRequest (registry : LoggerRegistry sink) (name : Bytes)
    (requested : LogLevel) : Prop where
  rule : forall rule level, LongestMatching registry.rules name rule ->
    rule.runtimeMin = some level ->
      createdLevel registry name requested = some level
  request : (forall rule, rule ∈ registry.rules ->
      loggerNameMatchesPrefix name rule.rulePrefix = true ->
        rule.runtimeMin = none) ->
    requested ≠ LogLevel.info ->
      createdLevel registry name requested = some requested

/-- A longest rule of the default level meets no request for another one. -/
def NoCoincidence (registry : LoggerRegistry sink) (name : Bytes)
    (requested : LogLevel) : Prop :=
  forall rule, LongestMatching registry.rules name rule ->
    rule.runtimeMin = some registry.defaultRuntimeMin ->
      requested = LogLevel.info ∨ requested = registry.defaultRuntimeMin

theorem foldl_considerRule_eq_some_iff (rules : List (LoggerRule sink))
    (name : Bytes) (rule : LoggerRule sink) :
    rules.foldl (considerRule name) none = some rule <->
      LongestMatching rules name rule := by
  have hsearch : considerRule name = _ := funext fun best =>
    funext fun rule : LoggerRule sink => considerRule_eq name best rule
  rw [hsearch]
  exact KeyedTable.foldl_consider_eq_some_iff rules rule

theorem LongestMatching.mem {rules : List (LoggerRule sink)} {name : Bytes}
    {rule : LoggerRule sink} (h : LongestMatching rules name rule) :
    rule ∈ rules ∧ loggerNameMatchesPrefix name rule.rulePrefix = true := by
  rcases h with ⟨before, after, rfl, hmatches, _⟩
  exact ⟨List.mem_append_right _ List.mem_cons_self, hmatches⟩

def Settings.ruleLevel (settings : Settings sink) (name : Bytes) :
    Option LogLevel :=
  (settings.rules.foldl (considerRule name) none).bind LoggerRule.runtimeMin

theorem Settings.ruleLevel_eq_some_iff {settings : Settings sink}
    {name : Bytes} {level : LogLevel} :
    settings.ruleLevel name = some level <->
      exists rule, LongestMatching settings.rules name rule ∧
        rule.runtimeMin = some level := by
  rw [ruleLevel, Option.bind_eq_some_iff]
  exact exists_congr fun rule =>
    and_congr_left fun _ => foldl_considerRule_eq_some_iff _ name rule

theorem Settings.effective_runtimeMin (settings : Settings sink)
    (name : Bytes) :
    (settings.computeEffectiveConfigLocked name).runtimeMin =
      (settings.ruleLevel name).getD settings.defaultRuntimeMin := by
  rw [settings.computeEffectiveConfigLocked_eq, ruleLevel]
  cases settings.rules.foldl (considerRule name) none <;> rfl

namespace LoggerRegistry

variable {registry : LoggerRegistry sink} {name : Bytes}

theorem find_eq_none (h : name ∉ registry.loggers.map Logger.name) :
    registry.find name = none := by
  rw [find, List.find?_eq_none]
  intro logger hlogger
  simp only [decide_eq_true_eq]
  rintro rfl
  exact h (List.mem_map_of_mem hlogger)

theorem run_getOrCreate {s : SharedRegistry sink} {thread : Nat}
    (hidle : s.phases thread = Phase.idle)
    (h : name ∉ s.registry.loggers.map Logger.name) (requested : LogLevel) :
    exists s', (sharedRegistry sink).runFrom s
        [Action.getOrCreate thread name requested, Action.create thread] =
          some s' ∧
      s'.registry = s.registry.create name requested := by
  have hfirst : (sharedRegistry sink).step s
      (Action.getOrCreate thread name requested) =
        some (s.setPhase thread (Phase.creating name requested)) := by
    simp only [sharedRegistry, SharedRegistry.step, hidle, find_eq_none h]
  rw [Machine.runFrom_cons, hfirst, Option.bind_some, Machine.runFrom_cons]
  simp only [sharedRegistry, SharedRegistry.step, SharedRegistry.setPhase,
    Function.update_self]
  exact ⟨_, rfl, rfl⟩

theorem createdLevel_of_new (h : name ∉ registry.loggers.map Logger.name)
    (requested : LogLevel) :
    createdLevel registry name requested =
      some (if (registry.ruleLevel name).getD registry.defaultRuntimeMin =
            registry.defaultRuntimeMin ∧ requested ≠ LogLevel.info then
          requested
        else
          (registry.ruleLevel name).getD registry.defaultRuntimeMin) := by
  have hnone : registry.loggers.find? (fun logger => logger.name = name) =
      none := find_eq_none h
  rw [← registry.effective_runtimeMin]
  unfold createdLevel create
  rw [dif_neg h, find, List.find?_append, hnone]
  simp

end LoggerRegistry

/-!
## Rules and requests
-/

section

variable {registry : LoggerRegistry sink} {name : Bytes} {requested : LogLevel}

theorem noCoincidence_iff :
    NoCoincidence registry name requested <->
      (registry.ruleLevel name = some registry.defaultRuntimeMin ->
        requested = LogLevel.info ∨ requested = registry.defaultRuntimeMin) := by
  constructor
  · intro h hlevel
    rcases Settings.ruleLevel_eq_some_iff.mp hlevel with
      ⟨rule, hlongest, hdefault⟩
    exact h rule hlongest hdefault
  · intro h rule hlongest hdefault
    exact h (Settings.ruleLevel_eq_some_iff.mpr ⟨rule, hlongest, hdefault⟩)

theorem ruleBeatsRequest_of_no_level (hrule : registry.ruleLevel name = none)
    (hnew : name ∉ registry.loggers.map Logger.name) :
    RuleBeatsRequest registry name requested := by
  constructor
  · intro rule level hlongest hlevel
    have hsome : registry.ruleLevel name = some level :=
      Settings.ruleLevel_eq_some_iff.mpr ⟨rule, hlongest, hlevel⟩
    rw [hrule] at hsome
    cases hsome
  · intro _ hinfo
    rw [LoggerRegistry.createdLevel_of_new hnew, hrule, Option.getD_none,
      if_pos ⟨rfl, hinfo⟩]

theorem ruleBeatsRequest_iff_of_level {level : LogLevel}
    (hrule : registry.ruleLevel name = some level) :
    RuleBeatsRequest registry name requested <->
      createdLevel registry name requested = some level := by
  rcases Settings.ruleLevel_eq_some_iff.mp hrule with
    ⟨rule, hlongest, hlevel⟩
  constructor
  · intro h
    exact h.rule rule level hlongest hlevel
  · intro hcreated
    constructor
    · intro rule' level' hlongest' hlevel'
      have hsame : registry.ruleLevel name = some level' :=
        Settings.ruleLevel_eq_some_iff.mpr ⟨rule', hlongest', hlevel'⟩
      rw [hcreated, ← hrule, hsame]
    · intro hnone _
      rcases hlongest.mem with ⟨hmem, hmatches⟩
      rw [hnone rule hmem hmatches] at hlevel
      cases hlevel

end

/--
The rule's level beats the request, or the request is used, just if no request
for another level meets a longest rule of the default level.
-/
theorem rule_beats_request_iff (registry : LoggerRegistry sink) (name : Bytes)
    (requested : LogLevel)
    (hnew : name ∉ registry.loggers.map Logger.name) :
    RuleBeatsRequest registry name requested <->
      NoCoincidence registry name requested := by
  have hcreated := LoggerRegistry.createdLevel_of_new hnew requested
  cases hrule : registry.ruleLevel name with
  | none =>
      refine iff_of_true (ruleBeatsRequest_of_no_level hrule hnew) ?_
      rw [noCoincidence_iff, hrule]
      intro hsome
      cases hsome
  | some level =>
      rw [ruleBeatsRequest_iff_of_level hrule, noCoincidence_iff, hrule,
        hcreated, hrule, Option.getD_some, Option.some.injEq,
        Option.some.injEq]
      by_cases hdefault : level = registry.defaultRuntimeMin
      · by_cases hinfo : requested = LogLevel.info
        · simp [hinfo]
        · simp [hdefault, hinfo]
      · simp [hdefault]

def hiddenRule : LoggerRegistry Nat where
  rules := [{ rulePrefix := ascii "app", runtimeMin := some LogLevel.info }]

theorem request_under_no_rule :
    RuleBeatsRequest hiddenRule (ascii "db") LogLevel.debug := by
  refine (rule_beats_request_iff hiddenRule (ascii "db") LogLevel.debug
    (by decide)).mpr fun rule hlongest _ => ?_
  rcases hlongest.mem with ⟨hmem, hmatches⟩
  rw [List.mem_singleton.mp hmem] at hmatches
  exact absurd hmatches (by decide)

/-- The rule says info, and the logger gets the level that was requested. -/
theorem request_beats_hidden_rule :
    ascii "app" ∉ hiddenRule.loggers.map Logger.name ∧
      ¬ RuleBeatsRequest hiddenRule (ascii "app") LogLevel.debug := by
  refine ⟨by decide, fun h => ?_⟩
  have hlongest : LongestMatching hiddenRule.rules (ascii "app")
      { rulePrefix := ascii "app", runtimeMin := some LogLevel.info } :=
    (foldl_considerRule_eq_some_iff _ _ _).mp rfl
  have hlevel := h.rule _ _ hlongest rfl
  exact absurd hlevel (by decide)

end Registry
end NginLog
