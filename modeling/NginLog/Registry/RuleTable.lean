import NginLog.Foundation.KeyedTable
import NginLog.Registry.RuleUpdates

/-!
# The rules as a table

The list of rules is a table from prefixes to rules: a prefix has the rule that
was upserted last and not removed since.  The configuration of a name comes from
the longest of its ancestors in the table.  No two ancestors of a name have the
same length, so the order of the list does not matter.
-/

namespace NginLog
namespace Registry

open Foundation Record

variable {sink : Type}

/-!
## Ancestors
-/

/-- The empty name, the name itself, and what a dot follows in it. -/
def Ancestor (name rulePrefix : Bytes) : Prop :=
  rulePrefix = [] ∨ rulePrefix = name ∨
    exists tail, name = rulePrefix ++ 46 :: tail

theorem loggerNameMatchesPrefix_iff (name rulePrefix : Bytes) :
    loggerNameMatchesPrefix name rulePrefix = true <->
      Ancestor name rulePrefix := by
  unfold loggerNameMatchesPrefix Ancestor
  by_cases hempty : rulePrefix = []
  · simp [hempty]
  by_cases hsame : name = rulePrefix
  · simp [hsame]
  rw [if_neg hempty, if_neg hsame, or_iff_right hempty,
    or_iff_right fun heq => hsame heq.symm]
  simp only [Bool.and_eq_true, decide_eq_true_eq, List.isPrefixOf_iff_prefix,
    beq_iff_eq]
  constructor
  · rintro ⟨⟨_, tail, rfl⟩, hdot⟩
    rw [List.getElem?_append_right (Nat.le_refl _), Nat.sub_self] at hdot
    cases tail with
    | nil => cases hdot
    | cons first rest =>
        rw [List.getElem?_cons_zero, Option.some_inj] at hdot
        exact ⟨rest, by rw [hdot]⟩
  · rintro ⟨tail, rfl⟩
    simp

theorem Ancestor.isPrefix {name rulePrefix : Bytes}
    (h : Ancestor name rulePrefix) : rulePrefix <+: name := by
  rcases h with rfl | rfl | ⟨tail, rfl⟩
  · exact List.nil_prefix
  · exact List.prefix_rfl
  · exact List.prefix_append _ _

theorem Ancestor.eq_of_length {name first second : Bytes}
    (hfirst : Ancestor name first) (hsecond : Ancestor name second)
    (hlength : first.length = second.length) :
    first = second := by
  rw [List.prefix_iff_eq_take.mp hfirst.isPrefix, hlength]
  exact (List.prefix_iff_eq_take.mp hsecond.isPrefix).symm

/-!
## The table of the calls
-/

def SettingsCall.tabulate (table : Bytes -> Option (LoggerRule sink)) :
    SettingsCall sink -> Bytes -> Option (LoggerRule sink)
  | setDefaultRuntimeMin _ => table
  | setDefaultSinks _ => table
  | upsertRule rule => Function.update table rule.rulePrefix (some rule)
  | removeRule rulePrefix => Function.update table rulePrefix none

/-- The rule of each prefix after the calls. -/
def ruleTable (calls : List (SettingsCall sink)) :
    Bytes -> Option (LoggerRule sink) :=
  calls.foldl SettingsCall.tabulate fun _ => none

/-- The rule was upserted, and no later call was about its prefix. -/
def LastUpserted (calls : List (SettingsCall sink)) (rule : LoggerRule sink) :
    Prop :=
  exists before after,
    calls = before ++ SettingsCall.upsertRule rule :: after ∧
      forall call, call ∈ after -> ¬ call.AboutRule rule.rulePrefix

theorem ruleTable_concat (calls : List (SettingsCall sink))
    (call : SettingsCall sink) :
    ruleTable (calls ++ [call]) = call.tabulate (ruleTable calls) :=
  List.foldl_concat ..

theorem lastUpserted_concat (calls : List (SettingsCall sink))
    (call : SettingsCall sink) (rule : LoggerRule sink) :
    LastUpserted (calls ++ [call]) rule <->
      call = SettingsCall.upsertRule rule ∨
        (LastUpserted calls rule ∧ ¬ call.AboutRule rule.rulePrefix) := by
  constructor
  · rintro ⟨before, after, hsplit, hafter⟩
    rcases List.eq_nil_or_concat after with rfl | ⟨after', last, rfl⟩
    · exact Or.inl (List.append_inj_right' hsplit rfl |> List.cons.inj |>.1)
    · rw [List.concat_eq_append, ← List.cons_append, ← List.append_assoc]
        at hsplit
      rw [List.concat_eq_append] at hafter
      rcases List.append_inj' hsplit rfl with ⟨hcalls, hlast⟩
      rw [(List.cons.inj hlast).1]
      refine Or.inr ⟨⟨before, after', hcalls, fun call hcall => ?_⟩, ?_⟩
      · exact hafter call (List.mem_append_left _ hcall)
      · exact hafter last (List.mem_append_right _ List.mem_cons_self)
  · rintro (rfl | ⟨⟨before, after, rfl, hafter⟩, hcall⟩)
    · exact ⟨calls, [], rfl, fun call hcall => absurd hcall List.not_mem_nil⟩
    · refine ⟨before, after ++ [call], by simp, fun call' hcall' => ?_⟩
      rcases List.mem_append.mp hcall' with hold | hnew
      · exact hafter call' hold
      · rw [List.mem_singleton.mp hnew]
        exact hcall

theorem ruleTable_eq_some_iff (calls : List (SettingsCall sink))
    (rule : LoggerRule sink) :
    ruleTable calls rule.rulePrefix = some rule <->
      LastUpserted calls rule := by
  induction calls using List.reverseRecOn with
  | nil =>
      constructor
      · intro h
        cases h
      · rintro ⟨before, after, hnil, _⟩
        exact absurd hnil (by simp)
  | append_singleton rest call ih =>
      rw [ruleTable_concat, lastUpserted_concat, ← ih]
      cases call with
      | setDefaultRuntimeMin runtimeMin =>
          simp only [SettingsCall.tabulate, reduceCtorEq, false_or]
          exact ⟨fun h => ⟨h, fun habout => by cases habout⟩, And.left⟩
      | setDefaultSinks sinks =>
          simp only [SettingsCall.tabulate, reduceCtorEq, false_or]
          exact ⟨fun h => ⟨h, fun habout => by cases habout⟩, And.left⟩
      | upsertRule new =>
          rw [SettingsCall.tabulate, SettingsCall.upsertRule.injEq]
          by_cases hkey : rule.rulePrefix = new.rulePrefix
          · rw [hkey, Function.update_self, Option.some_inj]
            refine ⟨Or.inl, fun hcase => hcase.resolve_right fun hold => ?_⟩
            exact hold.2 (SettingsCall.AboutRule.upsertRule rfl)
          · rw [Function.update_of_ne hkey, or_iff_right]
            · refine ⟨fun h => ⟨h, fun habout => ?_⟩, And.left⟩
              cases habout with
              | upsertRule hsame => exact hkey hsame.symm
            · exact fun heq => hkey (by rw [heq])
      | removeRule rulePrefix =>
          simp only [SettingsCall.tabulate, reduceCtorEq, false_or]
          by_cases hkey : rule.rulePrefix = rulePrefix
          · rw [hkey, Function.update_self]
            constructor
            · intro h
              cases h
            · exact fun hcase =>
                absurd SettingsCall.AboutRule.removeRule hcase.2
          · rw [Function.update_of_ne hkey]
            refine ⟨fun h => ⟨h, fun habout => ?_⟩, And.left⟩
            cases habout
            exact hkey rfl

theorem represents_apply {settings : Settings sink}
    {table : Bytes -> Option (LoggerRule sink)}
    (h : KeyedTable.Represents LoggerRule.rulePrefix settings.rules table)
    (call : SettingsCall sink) :
    KeyedTable.Represents LoggerRule.rulePrefix (settings.apply call).rules
      (call.tabulate table) := by
  cases call with
  | setDefaultRuntimeMin runtimeMin => exact h
  | setDefaultSinks sinks => exact h
  | upsertRule rule => exact h.upsert rule
  | removeRule rulePrefix => exact h.erase rulePrefix

theorem represents_foldl (calls : List (SettingsCall sink)) :
    KeyedTable.Represents LoggerRule.rulePrefix
      (calls.foldl Settings.apply {}).rules (ruleTable calls) := by
  induction calls using List.reverseRecOn with
  | nil => exact KeyedTable.Represents.empty _
  | append_singleton rest call ih =>
      rw [List.foldl_concat, ruleTable_concat]
      exact represents_apply ih call

/-!
## Lookup
-/

def Settings.overriddenBy (settings : Settings sink) :
    Option (LoggerRule sink) -> LoggerConfig sink
  | none =>
      { runtimeMin := settings.defaultRuntimeMin
        sinks := settings.defaultSinks }
  | some rule =>
      { runtimeMin := rule.runtimeMin.getD settings.defaultRuntimeMin
        sinks := rule.sinks.getD settings.defaultSinks }

def LongestAncestor (table : Bytes -> Option (LoggerRule sink)) (name : Bytes)
    (best : Option (LoggerRule sink)) : Prop :=
  KeyedTable.Largest LoggerRule.rulePrefix (Ancestor name) List.length table
    best

theorem LongestAncestor.unique
    {table : Bytes -> Option (LoggerRule sink)} {name : Bytes}
    {first second : Option (LoggerRule sink)}
    (hfirst : LongestAncestor table name first)
    (hsecond : LongestAncestor table name second) :
    first = second :=
  KeyedTable.Largest.unique (fun _ _ hk hk' => hk.eq_of_length hk') hfirst
    hsecond

theorem considerRule_eq (name : Bytes) (best : Option (LoggerRule sink))
    (rule : LoggerRule sink) :
    considerRule name best rule =
      KeyedTable.consider LoggerRule.rulePrefix
        (fun rulePrefix => loggerNameMatchesPrefix name rulePrefix = true)
        List.length best rule := by
  cases best <;> rfl

theorem longestAncestor_foldl {rules : List (LoggerRule sink)}
    {table : Bytes -> Option (LoggerRule sink)}
    (h : KeyedTable.Represents LoggerRule.rulePrefix rules table)
    (name : Bytes) :
    LongestAncestor table name (rules.foldl (considerRule name) none) := by
  have hadmits : (fun rulePrefix =>
      loggerNameMatchesPrefix name rulePrefix = true) = Ancestor name :=
    funext fun rulePrefix =>
      propext (loggerNameMatchesPrefix_iff name rulePrefix)
  have hsearch : considerRule name = _ := funext fun best =>
    funext fun rule : LoggerRule sink => considerRule_eq name best rule
  rw [LongestAncestor, ← hadmits, hsearch]
  exact h.largest_foldl

theorem Settings.computeEffectiveConfigLocked_eq (settings : Settings sink)
    (name : Bytes) :
    settings.computeEffectiveConfigLocked name =
      settings.overriddenBy (settings.rules.foldl (considerRule name) none) := by
  unfold computeEffectiveConfigLocked
  split <;> rename_i hbest <;> rw [hbest] <;> rfl

/-!
## The registry
-/

/-- The rules of a registry are the table of the calls that were made to it. -/
structure TabulatesRules (registry : LoggerRegistry sink)
    (calls : List (SettingsCall sink)) : Prop where
  distinct : (registry.rules.map LoggerRule.rulePrefix).Nodup
  mem_iff : forall rule, rule ∈ registry.rules <->
    ruleTable calls rule.rulePrefix = some rule
  lastUpserted : forall rule, rule ∈ registry.rules <->
    LastUpserted calls rule
  oneOfEachLength : forall name rule rule', rule ∈ registry.rules ->
    rule' ∈ registry.rules ->
    loggerNameMatchesPrefix name rule.rulePrefix = true ->
    loggerNameMatchesPrefix name rule'.rulePrefix = true ->
    rule.rulePrefix.length = rule'.rulePrefix.length -> rule = rule'
  lookup : forall name, exists best,
    LongestAncestor (ruleTable calls) name best ∧
      registry.getEffectiveConfig name = registry.overriddenBy best

theorem tabulatesRules_of_settings {registry : LoggerRegistry sink}
    {calls : List (SettingsCall sink)}
    (h : registry.toSettings = calls.foldl Settings.apply {}) :
    TabulatesRules registry calls := by
  have hrepresents : KeyedTable.Represents LoggerRule.rulePrefix
      registry.rules (ruleTable calls) := by
    rw [h]
    exact represents_foldl calls
  refine ⟨hrepresents.distinct, hrepresents.mem_iff, fun rule => ?_, ?_,
    fun name => ?_⟩
  · rw [hrepresents.mem_iff, ruleTable_eq_some_iff]
  · intro name rule rule' hrule hrule' hmatch hmatch' hlength
    rw [loggerNameMatchesPrefix_iff] at hmatch hmatch'
    exact hrepresents.eq_of_key hrule hrule'
      (hmatch.eq_of_length hmatch' hlength)
  · exact ⟨_, longestAncestor_foldl hrepresents name,
      registry.computeEffectiveConfigLocked_eq name⟩

/--
After every run the rules are the table of the calls.  Runs that end with the
same table and the same defaults configure every name alike.
-/
theorem rules_are_a_table (sink : Type) :
    (forall trace s, (sharedRegistry sink).run trace = some s ->
      TabulatesRules s.registry (trace.filterMap Action.settingsCall?)) ∧
    (forall trace trace' s s',
      (sharedRegistry sink).run trace = some s ->
      (sharedRegistry sink).run trace' = some s' ->
      ruleTable (trace.filterMap Action.settingsCall?) =
        ruleTable (trace'.filterMap Action.settingsCall?) ->
      s.registry.defaultRuntimeMin = s'.registry.defaultRuntimeMin ->
      s.registry.defaultSinks = s'.registry.defaultSinks ->
      forall name, s.registry.getEffectiveConfig name =
        s'.registry.getEffectiveConfig name) := by
  have htable : forall trace s, (sharedRegistry sink).run trace = some s ->
      TabulatesRules s.registry (trace.filterMap Action.settingsCall?) :=
    fun trace s hrun => tabulatesRules_of_settings (run_toSettings hrun)
  refine ⟨htable, ?_⟩
  intro trace trace' s s' hrun hrun' hsame hmin hsinks name
  rcases (htable trace s hrun).lookup name with ⟨best, hbest, hconfig⟩
  rcases (htable trace' s' hrun').lookup name with ⟨best', hbest', hconfig'⟩
  rw [hsame] at hbest
  rw [hconfig, hconfig', hbest.unique hbest']
  cases best' <;> rw [Settings.overriddenBy, Settings.overriddenBy, hmin, hsinks]

def upsertsInOrder : List (Action Nat) :=
  [ Action.configure 0 (SettingsCall.upsertRule
      { rulePrefix := ascii "app", runtimeMin := some LogLevel.debug }),
    Action.configure 0 (SettingsCall.upsertRule { rulePrefix := ascii "ap" }),
    Action.configure 1 (SettingsCall.upsertRule
      { rulePrefix := ascii "app.db", runtimeMin := some LogLevel.warn }),
    Action.configure 0 (SettingsCall.upsertRule
      { rulePrefix := ascii "app", runtimeMin := some LogLevel.error }),
    Action.configure 1 (SettingsCall.removeRule (ascii "ap")) ]

def upsertsReversed : List (Action Nat) :=
  [ Action.configure 0 (SettingsCall.upsertRule
      { rulePrefix := ascii "app.db", runtimeMin := some LogLevel.warn }),
    Action.configure 0 (SettingsCall.upsertRule
      { rulePrefix := ascii "app", runtimeMin := some LogLevel.error }) ]

theorem upserts_same_table :
    ruleTable (upsertsInOrder.filterMap Action.settingsCall?) =
      ruleTable (upsertsReversed.filterMap Action.settingsCall?) := by
  funext key
  simp only [ruleTable, upsertsInOrder, upsertsReversed,
    List.filterMap_cons, Action.settingsCall?, List.filterMap_nil,
    List.foldl_cons, List.foldl_nil, SettingsCall.tabulate,
    Function.update_apply]
  by_cases hremoved : key = ascii "ap"
  · subst hremoved
    rfl
  · simp only [if_neg hremoved]
    split_ifs <;> rfl

theorem upsert_order_is_invisible :
    exists s s', (sharedRegistry Nat).run upsertsInOrder = some s ∧
      (sharedRegistry Nat).run upsertsReversed = some s' ∧
      TabulatesRules s.registry
        (upsertsInOrder.filterMap Action.settingsCall?) ∧
      s.registry.getEffectiveConfig (ascii "app.db.pool") =
        s'.registry.getEffectiveConfig (ascii "app.db.pool") :=
  ⟨((sharedRegistry Nat).run upsertsInOrder).get rfl,
    ((sharedRegistry Nat).run upsertsReversed).get rfl, rfl, rfl,
    (rules_are_a_table Nat).1 _ _ rfl,
    (rules_are_a_table Nat).2 upsertsInOrder upsertsReversed _ _ rfl rfl
      upserts_same_table rfl rfl _⟩

end Registry
end NginLog
