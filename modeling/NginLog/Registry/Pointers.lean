import NginLog.Registry.RuleUpdates

/-!
# One logger object for each name

`GetOrCreate` and `Get` return pointers, so it matters not only how a logger is
configured but which object it is.  Here the map of the registry binds names to
pointers, and the objects stand beside it.  Two threads can miss the same name
under the shared lock; the second lookup, under the exclusive one, lets only the
first of them make an object.
-/

namespace NginLog
namespace Registry

open Foundation Record

variable {sink : Type}

/-- A `LoggerPtr`: the number of an object, counted as they are made. -/
abbrev LoggerPtr := Nat

/-- The registry with its map from names to pointers, and the objects made. -/
structure PointerRegistry (sink : Type) extends Settings sink where
  loggers : List (Bytes × LoggerPtr) := []
  objects : List (Logger sink) := []
  distinct : (loggers.map Prod.fst).Nodup := by simp

def Settings.makeLogger (settings : Settings sink) (name : Bytes)
    (runtimeMin : LogLevel) : Logger sink :=
  let config := settings.computeEffectiveConfigLocked name
  let level :=
    if config.runtimeMin = settings.defaultRuntimeMin ∧
        runtimeMin ≠ LogLevel.info then
      runtimeMin
    else
      config.runtimeMin
  { name := name, runtimeMin := level, activeSinks := config.sinks }

def Settings.reconfigure (settings : Settings sink) (name : Bytes)
    (logger : Logger sink) : Logger sink :=
  let config := settings.computeEffectiveConfigLocked name
  (logger.setRuntimeMin config.runtimeMin).setSinks config.sinks

namespace PointerRegistry

def find (registry : PointerRegistry sink) (name : Bytes) :
    Option LoggerPtr :=
  (registry.loggers.find? fun binding => binding.1 = name).map Prod.snd

def storeTo (registry : PointerRegistry sink) (pointer : LoggerPtr)
    (change : Logger sink -> Logger sink) : PointerRegistry sink :=
  { registry with objects := registry.objects.modify pointer change }

def applyConfigUpdatesLocked (registry : PointerRegistry sink) :
    PointerRegistry sink :=
  { registry with
    objects := registry.loggers.foldl
      (fun objects binding =>
        objects.modify binding.2 (registry.reconfigure binding.1))
      registry.objects }

def configure (registry : PointerRegistry sink) (call : SettingsCall sink) :
    PointerRegistry sink :=
  applyConfigUpdatesLocked
    { registry with toSettings := registry.toSettings.apply call }

def emplace (registry : PointerRegistry sink) (name : Bytes)
    (runtimeMin : LogLevel) (h : name ∉ registry.loggers.map Prod.fst) :
    PointerRegistry sink :=
  { registry with
    loggers := registry.loggers ++ [(name, registry.objects.length)]
    objects := registry.objects ++ [registry.makeLogger name runtimeMin]
    distinct := by
      rw [List.map_append, List.map_singleton, ← List.concat_eq_append]
      exact registry.distinct.concat h }

theorem find_eq_none_iff {registry : PointerRegistry sink} {name : Bytes} :
    registry.find name = none <-> name ∉ registry.loggers.map Prod.fst := by
  simp only [find, Option.map_eq_none_iff, List.find?_eq_none, List.mem_map,
    decide_eq_true_eq]
  constructor
  · rintro h ⟨binding, hbinding, hname⟩
    exact h binding hbinding hname
  · intro h binding hbinding hname
    exact h ⟨binding, hbinding, hname⟩

def create (registry : PointerRegistry sink) (name : Bytes)
    (runtimeMin : LogLevel) : PointerRegistry sink × LoggerPtr :=
  match h : registry.find name with
  | some pointer => (registry, pointer)
  | none =>
      (registry.emplace name runtimeMin (find_eq_none_iff.mp h),
        registry.objects.length)

end PointerRegistry

/-!
## Threads

The sections are those of the registry by names, but a thread that goes on with
a logger holds its pointer.
-/

inductive PointerPhase (sink : Type) where
  | idle
  | creating (name : Bytes) (runtimeMin : LogLevel)
  | settingRuntimeMin (pointer : LoggerPtr) (runtimeMin : LogLevel)
  | settingSinks (pointer : LoggerPtr) (sinks : List sink)

inductive Reply where
  | getOrCreate (thread : Nat) (name : Bytes) (pointer : LoggerPtr)
  | get (thread : Nat) (name : Bytes) (found : Option LoggerPtr)

structure PointerShared (sink : Type) where
  registry : PointerRegistry sink := {}
  phases : Nat -> PointerPhase sink := fun _ => PointerPhase.idle
  replies : List Reply := []

inductive PointerAction (sink : Type) where
  | member (action : Action sink)
  | get (thread : Nat) (name : Bytes)

namespace PointerShared

def setPhase (s : PointerShared sink) (thread : Nat)
    (phase : PointerPhase sink) : PointerShared sink :=
  { s with phases := Function.update s.phases thread phase }

def setRegistry (s : PointerShared sink) (registry : PointerRegistry sink) :
    PointerShared sink :=
  { s with registry := registry }

def reply (s : PointerShared sink) (reply : Reply) : PointerShared sink :=
  { s with replies := s.replies ++ [reply] }

def fetch (s : PointerShared sink) (thread : Nat) (name : Bytes)
    (next : LoggerPtr -> PointerPhase sink) : PointerShared sink :=
  match s.registry.find name with
  | some pointer => s.setPhase thread (next pointer)
  | none => s

def step (s : PointerShared sink) :
    PointerAction sink -> Option (PointerShared sink)
  | PointerAction.member (Action.getOrCreate thread name runtimeMin) =>
      match s.phases thread with
      | PointerPhase.idle =>
          match s.registry.find name with
          | some pointer =>
              some (s.reply (Reply.getOrCreate thread name pointer))
          | none =>
              some (s.setPhase thread (PointerPhase.creating name runtimeMin))
      | _ => none
  | PointerAction.member (Action.create thread) =>
      match s.phases thread with
      | PointerPhase.creating name runtimeMin =>
          let created := s.registry.create name runtimeMin
          some (((s.setRegistry created.1).setPhase thread
            PointerPhase.idle).reply
              (Reply.getOrCreate thread name created.2))
      | _ => none
  | PointerAction.member (Action.configure thread call) =>
      match s.phases thread with
      | PointerPhase.idle => some (s.setRegistry (s.registry.configure call))
      | _ => none
  | PointerAction.member (Action.setLoggerRuntimeMin thread name runtimeMin) =>
      match s.phases thread with
      | PointerPhase.idle =>
          some (s.fetch thread name fun pointer =>
            PointerPhase.settingRuntimeMin pointer runtimeMin)
      | _ => none
  | PointerAction.member (Action.replaceLoggerSinks thread name sinks) =>
      match s.phases thread with
      | PointerPhase.idle =>
          some (s.fetch thread name fun pointer =>
            PointerPhase.settingSinks pointer sinks)
      | _ => none
  | PointerAction.member (Action.store thread) =>
      match s.phases thread with
      | PointerPhase.settingRuntimeMin pointer runtimeMin =>
          some ((s.setRegistry (s.registry.storeTo pointer
            fun logger => logger.setRuntimeMin runtimeMin)).setPhase thread
              PointerPhase.idle)
      | PointerPhase.settingSinks pointer sinks =>
          some ((s.setRegistry (s.registry.storeTo pointer
            fun logger => logger.setSinks sinks)).setPhase thread
              PointerPhase.idle)
      | _ => none
  | PointerAction.get thread name =>
      match s.phases thread with
      | PointerPhase.idle =>
          some (s.reply (Reply.get thread name (s.registry.find name)))
      | _ => none

end PointerShared

def pointerRegistry (sink : Type) :
    Machine (PointerShared sink) (PointerAction sink) where
  init := {}
  step := PointerShared.step

/-!
## Bindings stay

No section loses a binding, and each name is bound to an object that has this
name.  One object holds one name, so two names are never bound to one object.
-/

namespace PointerRegistry

def Keeps (before after : PointerRegistry sink) : Prop :=
  forall name pointer, before.find name = some pointer ->
    after.find name = some pointer

def Named (registry : PointerRegistry sink) : Prop :=
  forall name pointer, registry.find name = some pointer ->
    exists logger, registry.objects[pointer]? = some logger ∧
      logger.name = name

theorem Keeps.refl (registry : PointerRegistry sink) :
    registry.Keeps registry := fun _ _ h => h

theorem find_emplace {registry : PointerRegistry sink} {name : Bytes}
    (h : name ∉ registry.loggers.map Prod.fst) (runtimeMin : LogLevel)
    (other : Bytes) :
    (registry.emplace name runtimeMin h).find other =
      (registry.find other).or
        (if name = other then some registry.objects.length else none) := by
  unfold find emplace
  rw [List.find?_append]
  by_cases hother : name = other
  · cases registry.loggers.find? fun binding => binding.1 = other <;>
      simp [hother]
  · cases registry.loggers.find? fun binding => binding.1 = other <;>
      simp [hother]

theorem create_spec (registry : PointerRegistry sink) (name : Bytes)
    (runtimeMin : LogLevel) :
    registry.Keeps (registry.create name runtimeMin).1 ∧
      (registry.create name runtimeMin).1.find name =
        some (registry.create name runtimeMin).2 := by
  unfold create
  split
  · rename_i pointer hfind
    exact ⟨Keeps.refl registry, hfind⟩
  · rename_i hnone
    constructor
    · intro other pointer hother
      rw [find_emplace, hother, Option.some_or]
    · rw [find_emplace, if_pos rfl, Option.or_eq_some_iff]
      exact Or.inr ⟨hnone, rfl⟩

theorem Named.create {registry : PointerRegistry sink} (h : registry.Named)
    (name : Bytes) (runtimeMin : LogLevel) :
    (registry.create name runtimeMin).1.Named := by
  unfold PointerRegistry.create
  split
  · exact h
  · intro other pointer hother
    rw [find_emplace] at hother
    show exists logger, (registry.objects ++ [registry.makeLogger name
      runtimeMin])[pointer]? = some logger ∧ logger.name = other
    cases hold : registry.find other with
    | some old =>
        rw [hold, Option.some_or, Option.some_inj] at hother
        rcases h other old hold with ⟨logger, hlogger, hname⟩
        rw [← hother, List.getElem?_append_left
          (List.getElem?_eq_some_iff.mp hlogger).1]
        exact ⟨logger, hlogger, hname⟩
    | none =>
        rw [hold, Option.none_or] at hother
        split at hother
        · rename_i hsame
          rw [← Option.some.inj hother, List.getElem?_append_right
            (Nat.le_refl _), Nat.sub_self]
          exact ⟨_, rfl, hsame⟩
        · cases hother

theorem Named.storeTo {registry : PointerRegistry sink} (h : registry.Named)
    (pointer : LoggerPtr) {change : Logger sink -> Logger sink}
    (hname : forall logger, (change logger).name = logger.name) :
    (registry.storeTo pointer change).Named := by
  intro name pointer' hfind
  rcases h name pointer' hfind with ⟨logger, hlogger, rfl⟩
  show exists stored, (registry.objects.modify pointer change)[pointer']? =
    some stored ∧ stored.name = logger.name
  rw [List.getElem?_modify, hlogger]
  by_cases hsame : pointer = pointer'
  · exact ⟨change logger, by simp [hsame], hname logger⟩
  · exact ⟨logger, by simp [hsame], rfl⟩

theorem Named.pointer_inj {registry : PointerRegistry sink}
    (h : registry.Named) {name name' : Bytes} {pointer : LoggerPtr}
    (hname : registry.find name = some pointer)
    (hname' : registry.find name' = some pointer) :
    name = name' := by
  rcases h name pointer hname with ⟨logger, hlogger, rfl⟩
  rcases h name' pointer hname' with ⟨logger', hlogger', rfl⟩
  rw [hlogger] at hlogger'
  rw [Option.some.inj hlogger']

theorem find_of_mem {registry : PointerRegistry sink}
    {binding : Bytes × LoggerPtr} (h : binding ∈ registry.loggers) :
    registry.find binding.1 = some binding.2 := by
  rcases List.append_of_mem h with ⟨before, after, hsplit⟩
  have hdistinct := registry.distinct
  rw [hsplit, List.map_append, List.map_cons, List.nodup_append] at hdistinct
  have hfirst : forall other, other ∈ before -> other.1 ≠ binding.1 :=
    fun other hother =>
      hdistinct.2.2 _ (List.mem_map_of_mem hother) _ List.mem_cons_self
  have hfound : registry.loggers.find? (fun other => other.1 = binding.1) =
      some binding := by
    rw [List.find?_eq_some_iff_append]
    exact ⟨by simp, before, after, hsplit, fun other hother => by
      simp [hfirst other hother]⟩
  rw [find, hfound, Option.map_some]

theorem foldl_modify {loggers : List (Bytes × LoggerPtr)}
    {change : Bytes -> Logger sink -> Logger sink}
    (hpointers : (loggers.map Prod.snd).Nodup) (objects : List (Logger sink))
    (pointer : LoggerPtr) :
    (loggers.foldl
        (fun objects binding => objects.modify binding.2 (change binding.1))
        objects)[pointer]? =
      (match loggers.find? fun binding => binding.2 = pointer with
        | some binding => objects[pointer]?.map (change binding.1)
        | none => objects[pointer]?) := by
  induction loggers generalizing objects with
  | nil => rfl
  | cons first rest ih =>
      rw [List.map_cons, List.nodup_cons] at hpointers
      rw [List.foldl_cons, ih hpointers.2, List.find?_cons]
      by_cases hfirst : first.2 = pointer
      · subst hfirst
        have hnone : (rest.find? fun binding => binding.2 = first.2) =
            none := by
          rw [List.find?_eq_none]
          intro other hother
          have hne : other.2 ≠ first.2 := fun heq =>
            hpointers.1 (heq ▸ List.mem_map_of_mem hother)
          simpa using hne
        rw [hnone]
        simp
      · simp [hfirst]

theorem Named.pointers_nodup {registry : PointerRegistry sink}
    (h : registry.Named) :
    (registry.loggers.map Prod.snd).Nodup := by
  have hnodup := registry.distinct.of_map
  refine hnodup.map_on ?_
  intro first hfirst second hsecond hsame
  have hname := h.pointer_inj (find_of_mem hfirst)
    (hsame ▸ find_of_mem hsecond)
  exact Prod.ext hname hsame

theorem Named.configure_object {registry : PointerRegistry sink}
    (h : registry.Named) (call : SettingsCall sink) {name : Bytes}
    {pointer : LoggerPtr} (hfind : registry.find name = some pointer) :
    (registry.configure call).objects[pointer]? =
      registry.objects[pointer]?.map
        ((registry.toSettings.apply call).reconfigure name) := by
  rcases Option.map_eq_some_iff.mp hfind with ⟨binding, hfound, hpointer⟩
  have hmem := List.mem_of_find?_eq_some hfound
  have hname : binding.1 = name := by simpa using List.find?_some hfound
  have hbinding : (registry.loggers.find? fun binding =>
      binding.2 = pointer) = some binding := by
    rcases hcase : registry.loggers.find? fun binding => binding.2 = pointer
      with _ | other
    · rw [List.find?_eq_none] at hcase
      exact absurd hpointer (by simpa using hcase binding hmem)
    · have hother := List.mem_of_find?_eq_some hcase
      have hsame : other.2 = pointer := by simpa using List.find?_some hcase
      have hfindOther := find_of_mem hother
      rw [hsame] at hfindOther
      rw [hcase, Prod.ext ((h.pointer_inj hfindOther hfind).trans hname.symm)
        (hsame.trans hpointer.symm)]
  have hpass := @foldl_modify _ registry.loggers
    (registry.toSettings.apply call).reconfigure h.pointers_nodup
    registry.objects pointer
  simp only [hbinding, hname] at hpass
  exact hpass

theorem Named.configure {registry : PointerRegistry sink} (h : registry.Named)
    (call : SettingsCall sink) :
    (registry.configure call).Named := by
  intro name pointer hfind
  have hbefore : registry.find name = some pointer := hfind
  rcases h name pointer hbefore with ⟨logger, hlogger, rfl⟩
  rw [h.configure_object call hbefore, hlogger]
  exact ⟨_, rfl, rfl⟩

end PointerRegistry

/-!
## Replies
-/

def Reply.Tells (registry : PointerRegistry sink) : Reply -> Prop
  | getOrCreate _ name pointer => registry.find name = some pointer
  | get _ name found => registry.find name = found

/-- What an earlier `GetOrCreate` returned binds later replies for its name. -/
def Reply.Agrees : Reply -> Reply -> Prop
  | getOrCreate _ name pointer, getOrCreate _ name' pointer' =>
      name = name' -> pointer' = pointer
  | getOrCreate _ name pointer, get _ name' found =>
      name = name' -> found = some pointer
  | get _ _ _, _ => True

/-- What one section does: no binding is lost, and a reply tells the truth. -/
structure Progress (s s' : PointerShared sink) : Prop where
  keeps : s.registry.Keeps s'.registry
  named : s.registry.Named -> s'.registry.Named
  replies : s'.replies = s.replies ∨
    exists reply, s'.replies = s.replies ++ [reply] ∧
      reply.Tells s'.registry

theorem PointerShared.fetch_eq (s : PointerShared sink) (thread : Nat)
    (name : Bytes) (next : LoggerPtr -> PointerPhase sink) :
    (s.fetch thread name next).registry = s.registry ∧
      (s.fetch thread name next).replies = s.replies := by
  unfold fetch
  split <;> exact ⟨rfl, rfl⟩

theorem step_progress {s s' : PointerShared sink} {a : PointerAction sink}
    (hstep : s.step a = some s') :
    Progress s s' := by
  have hsame : forall t : PointerShared sink, t.registry = s.registry ->
      t.replies = s.replies -> Progress s t := by
    intro t hregistry hreplies
    refine ⟨?_, ?_, Or.inl hreplies⟩
    · rw [hregistry]
      exact PointerRegistry.Keeps.refl _
    · rw [hregistry]
      exact id
  have hfetch : forall thread name (next : LoggerPtr -> PointerPhase sink),
      Progress s (s.fetch thread name next) := fun thread name next =>
    hsame _ (s.fetch_eq thread name next).1 (s.fetch_eq thread name next).2
  have hstore : forall (pointer : LoggerPtr)
      (change : Logger sink -> Logger sink) (thread : Nat),
      (forall logger, (change logger).name = logger.name) ->
      Progress s ((s.setRegistry (s.registry.storeTo pointer change)).setPhase
        thread PointerPhase.idle) := fun pointer change thread hname =>
    ⟨fun _ _ hfind => hfind, fun hnamed => hnamed.storeTo pointer hname,
      Or.inl rfl⟩
  cases a with
  | get thread name =>
      simp only [PointerShared.step] at hstep
      split at hstep
      · cases hstep
        exact ⟨PointerRegistry.Keeps.refl _, id, Or.inr ⟨_, rfl, rfl⟩⟩
      · cases hstep
  | member a =>
      cases a with
      | getOrCreate thread name runtimeMin =>
          simp only [PointerShared.step] at hstep
          split at hstep
          · split at hstep
            · rename_i pointer hfind
              cases hstep
              exact ⟨PointerRegistry.Keeps.refl _, id,
                Or.inr ⟨_, rfl, hfind⟩⟩
            · cases hstep
              exact hsame _ rfl rfl
          · cases hstep
      | create thread =>
          simp only [PointerShared.step] at hstep
          split at hstep
          · rename_i name runtimeMin _
            cases hstep
            rcases s.registry.create_spec name runtimeMin with ⟨hkeeps, hfind⟩
            exact ⟨hkeeps, fun hnamed => hnamed.create name runtimeMin,
              Or.inr ⟨_, rfl, hfind⟩⟩
          · cases hstep
      | configure thread call =>
          simp only [PointerShared.step] at hstep
          split at hstep
          · cases hstep
            exact ⟨fun _ _ hfind => hfind, fun hnamed => hnamed.configure call,
              Or.inl rfl⟩
          · cases hstep
      | setLoggerRuntimeMin thread name runtimeMin =>
          simp only [PointerShared.step] at hstep
          split at hstep
          · cases hstep
            exact hfetch _ _ _
          · cases hstep
      | replaceLoggerSinks thread name sinks =>
          simp only [PointerShared.step] at hstep
          split at hstep
          · cases hstep
            exact hfetch _ _ _
          · cases hstep
      | store thread =>
          simp only [PointerShared.step] at hstep
          split at hstep
          · cases hstep
            exact hstore _ _ _ fun _ => rfl
          · cases hstep
            exact hstore _ _ _ fun _ => rfl
          · cases hstep

structure RepliesHold (s : PointerShared sink) : Prop where
  named : s.registry.Named
  bound : forall thread name pointer,
    Reply.getOrCreate thread name pointer ∈ s.replies ->
    s.registry.find name = some pointer
  agree : s.replies.Pairwise Reply.Agrees

theorem RepliesHold.step {s s' : PointerShared sink} (h : RepliesHold s)
    (hprogress : Progress s s') :
    RepliesHold s' := by
  have hbound : forall thread name pointer,
      Reply.getOrCreate thread name pointer ∈ s.replies ->
      s'.registry.find name = some pointer :=
    fun thread name pointer hmem =>
      hprogress.keeps name pointer (h.bound thread name pointer hmem)
  rcases hprogress.replies with hsame | ⟨reply, hreplies, htells⟩
  · refine ⟨hprogress.named h.named, ?_, ?_⟩
    · rw [hsame]
      exact hbound
    · rw [hsame]
      exact h.agree
  · refine ⟨hprogress.named h.named, ?_, ?_⟩
    · intro thread name pointer hmem
      rw [hreplies, List.mem_append, List.mem_singleton] at hmem
      rcases hmem with hold | rfl
      · exact hbound thread name pointer hold
      · exact htells
    · rw [hreplies, List.pairwise_append]
      refine ⟨h.agree, List.pairwise_singleton _ _, ?_⟩
      intro earlier hearlier later hlater
      rw [List.mem_singleton.mp hlater]
      cases earlier with
      | get thread name found => trivial
      | getOrCreate thread name pointer =>
          have hfind := hbound thread name pointer hearlier
          cases reply with
          | getOrCreate thread' name' pointer' =>
              rintro rfl
              have hnew : s'.registry.find name = some pointer' := htells
              rw [hfind] at hnew
              exact (Option.some.inj hnew).symm
          | get thread' name' found =>
              rintro rfl
              have hnew : s'.registry.find name = found := htells
              rw [← hnew, hfind]

theorem reachable_repliesHold {s : PointerShared sink}
    (h : (pointerRegistry sink).Reachable s) :
    RepliesHold s := by
  refine Machine.invariant ⟨fun name pointer hfind => ?_,
    fun thread name pointer hmem => absurd hmem List.not_mem_nil,
    List.Pairwise.nil⟩ (fun s a s' _ hs hstep => hs.step (step_progress hstep))
    h
  cases hfind

/-!
## One logger
-/

/--
Calls of `GetOrCreate` for one name return one object, which has this name, and
a later `Get` finds it.  No section of any member rebinds a name.
-/
theorem one_logger_per_name (sink : Type) :
    (forall s, (pointerRegistry sink).Reachable s ->
      s.replies.Pairwise Reply.Agrees ∧
      forall thread name pointer,
        Reply.getOrCreate thread name pointer ∈ s.replies ->
        exists logger, s.registry.objects[pointer]? = some logger ∧
          logger.name = name) ∧
    (forall s s' trace, (pointerRegistry sink).Reachable s ->
      (pointerRegistry sink).runFrom s trace = some s' ->
      forall name pointer, s.registry.find name = some pointer ->
        s'.registry.find name = some pointer ∧
        exists logger, s'.registry.objects[pointer]? = some logger ∧
          logger.name = name) := by
  constructor
  · intro s hreach
    have hreplies := reachable_repliesHold hreach
    refine ⟨hreplies.agree, fun thread name pointer hmem => ?_⟩
    exact hreplies.named name pointer (hreplies.bound thread name pointer hmem)
  · intro s s' trace hreach hrun name pointer hfind
    have hkeeps : s.registry.Keeps s'.registry :=
      Machine.related_of_runFrom
        (R := fun s s' : PointerShared sink => s.registry.Keeps s'.registry)
        (fun s => PointerRegistry.Keeps.refl _)
        (fun _ _ _ hfirst hsecond name pointer hfind =>
          hsecond name pointer (hfirst name pointer hfind))
        (fun _ _ _ hstep => (step_progress hstep).keeps) hrun
    have hfind' := hkeeps name pointer hfind
    have hnamed :=
      (reachable_repliesHold (Machine.reachable_of_runFrom hreach hrun)).named
    exact ⟨hfind', hnamed name pointer hfind'⟩

/-- Two threads miss one name, and a third one gets the logger at last. -/
def racingCreation : List (PointerAction Nat) :=
  [ PointerAction.member
      (Action.getOrCreate 0 (ascii "app") LogLevel.debug),
    PointerAction.member
      (Action.getOrCreate 1 (ascii "app") LogLevel.error),
    PointerAction.member (Action.create 1),
    PointerAction.member (Action.create 0),
    PointerAction.get 2 (ascii "app") ]

theorem racing_creation_agrees :
    exists s s', (pointerRegistry Nat).run (racingCreation.take 3) = some s ∧
      (pointerRegistry Nat).runFrom s (racingCreation.drop 3) = some s' ∧
      s'.replies =
        [ Reply.getOrCreate 1 (ascii "app") 0,
          Reply.getOrCreate 0 (ascii "app") 0,
          Reply.get 2 (ascii "app") (some 0) ] ∧
      s'.replies.Pairwise Reply.Agrees ∧
      s'.registry.find (ascii "app") = some 0 := by
  have hrun : (pointerRegistry Nat).run (racingCreation.take 3) =
      some (((pointerRegistry Nat).run (racingCreation.take 3)).get rfl) := rfl
  have hreach := Machine.reachable_of_run hrun
  have hrest : (pointerRegistry Nat).runFrom
      (((pointerRegistry Nat).run (racingCreation.take 3)).get rfl)
      (racingCreation.drop 3) =
        some (((pointerRegistry Nat).runFrom
          (((pointerRegistry Nat).run (racingCreation.take 3)).get rfl)
          (racingCreation.drop 3)).get rfl) := rfl
  exact ⟨_, _, hrun, hrest, rfl,
    ((one_logger_per_name Nat).1 _
      (Machine.reachable_of_runFrom hreach hrest)).1,
    ((one_logger_per_name Nat).2 _ _ _ hreach hrest (ascii "app") 0 rfl).1⟩

/-!
## The registry by names

Forgetting the pointers leaves the registry that holds its loggers by name: each
section does there what it does here.
-/

namespace PointerRegistry

def lookup (registry : PointerRegistry sink) (name : Bytes) :
    Option (Logger sink) :=
  (registry.find name).bind fun pointer => registry.objects[pointer]?

theorem Named.lookup_create {registry : PointerRegistry sink}
    (h : registry.Named) (name : Bytes) (runtimeMin : LogLevel)
    (other : Bytes) :
    (registry.create name runtimeMin).1.lookup other =
      (registry.lookup other).or
        (if name = other then some (registry.makeLogger name runtimeMin)
          else none) := by
  unfold PointerRegistry.create
  split
  · rename_i pointer hfind
    rcases h name pointer hfind with ⟨logger, hlogger, _⟩
    by_cases hsame : name = other
    · subst hsame
      rw [lookup, hfind, Option.bind_some, hlogger, Option.some_or]
    · rw [if_neg hsame, Option.or_none]
  · rename_i hnone
    rw [lookup, find_emplace, lookup]
    show Option.bind _ (fun pointer => (registry.objects ++
      [registry.makeLogger name runtimeMin])[pointer]?) = _
    cases hold : registry.find other with
    | some pointer =>
        rcases h other pointer hold with ⟨logger, hlogger, _⟩
        rw [Option.some_or, Option.bind_some, Option.bind_some, hlogger,
          Option.some_or, List.getElem?_append_left
            (List.getElem?_eq_some_iff.mp hlogger).1, hlogger]
    | none =>
        rw [Option.none_or, Option.bind_none, Option.none_or]
        split
        · rw [Option.bind_some, List.getElem?_append_right (Nat.le_refl _),
            Nat.sub_self]
          rfl
        · rfl

theorem Named.lookup_configure {registry : PointerRegistry sink}
    (h : registry.Named) (call : SettingsCall sink) (name : Bytes) :
    (registry.configure call).lookup name =
      (registry.lookup name).map
        ((registry.toSettings.apply call).reconfigure name) := by
  have hfind : (registry.configure call).find name = registry.find name := rfl
  rw [lookup, hfind, lookup]
  cases hpointer : registry.find name with
  | none => rfl
  | some pointer =>
      rw [Option.bind_some, Option.bind_some, h.configure_object call hpointer]

theorem Named.lookup_storeTo {registry : PointerRegistry sink}
    (h : registry.Named) {name : Bytes} {pointer : LoggerPtr}
    (hname : registry.find name = some pointer)
    (change : Logger sink -> Logger sink) (other : Bytes) :
    (registry.storeTo pointer change).lookup other =
      (registry.lookup other).map fun logger =>
        if logger.name = name then change logger else logger := by
  have hfind : (registry.storeTo pointer change).find other =
      registry.find other := rfl
  rw [lookup, hfind, lookup]
  show Option.bind _ (fun pointer' =>
    (registry.objects.modify pointer change)[pointer']?) = _
  cases hpointer : registry.find other with
  | none => rfl
  | some pointer' =>
      rcases h other pointer' hpointer with ⟨logger, hlogger, rfl⟩
      rw [Option.bind_some, Option.bind_some, List.getElem?_modify, hlogger,
        Option.map_some]
      by_cases hsame : pointer = pointer'
      · subst hsame
        have hnames := h.pointer_inj hpointer hname
        simp [hnames]
      · have hnames : logger.name ≠ name := by
          intro heq
          rw [heq, hname] at hpointer
          exact hsame (Option.some.inj hpointer)
        simp [hsame, hnames]

end PointerRegistry

theorem LoggerRegistry.find_create (registry : LoggerRegistry sink)
    (name : Bytes) (runtimeMin : LogLevel) (other : Bytes) :
    (registry.create name runtimeMin).find other =
      (registry.find other).or
        (if name = other then some (registry.makeLogger name runtimeMin)
          else none) := by
  unfold create
  split
  · rename_i hmem
    by_cases hsame : name = other
    · subst hsame
      rcases List.mem_map.mp hmem with ⟨logger, hlogger, hname⟩
      have hfound : (registry.find name).isSome := by
        rw [find, List.find?_isSome]
        exact ⟨logger, hlogger, by simpa using hname⟩
      rcases Option.isSome_iff_exists.mp hfound with ⟨found, hfind⟩
      rw [hfind, Option.some_or]
    · rw [if_neg hsame, Option.or_none]
  · show List.find? _ (registry.loggers ++
      [registry.makeLogger name runtimeMin]) = _
    rw [List.find?_append, List.find?_singleton]
    congr 1
    by_cases hsame : name = other <;> simp [Settings.makeLogger, hsame]

theorem LoggerRegistry.find_configure_eq (registry : LoggerRegistry sink)
    (call : SettingsCall sink) (name : Bytes) :
    (registry.configure call).find name =
      (registry.find name).map
        ((registry.toSettings.apply call).reconfigure name) := by
  have happly : forall changed : LoggerRegistry sink,
      changed.loggers = registry.loggers ->
      changed.applyConfigUpdatesLocked.find name =
        (registry.find name).map (changed.reconfigure name) := by
    intro changed hloggers
    have hsame : changed.find name = registry.find name := by
      rw [find, hloggers, find]
    have hupdated : changed.applyConfigUpdatesLocked.find name =
        (changed.find name).map _ := find_updateLoggers changed _ _ name
    rw [hupdated, hsame]
    cases hfind : registry.find name with
    | none => rfl
    | some logger =>
        rw [Option.map_some, Option.map_some, (mem_of_find hfind).2]
        rfl
  cases call with
  | upsertRule rule =>
      simp only [configure, upsertRule, Settings.apply]
      split
      · rename_i rules hreplace
        rw [hreplace, Option.getD_some]
        exact happly _ rfl
      · rename_i hreplace
        rw [hreplace, Option.getD_none]
        exact happly _ rfl
  | _ => exact happly _ rfl

def PointerPhase.Shows (registry : PointerRegistry sink) :
    PointerPhase sink -> Phase sink -> Prop
  | idle, Phase.idle => True
  | creating name runtimeMin, Phase.creating name' runtimeMin' =>
      name = name' ∧ runtimeMin = runtimeMin'
  | settingRuntimeMin pointer runtimeMin,
      Phase.settingRuntimeMin name runtimeMin' =>
      registry.find name = some pointer ∧ runtimeMin = runtimeMin'
  | settingSinks pointer sinks, Phase.settingSinks name sinks' =>
      registry.find name = some pointer ∧ sinks = sinks'
  | _, _ => False

/-- The registry by names holds the same loggers and the same threads. -/
structure Views (s : PointerShared sink) (t : SharedRegistry sink) : Prop where
  settings : t.registry.toSettings = s.registry.toSettings
  find : forall name, t.registry.find name = s.registry.lookup name
  phases : forall thread,
    (s.phases thread).Shows s.registry (t.phases thread)

namespace Views

variable {s : PointerShared sink} {t : SharedRegistry sink}

theorem setPhase (h : Views s t) (thread : Nat) {phase : PointerPhase sink}
    {phase' : Phase sink} (hphase : phase.Shows s.registry phase') :
    Views (s.setPhase thread phase) (t.setPhase thread phase') where
  settings := h.settings
  find := h.find
  phases := fun other => by
    by_cases hother : other = thread
    · subst hother
      simpa [PointerShared.setPhase, SharedRegistry.setPhase] using hphase
    · simpa [PointerShared.setPhase, SharedRegistry.setPhase, hother] using
        h.phases other

theorem setIdle (h : Views s t) (thread : Nat) :
    Views (s.setPhase thread PointerPhase.idle)
      (t.setPhase thread Phase.idle) :=
  h.setPhase thread trivial

theorem reply (h : Views s t) (reply : Reply) : Views (s.reply reply) t :=
  ⟨h.settings, h.find, h.phases⟩

theorem setRegistry (h : Views s t) {registry : PointerRegistry sink}
    {registry' : LoggerRegistry sink}
    (hsettings : registry'.toSettings = registry.toSettings)
    (hfind : forall name, registry'.find name = registry.lookup name)
    (hkeeps : s.registry.Keeps registry) :
    Views (s.setRegistry registry) (t.setRegistry registry') where
  settings := hsettings
  find := hfind
  phases := fun thread => by
    have hphase := h.phases thread
    show (s.phases thread).Shows registry (t.phases thread)
    revert hphase
    cases s.phases thread <;> cases t.phases thread <;>
      simp only [PointerPhase.Shows] <;> try exact id
    · exact fun hcase => ⟨hkeeps _ _ hcase.1, hcase.2⟩
    · exact fun hcase => ⟨hkeeps _ _ hcase.1, hcase.2⟩

theorem find_cases (h : Views s t) (hnamed : s.registry.Named) (name : Bytes) :
    (s.registry.find name = none ∧ t.registry.find name = none) ∨
      exists pointer logger, s.registry.find name = some pointer ∧
        t.registry.find name = some logger := by
  cases hfind : s.registry.find name with
  | none => exact Or.inl ⟨rfl, by rw [h.find, PointerRegistry.lookup, hfind]; rfl⟩
  | some pointer =>
      rcases hnamed name pointer hfind with ⟨logger, hlogger, _⟩
      refine Or.inr ⟨pointer, logger, rfl, ?_⟩
      rw [h.find, PointerRegistry.lookup, hfind, Option.bind_some, hlogger]

theorem fetch (h : Views s t) (hnamed : s.registry.Named) (thread : Nat)
    (name : Bytes) (next : LoggerPtr -> PointerPhase sink)
    (next' : Phase sink)
    (hnext : forall pointer, s.registry.find name = some pointer ->
      (next pointer).Shows s.registry next') :
    exists t',
      (match t.registry.find name with
        | some _ => some (t.setPhase thread next')
        | none => some t) = some t' ∧
      Views (s.fetch thread name next) t' := by
  unfold PointerShared.fetch
  rcases h.find_cases hnamed name with
    ⟨hnone, hnone'⟩ | ⟨pointer, logger, hfind, hfind'⟩
  · rw [hnone, hnone']
    exact ⟨t, rfl, h⟩
  · rw [hfind, hfind']
    exact ⟨_, rfl, h.setPhase thread (hnext pointer hfind)⟩

theorem store (h : Views s t) (hnamed : s.registry.Named) (thread : Nat)
    {name : Bytes} {pointer : LoggerPtr}
    (hfind : s.registry.find name = some pointer)
    (change : Logger sink -> Logger sink)
    (hname : forall logger, (change logger).name = logger.name) :
    Views
      ((s.setRegistry (s.registry.storeTo pointer change)).setPhase thread
        PointerPhase.idle)
      ((t.setRegistry (t.registry.updateLogger name change hname)).setPhase
        thread Phase.idle) := by
  refine (h.setRegistry ?_ ?_ ?_).setIdle thread
  · exact h.settings
  · intro other
    rw [LoggerRegistry.updateLogger, LoggerRegistry.find_updateLoggers,
      h.find, hnamed.lookup_storeTo hfind]
  · exact fun _ _ hkept => hkept

theorem create (h : Views s t) (hnamed : s.registry.Named) (name : Bytes)
    (runtimeMin : LogLevel) :
    Views (s.setRegistry (s.registry.create name runtimeMin).1)
      (t.setRegistry (t.registry.create name runtimeMin)) := by
  refine h.setRegistry ?_ ?_ (s.registry.create_spec name runtimeMin).1
  · rw [LoggerRegistry.create_toSettings, h.settings]
    unfold PointerRegistry.create
    split <;> rfl
  · intro other
    rw [LoggerRegistry.find_create, hnamed.lookup_create, h.find, h.settings]

theorem configure (h : Views s t) (hnamed : s.registry.Named)
    (call : SettingsCall sink) :
    Views (s.setRegistry (s.registry.configure call))
      (t.setRegistry (t.registry.configure call)) := by
  refine h.setRegistry ?_ ?_ fun _ _ hfind => hfind
  · rw [LoggerRegistry.configure_toSettings, h.settings]
    rfl
  · intro other
    rw [LoggerRegistry.find_configure_eq, hnamed.lookup_configure, h.find,
      h.settings]

theorem idle (h : Views s t) {thread : Nat}
    (hidle : s.phases thread = PointerPhase.idle) :
    t.phases thread = Phase.idle := by
  have hphase := h.phases thread
  rw [hidle] at hphase
  cases hthere : t.phases thread with
  | idle => rfl
  | _ =>
      rw [hthere] at hphase
      exact absurd hphase id

theorem creating (h : Views s t) {thread : Nat} {name : Bytes}
    {runtimeMin : LogLevel}
    (hcreating : s.phases thread = PointerPhase.creating name runtimeMin) :
    t.phases thread = Phase.creating name runtimeMin := by
  have hphase := h.phases thread
  rw [hcreating] at hphase
  cases hthere : t.phases thread with
  | creating name' runtimeMin' =>
      rw [hthere] at hphase
      rcases hphase with ⟨rfl, rfl⟩
      rfl
  | _ =>
      rw [hthere] at hphase
      exact absurd hphase id

theorem settingRuntimeMin (h : Views s t) {thread : Nat} {pointer : LoggerPtr}
    {runtimeMin : LogLevel}
    (hsetting : s.phases thread =
      PointerPhase.settingRuntimeMin pointer runtimeMin) :
    exists name, t.phases thread = Phase.settingRuntimeMin name runtimeMin ∧
      s.registry.find name = some pointer := by
  have hphase := h.phases thread
  rw [hsetting] at hphase
  cases hthere : t.phases thread with
  | settingRuntimeMin name runtimeMin' =>
      rw [hthere] at hphase
      rcases hphase with ⟨hfind, rfl⟩
      exact ⟨name, rfl, hfind⟩
  | _ =>
      rw [hthere] at hphase
      exact absurd hphase id

theorem settingSinks (h : Views s t) {thread : Nat} {pointer : LoggerPtr}
    {sinks : List sink}
    (hsetting : s.phases thread = PointerPhase.settingSinks pointer sinks) :
    exists name, t.phases thread = Phase.settingSinks name sinks ∧
      s.registry.find name = some pointer := by
  have hphase := h.phases thread
  rw [hsetting] at hphase
  cases hthere : t.phases thread with
  | settingSinks name sinks' =>
      rw [hthere] at hphase
      rcases hphase with ⟨hfind, rfl⟩
      exact ⟨name, rfl, hfind⟩
  | _ =>
      rw [hthere] at hphase
      exact absurd hphase id

theorem step {s' : PointerShared sink} {a : Action sink} (h : Views s t)
    (hnamed : s.registry.Named)
    (hstep : s.step (PointerAction.member a) = some s') :
    exists t', t.step a = some t' ∧ Views s' t' := by
  cases a with
  | getOrCreate thread name runtimeMin =>
      simp only [PointerShared.step] at hstep
      split at hstep
      · rename_i hidle
        simp only [SharedRegistry.step, h.idle hidle]
        rcases h.find_cases hnamed name with
          ⟨hnone, hnone'⟩ | ⟨pointer, logger, hfind, hfind'⟩
        · rw [hnone] at hstep
          rw [hnone']
          cases hstep
          exact ⟨_, rfl, h.setPhase thread ⟨rfl, rfl⟩⟩
        · rw [hfind] at hstep
          rw [hfind']
          cases hstep
          exact ⟨t, rfl, h.reply _⟩
      · cases hstep
  | create thread =>
      simp only [PointerShared.step] at hstep
      split at hstep
      · rename_i name runtimeMin hcreating
        simp only [SharedRegistry.step, h.creating hcreating]
        cases hstep
        have hcreated := h.create hnamed name runtimeMin
        exact ⟨_, rfl, Views.reply (hcreated.setIdle thread) _⟩
      · cases hstep
  | configure thread call =>
      simp only [PointerShared.step] at hstep
      split at hstep
      · rename_i hidle
        simp only [SharedRegistry.step, h.idle hidle]
        cases hstep
        exact ⟨_, rfl, h.configure hnamed call⟩
      · cases hstep
  | setLoggerRuntimeMin thread name runtimeMin =>
      simp only [PointerShared.step] at hstep
      split at hstep
      · rename_i hidle
        simp only [SharedRegistry.step, h.idle hidle]
        cases hstep
        exact h.fetch hnamed thread name _ _ fun pointer hfind => ⟨hfind, rfl⟩
      · cases hstep
  | replaceLoggerSinks thread name sinks =>
      simp only [PointerShared.step] at hstep
      split at hstep
      · rename_i hidle
        simp only [SharedRegistry.step, h.idle hidle]
        cases hstep
        exact h.fetch hnamed thread name _ _ fun pointer hfind => ⟨hfind, rfl⟩
      · cases hstep
  | store thread =>
      simp only [PointerShared.step] at hstep
      split at hstep
      · rename_i pointer runtimeMin hsetting
        rcases h.settingRuntimeMin hsetting with ⟨name, hthere, hfind⟩
        simp only [SharedRegistry.step, hthere]
        cases hstep
        exact ⟨_, rfl, h.store hnamed thread hfind
          (fun logger => logger.setRuntimeMin runtimeMin) fun _ => rfl⟩
      · rename_i pointer sinks hsetting
        rcases h.settingSinks hsetting with ⟨name, hthere, hfind⟩
        simp only [SharedRegistry.step, hthere]
        cases hstep
        exact ⟨_, rfl, h.store hnamed thread hfind
          (fun logger => logger.setSinks sinks) fun _ => rfl⟩
      · cases hstep

end Views

theorem pointerRegistry_refines {s : PointerShared sink}
    (h : (pointerRegistry sink).Reachable s) :
    exists t, (sharedRegistry sink).Reachable t ∧ Views s t := by
  refine Machine.invariant
    (P := fun s => exists t, (sharedRegistry sink).Reachable t ∧ Views s t)
    ?_ ?_ h
  · exact ⟨_, Machine.ReachableUnder.init, rfl, fun name => rfl,
      fun thread => trivial⟩
  · rintro s a s' hreach ⟨t, ht, hviews⟩ hstep
    have hnamed := (reachable_repliesHold hreach).named
    cases a with
    | get thread name =>
        simp only [pointerRegistry, PointerShared.step] at hstep
        split at hstep
        · cases hstep
          exact ⟨t, ht, hviews.reply _⟩
        · cases hstep
    | member a =>
        rcases hviews.step hnamed hstep with ⟨t', ht', hviews'⟩
        exact ⟨t', ht.step ht', hviews'⟩

end Registry
end NginLog
