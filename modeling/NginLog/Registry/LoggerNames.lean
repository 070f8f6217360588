import Mathlib.Data.List.Sort
import NginLog.Registry.Pointers

/-!
# The names of the loggers

`GetLoggerNames` lists the names that are bound, and sorts them.  A name is
bound in the section that replies to `GetOrCreate`, and is never let go, so the
list has the names for which that call has returned, and the order in which the
table holds its bindings cannot be told from it.
-/

namespace NginLog
namespace Registry

open Foundation Record

variable {sink : Type}

namespace PointerRegistry

def names (registry : PointerRegistry sink) : List Bytes :=
  registry.loggers.map Prod.fst

/-- `GetLoggerNames`.  Strings are compared byte by byte. -/
def getLoggerNames (registry : PointerRegistry sink) : List Bytes :=
  registry.names.insertionSort fun name name' => name ≤ name'

theorem perm_getLoggerNames (registry : PointerRegistry sink) :
    registry.getLoggerNames.Perm registry.names :=
  List.perm_insertionSort _ _

theorem mem_getLoggerNames {registry : PointerRegistry sink} {name : Bytes} :
    name ∈ registry.getLoggerNames <-> registry.find name ≠ none := by
  rw [registry.perm_getLoggerNames.mem_iff, ne_eq, find_eq_none_iff,
    Decidable.not_not, names]

theorem pairwise_getLoggerNames (registry : PointerRegistry sink) :
    registry.getLoggerNames.Pairwise fun name name' => name < name' := by
  have hnodup : registry.getLoggerNames.Nodup :=
    registry.perm_getLoggerNames.nodup_iff.mpr registry.distinct
  have hsorted : registry.getLoggerNames.Pairwise
      fun name name' => name ≤ name' :=
    List.pairwise_insertionSort _ _
  exact (hsorted.and hnodup).imp fun ⟨hle, hne⟩ => Std.lt_of_le_of_ne hle hne

theorem create_eq (registry : PointerRegistry sink) (name : Bytes)
    (runtimeMin : LogLevel) :
    (registry.create name runtimeMin).1 = registry ∨
      ((registry.create name runtimeMin).1.names = registry.names ++ [name] ∧
        (registry.create name runtimeMin).1.objects.length =
          registry.objects.length + 1) := by
  unfold create
  split
  · exact Or.inl rfl
  · exact Or.inr ⟨by simp [names, emplace], by simp [emplace]⟩

theorem length_configure (registry : PointerRegistry sink)
    (call : SettingsCall sink) :
    (registry.configure call).objects.length = registry.objects.length := by
  have hfoldl : forall (change : Bytes -> Logger sink -> Logger sink)
      (loggers : List (Bytes × LoggerPtr)) (objects : List (Logger sink)),
      (loggers.foldl (fun objects binding =>
        objects.modify binding.2 (change binding.1)) objects).length =
          objects.length := by
    intro change loggers
    induction loggers with
    | nil => exact fun _ => rfl
    | cons first rest ih =>
        exact fun objects => (ih _).trans (List.length_modify ..)
  exact hfoldl _ _ _

end PointerRegistry

/-!
## What a section does to the names
-/

inductive NamesStep (s s' : PointerShared sink) : Prop where
  | same (names : s'.registry.names = s.registry.names)
      (objects : s'.registry.objects.length = s.registry.objects.length)
  | added (thread : Nat) (name : Bytes) (pointer : LoggerPtr)
      (names : s'.registry.names = s.registry.names ++ [name])
      (objects : s'.registry.objects.length =
        s.registry.objects.length + 1)
      (reply : Reply.getOrCreate thread name pointer ∈ s'.replies)

theorem namesStep_of_step {s s' : PointerShared sink} {a : PointerAction sink}
    (hstep : s.step a = some s') :
    NamesStep s s' := by
  have hfetch : forall thread name (next : LoggerPtr -> PointerPhase sink),
      NamesStep s (s.fetch thread name next) := by
    intro thread name next
    have hsame := (s.fetch_eq thread name next).1
    exact NamesStep.same (by rw [hsame]) (by rw [hsame])
  cases a with
  | get thread name =>
      simp only [PointerShared.step] at hstep
      split at hstep
      · cases hstep
        exact NamesStep.same rfl rfl
      · cases hstep
  | member a =>
      cases a with
      | getOrCreate thread name runtimeMin =>
          simp only [PointerShared.step] at hstep
          split at hstep
          · split at hstep <;> cases hstep <;> exact NamesStep.same rfl rfl
          · cases hstep
      | create thread =>
          simp only [PointerShared.step] at hstep
          split at hstep
          · rename_i name runtimeMin _
            cases hstep
            rcases s.registry.create_eq name runtimeMin with
              hsame | ⟨hnames, hobjects⟩
            · exact NamesStep.same (congrArg PointerRegistry.names hsame)
                (congrArg (fun r => r.objects.length) hsame)
            · exact NamesStep.added thread name _ hnames hobjects
                List.mem_concat_self
          · cases hstep
      | configure thread call =>
          simp only [PointerShared.step] at hstep
          split at hstep
          · cases hstep
            exact NamesStep.same rfl (s.registry.length_configure call)
          · cases hstep
      | setLoggerRuntimeMin thread name runtimeMin =>
          simp only [PointerShared.step] at hstep
          split at hstep
          · cases hstep
            exact hfetch _ _ _
          · cases hstep
      | replaceLoggerSinks thread name sinks =>
          simp only [PointerShared.step] at hstep
          split at hstep
          · cases hstep
            exact hfetch _ _ _
          · cases hstep
      | store thread =>
          simp only [PointerShared.step] at hstep
          split at hstep
          · cases hstep
            exact NamesStep.same rfl (List.length_modify ..)
          · cases hstep
            exact NamesStep.same rfl (List.length_modify ..)
          · cases hstep

structure NamesHold (s : PointerShared sink) : Prop where
  replied : forall name, name ∈ s.registry.names ->
    exists thread pointer, Reply.getOrCreate thread name pointer ∈ s.replies
  objects : s.registry.objects.length = s.registry.names.length

theorem reachable_namesHold {s : PointerShared sink}
    (h : (pointerRegistry sink).Reachable s) :
    NamesHold s := by
  refine Machine.invariant ⟨nofun, rfl⟩ ?_ h
  intro s a s' _ hs hstep
  have hold : forall name, name ∈ s.registry.names ->
      exists thread pointer,
        Reply.getOrCreate thread name pointer ∈ s'.replies := by
    intro name hname
    rcases hs.replied name hname with ⟨thread, pointer, hreply⟩
    refine ⟨thread, pointer, ?_⟩
    rcases (step_progress hstep).replies with hsame | ⟨reply, hreplies, _⟩
    · exact hsame ▸ hreply
    · rw [hreplies]
      exact List.mem_append_left _ hreply
  cases namesStep_of_step hstep with
  | same hnames hobjects =>
      refine ⟨?_, ?_⟩
      · rw [hnames]
        exact hold
      · rw [hnames, hobjects, hs.objects]
  | added thread name pointer hnames hobjects hreply =>
      refine ⟨?_, ?_⟩
      · rw [hnames]
        intro other hother
        rcases List.mem_append.mp hother with hother | hother
        · exact hold other hother
        · rw [List.mem_singleton.mp hother]
          exact ⟨thread, pointer, hreply⟩
      · rw [hnames, hobjects, List.length_append, hs.objects,
          List.length_singleton]

theorem names_prefix_of_step {s s' : PointerShared sink}
    {a : PointerAction sink} (hstep : s.step a = some s') :
    s.registry.names <+: s'.registry.names := by
  cases namesStep_of_step hstep with
  | same hnames _ => exact hnames ▸ List.prefix_rfl
  | added thread name pointer hnames _ _ =>
      exact hnames ▸ List.prefix_append _ _

/-!
## The list
-/

end Registry
end NginLog
