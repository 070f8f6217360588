import Mathlib.Data.List.Nodup
import NginLog.Foundation.Transition
import NginLog.Record.Types

/-!
# The thread's log context and the objects that scope it

`PushLogContext` appends attributes to a thread-local vector and returns an
object that remembers where they start.  The object can be moved; its destructor
resizes the vector back to the start.  The state holds the vector, the live
objects by name, and the auxiliary list of the pushed scopes that some object
still owns, in push order.
-/

namespace NginLog
namespace Context

open Foundation Record

/-- `std::vector::resize`: cut off the end, or append default attributes. -/
def resize (storage : List ContextAttribute) (size : Nat) :
    List ContextAttribute :=
  storage.take size ++ List.replicate (size - storage.length) default

structure ScopedLogContext where
  start : Nat := 0
  active : Bool := true
deriving DecidableEq

def ScopedLogContext.reset (object : ScopedLogContext)
    (storage : List ContextAttribute) :
    ScopedLogContext × List ContextAttribute :=
  if object.active then
    ({ object with active := false }, resize storage object.start)
  else
    (object, storage)

structure Scope where
  owner : Nat
  start : Nat
  attributes : List ContextAttribute

structure ThreadContext where
  storage : List ContextAttribute
  objects : Nat -> Option ScopedLogContext := fun _ => none
  /-- The owned scopes in push order; no step reads them. -/
  scopes : List Scope := []

/-- What a thread does with its scope objects, which are named by numbers. -/
inductive Action where
  /-- `auto target = PushLogContext(attributes)`. -/
  | pushLogContext (target : Nat) (attributes : List ContextAttribute)
  /-- `ScopedLogContext target`. -/
  | defaultConstruct (target : Nat)
  /-- `ScopedLogContext target(std::move(other))`. -/
  | moveConstruct (target other : Nat)
  /-- `target = std::move(other)`. -/
  | moveAssign (target other : Nat)
  /-- The destructor of `target`. -/
  | destroy (target : Nat)
deriving DecidableEq

def release (object : Nat) (scopes : List Scope) : List Scope :=
  scopes.filter fun scope => scope.owner ≠ object

def transfer (target other : Nat) (scopes : List Scope) : List Scope :=
  scopes.map fun scope =>
    if scope.owner = other then { scope with owner := target } else scope

def ThreadContext.step (s : ThreadContext) : Action -> Option ThreadContext
  | Action.pushLogContext target attributes =>
      match s.objects target with
      | some _ => none
      | none =>
          some
            { storage := s.storage ++ attributes
              objects :=
                Function.update s.objects target
                  (some { start := s.storage.length })
              scopes := s.scopes ++
                [{ owner := target
                   start := s.storage.length
                   attributes := attributes }] }
  | Action.defaultConstruct target =>
      match s.objects target with
      | some _ => none
      | none =>
          some { s with objects := Function.update s.objects target (some {}) }
  | Action.moveConstruct target other =>
      match s.objects target, s.objects other with
      | none, some source =>
          some
            { s with
              objects :=
                Function.update
                  (Function.update s.objects other
                    (some { source with active := false }))
                  target
                  (some { start := source.start, active := source.active })
              scopes := transfer target other s.scopes }
      | _, _ => none
  | Action.moveAssign target other =>
      match s.objects target, s.objects other with
      | some object, some source =>
          if target = other then
            some s
          else
            some
              { storage := (object.reset s.storage).2
                objects :=
                  Function.update
                    (Function.update s.objects other
                      (some { source with active := false }))
                    target
                    (some { start := source.start, active := source.active })
                scopes := transfer target other (release target s.scopes) }
      | _, _ => none
  | Action.destroy target =>
      match s.objects target with
      | some object =>
          some
            { storage := (object.reset s.storage).2
              objects := Function.update s.objects target none
              scopes := release target s.scopes }
      | none => none

/-- A thread whose context holds `initial` and which has no scope objects. -/
def threadContext (initial : List ContextAttribute) :
    Machine ThreadContext Action where
  init := { storage := initial }
  step := ThreadContext.step

/-!
## What a step does

An assignment of an object to itself does nothing.
-/

section

variable {s s' : ThreadContext} {target other : Nat}

theorem pushLogContext_some {attributes : List ContextAttribute}
    (h : s.step (Action.pushLogContext target attributes) = some s') :
    s.objects target = none ∧
      s' =
        { storage := s.storage ++ attributes
          objects :=
            Function.update s.objects target
              (some { start := s.storage.length })
          scopes := s.scopes ++
            [{ owner := target
               start := s.storage.length
               attributes := attributes }] } := by
  simp only [ThreadContext.step] at h
  split at h
  · cases h
  · rename_i hnone
    cases h
    exact ⟨hnone, rfl⟩

theorem defaultConstruct_some
    (h : s.step (Action.defaultConstruct target) = some s') :
    s.objects target = none ∧
      s' = { s with objects := Function.update s.objects target (some {}) } := by
  simp only [ThreadContext.step] at h
  split at h
  · cases h
  · rename_i hnone
    cases h
    exact ⟨hnone, rfl⟩

theorem moveConstruct_some
    (h : s.step (Action.moveConstruct target other) = some s') :
    exists source, s.objects target = none ∧ s.objects other = some source ∧
      s' =
        { s with
          objects :=
            Function.update
              (Function.update s.objects other
                (some { source with active := false }))
              target
              (some { start := source.start, active := source.active })
          scopes := transfer target other s.scopes } := by
  simp only [ThreadContext.step] at h
  split at h
  · rename_i source hnone hsource
    cases h
    exact ⟨source, hnone, hsource, rfl⟩
  · cases h

theorem moveAssign_some
    (h : s.step (Action.moveAssign target other) = some s') :
    exists object source, s.objects target = some object ∧
      s.objects other = some source ∧
      ((target = other ∧ s' = s) ∨
        (target ≠ other ∧
          s' =
            { storage := (object.reset s.storage).2
              objects :=
                Function.update
                  (Function.update s.objects other
                    (some { source with active := false }))
                  target
                  (some { start := source.start, active := source.active })
              scopes := transfer target other (release target s.scopes) })) := by
  simp only [ThreadContext.step] at h
  split at h
  · rename_i object source hobject hsource
    refine ⟨object, source, hobject, hsource, ?_⟩
    split at h
    · rename_i hself
      cases h
      exact Or.inl ⟨hself, rfl⟩
    · rename_i hne
      cases h
      exact Or.inr ⟨hne, rfl⟩
  · cases h

theorem destroy_some (h : s.step (Action.destroy target) = some s') :
    exists object, s.objects target = some object ∧
      s' =
        { storage := (object.reset s.storage).2
          objects := Function.update s.objects target none
          scopes := release target s.scopes } := by
  simp only [ThreadContext.step] at h
  split at h
  · rename_i object hobject
    cases h
    exact ⟨object, hobject, rfl⟩
  · cases h

theorem active_of_move {objects : Nat -> Option ScopedLogContext}
    {source object : ScopedLogContext} {name : Nat}
    (hobject : Function.update
      (Function.update objects other (some { source with active := false }))
      target (some { start := source.start, active := source.active }) name =
        some object)
    (hactive : object.active = true) :
    (name = target ∧ object = source) ∨
      (name ≠ target ∧ name ≠ other ∧ objects name = some object) := by
  by_cases htarget : name = target
  · subst htarget
    rw [Function.update_self] at hobject
    cases hobject
    exact Or.inl ⟨rfl, rfl⟩
  · rw [Function.update_of_ne htarget] at hobject
    by_cases hother : name = other
    · subst hother
      rw [Function.update_self] at hobject
      cases hobject
      cases hactive
    · rw [Function.update_of_ne hother] at hobject
      exact Or.inr ⟨htarget, hother, hobject⟩

end

/-!
## Resizing
-/

@[simp] theorem resize_length (storage : List ContextAttribute) (size : Nat) :
    (resize storage size).length = size := by
  simp only [resize, List.length_append, List.length_take,
    List.length_replicate]
  omega

theorem resize_eq_take {storage : List ContextAttribute} {size : Nat}
    (h : size ≤ storage.length) :
    resize storage size = storage.take size := by
  rw [resize, Nat.sub_eq_zero_of_le h, List.replicate_zero, List.append_nil]

@[simp] theorem resize_self (storage : List ContextAttribute) :
    resize storage storage.length = storage := by
  rw [resize_eq_take (Nat.le_refl _), List.take_length]

@[simp] theorem resize_zero (storage : List ContextAttribute) :
    resize storage 0 = [] := by
  rw [resize_eq_take (Nat.zero_le _), List.take_zero]

theorem reset_active {object : ScopedLogContext}
    (h : object.active = true) (storage : List ContextAttribute) :
    (object.reset storage).2 = resize storage object.start := by
  rw [ScopedLogContext.reset, if_pos h]

theorem reset_inactive {object : ScopedLogContext}
    (h : object.active = false) (storage : List ContextAttribute) :
    (object.reset storage).2 = storage := by
  rw [ScopedLogContext.reset, if_neg (by simp [h])]

/-!
## The owned scopes
-/

/-- The attributes of the scopes, in push order. -/
def attributesOf (scopes : List Scope) : List ContextAttribute :=
  scopes.flatMap Scope.attributes

def owned (object : Nat) (scopes : List Scope) : List ContextAttribute :=
  attributesOf (scopes.filter fun scope => scope.owner = object)

@[simp] theorem attributesOf_nil : attributesOf [] = [] := rfl

@[simp] theorem attributesOf_cons (scope : Scope) (rest : List Scope) :
    attributesOf (scope :: rest) = scope.attributes ++ attributesOf rest := rfl

@[simp] theorem attributesOf_append (first second : List Scope) :
    attributesOf (first ++ second) = attributesOf first ++ attributesOf second :=
  List.flatMap_append

@[simp] theorem attributesOf_transfer (target other : Nat)
    (scopes : List Scope) :
    attributesOf (transfer target other scopes) = attributesOf scopes := by
  induction scopes with
  | nil => rfl
  | cons scope rest ih =>
      simp only [transfer, List.map_cons, attributesOf_cons] at ih ⊢
      rw [ih]
      split <;> rfl

theorem release_length (object : Nat) (scopes : List Scope) :
    (attributesOf (release object scopes)).length +
        (owned object scopes).length =
      (attributesOf scopes).length := by
  induction scopes with
  | nil => rfl
  | cons scope rest ih =>
      simp only [release, owned, ne_eq, decide_not] at ih ⊢
      by_cases howner : scope.owner = object <;>
        simp [howner] <;> omega

theorem owner_ne_of_mem_release {object : Nat} {scopes : List Scope}
    {scope : Scope} (h : scope ∈ release object scopes) :
    scope.owner ≠ object := by
  simpa using (List.mem_filter.mp h).2

theorem release_append (object : Nat) (first second : List Scope) :
    release object (first ++ second) =
      release object first ++ release object second :=
  List.filter_append first second

theorem release_cons_self (scope : Scope) (rest : List Scope) :
    release scope.owner (scope :: rest) = release scope.owner rest := by
  simp [release]

theorem release_eq_self {object : Nat} {scopes : List Scope}
    (h : forall scope, scope ∈ scopes -> scope.owner ≠ object) :
    release object scopes = scopes :=
  List.filter_eq_self.mpr fun scope hscope => by simpa using h scope hscope

/--
Each owned scope has a live, active owner that remembers its start, and no
object owns two.
-/
structure Linked (scopes : List Scope)
    (objects : Nat -> Option ScopedLogContext) : Prop where
  live : forall scope, scope ∈ scopes ->
    objects scope.owner = some { start := scope.start, active := true }
  distinct : (scopes.map Scope.owner).Nodup

namespace Linked

variable {scopes : List Scope} {objects : Nat -> Option ScopedLogContext}

theorem release (h : Linked scopes objects) (object : Nat) :
    Linked (release object scopes) objects where
  live := fun scope hscope => h.live scope (List.mem_of_mem_filter hscope)
  distinct := h.distinct.sublist (List.filter_sublist.map _)

theorem update (h : Linked scopes objects) {target : Nat}
    {object : Option ScopedLogContext}
    (hfree : forall scope, scope ∈ scopes -> scope.owner ≠ target) :
    Linked scopes (Function.update objects target object) where
  live := by
    intro scope hscope
    rw [Function.update_of_ne (hfree scope hscope)]
    exact h.live scope hscope
  distinct := h.distinct

theorem not_owner_of_none (h : Linked scopes objects) {target : Nat}
    (hnone : objects target = none) :
    forall scope, scope ∈ scopes -> scope.owner ≠ target := by
  rintro scope hscope rfl
  rw [h.live scope hscope] at hnone
  cases hnone

theorem not_owner_of_inactive (h : Linked scopes objects) {target : Nat}
    {object : ScopedLogContext} (hobject : objects target = some object)
    (hactive : object.active = false) :
    forall scope, scope ∈ scopes -> scope.owner ≠ target := by
  rintro scope hscope rfl
  rw [h.live scope hscope] at hobject
  cases hobject
  cases hactive

theorem push (h : Linked scopes objects) {target : Nat}
    (hnone : objects target = none) (start : Nat)
    (attributes : List ContextAttribute) :
    Linked
      (scopes ++ [{ owner := target, start := start, attributes := attributes }])
      (Function.update objects target (some { start := start })) where
  live := by
    intro scope hscope
    rw [List.mem_append, List.mem_singleton] at hscope
    rcases hscope with hold | rfl
    · exact (h.update (h.not_owner_of_none hnone)).live scope hold
    · simp
  distinct := by
    rw [List.map_append, List.nodup_append]
    refine ⟨h.distinct, by simp, ?_⟩
    intro owner howner other hother
    rcases List.mem_map.mp howner with ⟨scope, hscope, rfl⟩
    have htarget : other = target := by simpa using hother
    rw [htarget]
    exact h.not_owner_of_none hnone scope hscope

theorem move (h : Linked scopes objects) {target other : Nat}
    {source : ScopedLogContext} (hother : objects other = some source)
    (hfree : forall scope, scope ∈ scopes -> scope.owner ≠ target) :
    Linked (transfer target other scopes)
      (Function.update
        (Function.update objects other (some { source with active := false }))
        target (some { start := source.start, active := source.active })) where
  live := by
    intro scope hscope
    rcases List.mem_map.mp hscope with ⟨old, hold, rfl⟩
    have hlive := h.live old hold
    split
    · rename_i howner
      rw [howner, hother] at hlive
      cases hlive
      simp
    · rename_i howner
      rw [Function.update_of_ne (hfree old hold),
        Function.update_of_ne howner]
      exact hlive
  distinct := by
    have howners : (transfer target other scopes).map Scope.owner =
        (scopes.map Scope.owner).map
          fun owner => if owner = other then target else owner := by
      simp only [transfer, List.map_map]
      apply List.map_congr_left
      intro scope _
      simp only [Function.comp_apply]
      split <;> rfl
    rw [howners]
    refine List.Nodup.map_on ?_ h.distinct
    intro first hfirst second hsecond heq
    rcases List.mem_map.mp hfirst with ⟨scope, hscope, rfl⟩
    rcases List.mem_map.mp hsecond with ⟨scope', hscope', rfl⟩
    have hne := hfree scope hscope
    have hne' := hfree scope' hscope'
    split at heq <;> split at heq <;> simp_all

theorem step {s s' : ThreadContext} {a : Action}
    (h : Linked s.scopes s.objects) (hstep : s.step a = some s') :
    Linked s'.scopes s'.objects := by
  cases a with
  | pushLogContext target attributes =>
      rcases pushLogContext_some hstep with ⟨hnone, rfl⟩
      exact h.push hnone _ _
  | defaultConstruct target =>
      rcases defaultConstruct_some hstep with ⟨hnone, rfl⟩
      exact h.update (h.not_owner_of_none hnone)
  | moveConstruct target other =>
      rcases moveConstruct_some hstep with ⟨source, hnone, hsource, rfl⟩
      exact h.move hsource (h.not_owner_of_none hnone)
  | moveAssign target other =>
      rcases moveAssign_some hstep with
        ⟨object, source, _, hsource, ⟨_, rfl⟩ | ⟨_, rfl⟩⟩
      · exact h
      · exact (h.release target).move hsource
          fun scope hscope => owner_ne_of_mem_release hscope
  | destroy target =>
      rcases destroy_some hstep with ⟨object, _, rfl⟩
      exact (h.release target).update
        fun scope hscope => owner_ne_of_mem_release hscope

end Linked

/-!
## Nested scopes

Scopes are pushed outermost first, each with an object of its own, and the
thread then sees their attributes in that order.
-/

def pushes : Nat -> List (List ContextAttribute) -> List Action
  | _, [] => []
  | target, attributes :: rest =>
      Action.pushLogContext target attributes :: pushes (target + 1) rest

/-- What `GetLogContextView` shows in the scopes, outermost first. -/
def contextView (scopes : List (List ContextAttribute)) :
    List ContextAttribute :=
  scopes.flatten

theorem runFrom_pushes {initial : List ContextAttribute} {s : ThreadContext}
    {target : Nat} (hfree : forall object, target ≤ object ->
      s.objects object = none)
    (scopes : List (List ContextAttribute)) :
    exists s', (threadContext initial).runFrom s (pushes target scopes) =
        some s' ∧
      s'.storage = s.storage ++ contextView scopes := by
  induction scopes generalizing s target with
  | nil => exact ⟨s, rfl, (List.append_nil _).symm⟩
  | cons attributes rest ih =>
      let next : ThreadContext :=
        { storage := s.storage ++ attributes
          objects :=
            Function.update s.objects target
              (some { start := s.storage.length })
          scopes := s.scopes ++
            [{ owner := target
               start := s.storage.length
               attributes := attributes }] }
      have hstep : (threadContext initial).step s
          (Action.pushLogContext target attributes) = some next := by
        simp only [threadContext, ThreadContext.step,
          hfree target (Nat.le_refl _), next]
      have hnext : forall object, target + 1 ≤ object ->
          next.objects object = none := by
        intro object hobject
        simp only [next]
        rw [Function.update_of_ne (by omega)]
        exact hfree object (by omega)
      rcases ih hnext with ⟨s', hrun, hstorage⟩
      refine ⟨s', ?_, ?_⟩
      · rw [pushes, Machine.runFrom_cons, hstep]
        exact hrun
      · rw [hstorage, List.append_assoc]
        rfl

theorem run_pushes (scopes : List (List ContextAttribute)) :
    exists s, (threadContext []).run (pushes 0 scopes) = some s ∧
      s.storage = contextView scopes :=
  runFrom_pushes (fun _ _ => rfl) scopes

end Context
end NginLog
