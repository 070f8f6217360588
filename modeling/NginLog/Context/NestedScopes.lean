import NginLog.Context.Restoration

/-!
# Nested scopes

A program pushes scopes, moves the objects that own them, and destroys objects,
but an object that owns a scope only while no later scope is left.  Then every
destructor finds the vector as its scope's push left it, and cuts off just what
that push appended.
-/

namespace NginLog
namespace Context

open Foundation Record

def Nests (s : ThreadContext) : Action -> Prop
  | Action.pushLogContext _ _ => True
  | Action.moveConstruct _ _ => True
  | Action.destroy target =>
      forall object, s.objects target = some object -> object.active = true ->
        s.scopes.getLast?.map Scope.owner = some target
  | _ => False

def StartsFrom : Nat -> List Scope -> Prop
  | _, [] => True
  | start, scope :: rest =>
      scope.start = start ∧ StartsFrom (start + scope.attributes.length) rest

theorem startsFrom_append_singleton {start : Nat} {scopes : List Scope}
    {last : Scope} :
    StartsFrom start (scopes ++ [last]) <->
      StartsFrom start scopes ∧
        last.start = start + (attributesOf scopes).length := by
  induction scopes generalizing start with
  | nil => simp [StartsFrom]
  | cons scope rest ih =>
      simp only [List.cons_append, StartsFrom, ih, attributesOf_cons,
        List.length_append, Nat.add_assoc, and_assoc]

theorem startsFrom_transfer {start : Nat} {scopes : List Scope}
    (target other : Nat) (h : StartsFrom start scopes) :
    StartsFrom start (transfer target other scopes) := by
  induction scopes generalizing start with
  | nil => exact h
  | cons scope rest ih =>
      rcases h with ⟨hstart, hrest⟩
      have hscope : forall moved : Scope,
          moved.start = scope.start -> moved.attributes = scope.attributes ->
            StartsFrom start (moved :: transfer target other rest) := by
        intro moved hmoved hattributes
        refine ⟨hmoved.trans hstart, ?_⟩
        rw [hattributes]
        exact ih hrest
      have hcons : transfer target other (scope :: rest) =
          (if scope.owner = other then { scope with owner := target }
            else scope) :: transfer target other rest := rfl
      rw [hcons]
      split
      · exact hscope _ rfl rfl
      · exact hscope _ rfl rfl

/-- The context holds the scopes not yet released, each at its start. -/
structure Nested (initial : List ContextAttribute) (s : ThreadContext) :
    Prop where
  linked : Linked s.scopes s.objects
  starts : StartsFrom initial.length s.scopes
  storage : s.storage = initial ++ attributesOf s.scopes
  owns : forall target object, s.objects target = some object ->
    object.active = true ->
      exists scope, scope ∈ s.scopes ∧ scope.owner = target

theorem nested_init (initial : List ContextAttribute) :
    Nested initial (threadContext initial).init where
  linked := (constructed_init initial).linked
  starts := trivial
  storage := (constructed_init initial).storage
  owns := fun target object hobject => by cases hobject

theorem nested_push {initial : List ContextAttribute} {s s' : ThreadContext}
    {target : Nat} {attributes : List ContextAttribute}
    (hs : Nested initial s)
    (h : s.step (Action.pushLogContext target attributes) = some s') :
    Nested initial s' := by
  have hlinked := hs.linked.step h
  rcases pushLogContext_some h with ⟨_, rfl⟩
  refine ⟨hlinked, ?_, by simp [hs.storage], ?_⟩
  · refine startsFrom_append_singleton.mpr ⟨hs.starts, ?_⟩
    rw [hs.storage, List.length_append]
  · intro other object hobject hactive
    by_cases hother : other = target
    · exact ⟨_, List.mem_append_right _ List.mem_cons_self, hother.symm⟩
    · simp only [Function.update_of_ne hother] at hobject
      rcases hs.owns other object hobject hactive with
        ⟨scope, hscope, howner⟩
      exact ⟨scope, List.mem_append_left _ hscope, howner⟩

theorem nested_move {initial : List ContextAttribute} {s s' : ThreadContext}
    {target other : Nat} (hs : Nested initial s)
    (h : s.step (Action.moveConstruct target other) = some s') :
    Nested initial s' := by
  have hlinked := hs.linked.step h
  rcases moveConstruct_some h with ⟨source, _, hsource, rfl⟩
  refine ⟨hlinked, startsFrom_transfer target other hs.starts,
    by simpa using hs.storage, ?_⟩
  intro name object hobject hactive
  rcases active_of_move hobject hactive with
    ⟨rfl, rfl⟩ | ⟨_, hother, hsame⟩
  · -- The new object owns what `other` has owned.
    rcases hs.owns other object hsource hactive with ⟨scope, hscope, howner⟩
    exact ⟨_, List.mem_map_of_mem hscope, by rw [if_pos howner]⟩
  · rcases hs.owns name object hsame hactive with ⟨scope, hscope, howner⟩
    refine ⟨_, List.mem_map_of_mem hscope, ?_⟩
    rw [if_neg (by rw [howner]; exact hother)]
    exact howner

theorem destroy_inactive {initial : List ContextAttribute}
    {s s' : ThreadContext} {target : Nat} {object : ScopedLogContext}
    (hs : Nested initial s)
    (h : s.step (Action.destroy target) = some s')
    (hobject : s.objects target = some object)
    (hinactive : object.active = false) :
    s' = { s with objects := Function.update s.objects target none } := by
  rcases destroy_some h with ⟨other, hother, rfl⟩
  rw [hobject] at hother
  cases hother
  rw [reset_inactive hinactive, release_eq_self
    (hs.linked.not_owner_of_inactive hobject hinactive)]

theorem destroy_last {initial : List ContextAttribute}
    {s s' : ThreadContext} {scopes : List Scope} {last : Scope}
    (hs : Nested initial s)
    (h : s.step (Action.destroy last.owner) = some s')
    (hscopes : s.scopes = scopes ++ [last]) :
    s' =
      { storage := initial ++ attributesOf scopes
        objects := Function.update s.objects last.owner none
        scopes := scopes } := by
  have hlive := hs.linked.live last
    (by rw [hscopes]; exact List.mem_append_right _ List.mem_cons_self)
  have hstarts := hs.starts
  rw [hscopes, startsFrom_append_singleton] at hstarts
  have hothers : forall scope, scope ∈ scopes -> scope.owner ≠ last.owner := by
    have hdistinct := hs.linked.distinct
    rw [hscopes, List.map_append, List.nodup_append] at hdistinct
    intro scope hscope
    exact hdistinct.2.2 scope.owner (List.mem_map_of_mem hscope) last.owner
      List.mem_cons_self
  have hreleased : release last.owner s.scopes = scopes := by
    rw [hscopes, release_append, release_cons_self,
      release_eq_self hothers]
    exact List.append_nil scopes
  have hstorage : s.storage =
      (initial ++ attributesOf scopes) ++ last.attributes := by
    rw [hs.storage, hscopes, attributesOf_append, List.append_assoc,
      attributesOf_cons, attributesOf_nil, List.append_nil]
  rcases destroy_some h with ⟨object, hobject, rfl⟩
  rw [hlive] at hobject
  cases hobject
  have hlength : (initial ++ attributesOf scopes).length = last.start := by
    rw [List.length_append, hstarts.2]
  have hwithin : last.start ≤
      ((initial ++ attributesOf scopes) ++ last.attributes).length := by
    rw [List.length_append, hlength]
    exact Nat.le_add_right _ _
  rw [reset_active rfl, hreleased, hstorage, resize_eq_take hwithin, ← hlength,
    List.take_left]

theorem owner_of_nests {s : ThreadContext} {target : Nat}
    {object : ScopedLogContext} (ha : Nests s (Action.destroy target))
    (hobject : s.objects target = some object)
    (hactive : object.active = true) :
    exists scopes last, s.scopes = scopes ++ [last] ∧ last.owner = target := by
  have howner := ha object hobject hactive
  rcases List.eq_nil_or_concat s.scopes with hnone | ⟨scopes, last, hscopes⟩
  · rw [hnone] at howner
    cases howner
  · rw [List.concat_eq_append] at hscopes
    rw [hscopes, List.getLast?_concat] at howner
    exact ⟨scopes, last, hscopes, Option.some.inj howner⟩

theorem nested_destroy {initial : List ContextAttribute}
    {s s' : ThreadContext} {target : Nat} (hs : Nested initial s)
    (ha : Nests s (Action.destroy target))
    (h : s.step (Action.destroy target) = some s') :
    Nested initial s' := by
  have hlinked := hs.linked.step h
  rcases destroy_some h with ⟨object, hobject, _⟩
  -- The other objects are as they were.
  have howns : s'.objects = Function.update s.objects target none ->
      forall name other, s'.objects name = some other ->
        other.active = true -> name ≠ target ∧
          exists scope, scope ∈ s.scopes ∧ scope.owner = name := by
    intro hobjects name other hother hactive
    rw [hobjects] at hother
    by_cases hname : name = target
    · subst hname
      simp at hother
    · rw [Function.update_of_ne hname] at hother
      exact ⟨hname, hs.owns name other hother hactive⟩
  cases hactive : object.active with
  | false =>
      have hsame := destroy_inactive hs h hobject hactive
      rw [hsame] at hlinked howns ⊢
      exact ⟨hlinked, hs.starts, hs.storage,
        fun name other hother hactive' =>
          (howns rfl name other hother hactive').2⟩
  | true =>
      rcases owner_of_nests ha hobject hactive with
        ⟨scopes, last, hscopes, rfl⟩
      have hstarts := hs.starts
      rw [hscopes, startsFrom_append_singleton] at hstarts
      have hcut := destroy_last hs h hscopes
      rw [hcut] at hlinked howns ⊢
      refine ⟨hlinked, hstarts.1, rfl, ?_⟩
      intro name other hother hactive'
      rcases howns rfl name other hother hactive' with
        ⟨hname, scope, hscope, howner⟩
      rw [hscopes, List.mem_append, List.mem_singleton] at hscope
      rcases hscope with hold | rfl
      · exact ⟨scope, hold, howner⟩
      · exact absurd howner.symm hname

theorem nested_step {initial : List ContextAttribute} {s s' : ThreadContext}
    {a : Action} (hs : Nested initial s) (ha : Nests s a)
    (h : s.step a = some s') :
    Nested initial s' := by
  cases a with
  | pushLogContext target attributes => exact nested_push hs h
  | moveConstruct target other => exact nested_move hs h
  | destroy target => exact nested_destroy hs ha h
  | _ => cases ha

theorem reachable_nested {initial : List ContextAttribute} {s : ThreadContext}
    (h : (threadContext initial).ReachableUnder Nests s) :
    Nested initial s :=
  Machine.invariantUnder (nested_init initial)
    (fun _ _ _ _ hs ha hstep => nested_step hs ha hstep) h

/--
What the steps do to the scopes and the context: a push appends a scope with its
attributes, a move gives a scope another owner, and a release takes the last one
off.
-/
structure StepsScopes (initial : List ContextAttribute) (s : ThreadContext) :
    Prop where
  push : forall target attributes s',
    s.step (Action.pushLogContext target attributes) = some s' ->
      s'.scopes = s.scopes ++
        [{ owner := target
           start := s.storage.length
           attributes := attributes }] ∧
      s'.storage = s.storage ++ attributes
  move : forall target other s',
    s.step (Action.moveConstruct target other) = some s' ->
      s'.scopes = transfer target other s.scopes ∧ s'.storage = s.storage
  release : forall target object s',
    s.objects target = some object -> object.active = true ->
      Nests s (Action.destroy target) ->
        s.step (Action.destroy target) = some s' ->
          exists last, last.owner = target ∧
            s.scopes = s'.scopes ++ [last] ∧
            s'.storage = initial ++ attributesOf s'.scopes

theorem Nested.stepsScopes {initial : List ContextAttribute}
    {s : ThreadContext} (hs : Nested initial s) :
    StepsScopes initial s where
  push := by
    intro target attributes s' h
    rcases pushLogContext_some h with ⟨_, rfl⟩
    exact ⟨rfl, rfl⟩
  move := by
    intro target other s' h
    rcases moveConstruct_some h with ⟨_, _, _, rfl⟩
    exact ⟨rfl, rfl⟩
  release := by
    intro target object s' hobject hactive ha h
    rcases owner_of_nests ha hobject hactive with
      ⟨scopes, last, hscopes, rfl⟩
    rw [destroy_last hs h hscopes]
    exact ⟨last, rfl, hscopes, rfl⟩

/--
At every point of a nested program the context holds the attributes of the
scopes not yet released, which are those that an active object owns.  An object
that was moved from is destroyed without a trace, and when no active object is
left the context is as before the first push.
-/
theorem nested_scopes_restore (initial : List ContextAttribute)
    {s : ThreadContext}
    (h : (threadContext initial).ReachableUnder Nests s) :
    s.storage = initial ++ attributesOf s.scopes ∧
      StepsScopes initial s ∧
      (forall target object, s.objects target = some object ->
        (object.active = true <->
          exists scope, scope ∈ s.scopes ∧ scope.owner = target)) ∧
      (forall target object s', s.objects target = some object ->
        object.active = false -> s.step (Action.destroy target) = some s' ->
          s' = { s with objects := Function.update s.objects target none }) ∧
      (AllInactive s -> s.storage = initial) := by
  have hs := reachable_nested h
  refine ⟨hs.storage, hs.stepsScopes, ?_, ?_, ?_⟩
  · intro target object hobject
    refine ⟨hs.owns target object hobject, ?_⟩
    rintro ⟨scope, hscope, rfl⟩
    rw [hs.linked.live scope hscope] at hobject
    cases hobject
    rfl
  · intro target object s' hobject hinactive hstep
    exact destroy_inactive hs hstep hobject hinactive
  · intro hinactive
    rw [hs.storage, scopes_eq_nil_of_allInactive hs.linked hinactive,
      attributesOf_nil, List.append_nil]

theorem chain_of_moves_restores :
    exists s, (threadContext [{ key := ascii "z" }]).run
        [ Action.pushLogContext 0 [{ key := ascii "a" }],
          Action.moveConstruct 1 0,
          Action.moveConstruct 2 1,
          Action.destroy 0,
          Action.destroy 2 ] = some s ∧
      s.storage = [{ key := ascii "z" }] ++ attributesOf s.scopes := by
  refine ⟨_, rfl, (nested_scopes_restore [{ key := ascii "z" }] ?_).1⟩
  have hmoved : (threadContext [{ key := ascii "z" }]).ReachableUnder Nests _ :=
    .step (.step (.step .init (a := Action.pushLogContext 0
      [{ key := ascii "a" }]) trivial rfl) (a := Action.moveConstruct 1 0)
        trivial rfl) (a := Action.moveConstruct 2 1) trivial rfl
  have hgone : (threadContext [{ key := ascii "z" }]).ReachableUnder Nests _ :=
    .step hmoved (a := Action.destroy 0)
      (by rintro object ⟨⟩ hactive; cases hactive) rfl
  exact .step hgone (a := Action.destroy 2) (fun _ _ _ => rfl) rfl

end Context
end NginLog
