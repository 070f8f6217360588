import NginLog.Context.Scopes

/-!
# When destruction restores the context

Scope objects are constructed, moved into new objects, and at last all
destroyed, in any order.  Each destructor resizes the vector to the object's
start.  The context ends as it began exactly when objects without a scope go
while it is empty and the last active object to go starts where it began.
-/

namespace NginLog
namespace Context

open Foundation Record

/-- The construction of an object: pushing, by default, or by moving. -/
def Constructs : Action -> Prop
  | Action.pushLogContext _ _ => True
  | Action.defaultConstruct _ => True
  | Action.moveConstruct _ _ => True
  | _ => False

def OwnsNothing (scopes : List Scope) (target : Nat) : Prop :=
  forall scope, scope ∈ scopes -> scope.owner ≠ target

def DestroysOnlyOwn (s : ThreadContext) (a : Action) (s' : ThreadContext) :
    Prop :=
  forall target, a = Action.destroy target -> OwnsNothing s.scopes target ->
    s'.storage = s.storage

/--
An active object that owns nothing is destroyed while the context is empty, and
the last active object starts at `size`.
-/
def RestoresAt (size : Nat) (s : ThreadContext) (a : Action)
    (_ : ThreadContext) : Prop :=
  forall target object, a = Action.destroy target ->
    s.objects target = some object -> object.active = true ->
    (OwnsNothing s.scopes target -> s.storage = []) ∧
      ((forall other object', other ≠ target -> s.objects other = some object' ->
        object'.active = false) -> object.start = size)

/-!
## After the constructions
-/

structure Ownership (initial : List ContextAttribute) (s : ThreadContext) :
    Prop where
  linked : Linked s.scopes s.objects
  starts : forall scope, scope ∈ s.scopes -> initial.length ≤ scope.start
  unowned : forall target object, s.objects target = some object ->
    object.active = true -> OwnsNothing s.scopes target -> object.start = 0

structure Constructed (initial : List ContextAttribute) (s : ThreadContext) :
    Prop extends Ownership initial s where
  storage : s.storage = initial ++ attributesOf s.scopes

theorem constructed_init (initial : List ContextAttribute) :
    Constructed initial (threadContext initial).init where
  linked := ⟨fun scope hscope => (by cases hscope), List.nodup_nil⟩
  storage := (List.append_nil initial).symm
  starts := fun scope hscope => by cases hscope
  unowned := fun target object hobject => by cases hobject

theorem constructed_step {initial : List ContextAttribute}
    {s s' : ThreadContext} {a : Action} (hs : Constructed initial s)
    (ha : Constructs a) (h : s.step a = some s') :
    Constructed initial s' := by
  have hlinked := hs.linked.step h
  cases a with
  | pushLogContext target attributes =>
      rcases pushLogContext_some h with ⟨_, rfl⟩
      refine ⟨⟨hlinked, ?_, ?_⟩, by simp [hs.storage]⟩
      · intro scope hscope
        rw [List.mem_append, List.mem_singleton] at hscope
        rcases hscope with hold | rfl
        · exact hs.starts scope hold
        · simp [hs.storage]
      · intro other object hobject hactive hnothing
        have hne : other ≠ target := by
          rintro rfl
          exact hnothing _ (List.mem_append_right _ List.mem_cons_self) rfl
        simp only [Function.update_of_ne hne] at hobject
        exact hs.unowned other object hobject hactive fun scope hscope =>
          hnothing scope (List.mem_append_left _ hscope)
  | defaultConstruct target =>
      rcases defaultConstruct_some h with ⟨_, rfl⟩
      refine ⟨⟨hlinked, hs.starts, ?_⟩, hs.storage⟩
      intro other object hobject hactive hnothing
      by_cases hne : other = target
      · subst hne
        simp only [Function.update_self] at hobject
        cases hobject
        rfl
      · simp only [Function.update_of_ne hne] at hobject
        exact hs.unowned other object hobject hactive hnothing
  | moveConstruct target other =>
      rcases moveConstruct_some h with ⟨source, _, hsource, rfl⟩
      refine ⟨⟨hlinked, ?_, ?_⟩, by simpa using hs.storage⟩
      · intro scope hscope
        rcases List.mem_map.mp hscope with ⟨old, hold, rfl⟩
        have hstart := hs.starts old hold
        split <;> exact hstart
      · intro name object hobject hactive hnothing
        have hbefore : forall old, (old = other -> name = target) ->
            (old ≠ other -> old = name) -> OwnsNothing s.scopes old := by
          rintro old hmoved hkept scope hscope rfl
          refine hnothing _ (List.mem_map_of_mem hscope) ?_
          split
          · rename_i howner
            exact (hmoved howner).symm
          · rename_i howner
            exact hkept howner
        rcases active_of_move hobject hactive with
          ⟨htarget, rfl⟩ | ⟨_, hother, hsame⟩
        · exact hs.unowned other object hsource hactive
            (hbefore other (fun _ => htarget) fun hne => absurd rfl hne)
        · exact hs.unowned name object hsame hactive
            (hbefore name (fun heq => absurd heq hother) fun _ => rfl)
  | _ => cases ha

theorem constructed_run {initial : List ContextAttribute}
    {constructions : List Action} {s s' : ThreadContext}
    (hs : Constructed initial s)
    (hconstructs : forall a, a ∈ constructions -> Constructs a)
    (hrun : (threadContext initial).runFrom s constructions = some s') :
    Constructed initial s' := by
  induction constructions generalizing s with
  | nil =>
      cases hrun
      exact hs
  | cons a rest ih =>
      rw [Machine.runFrom_cons] at hrun
      rcases Option.bind_eq_some_iff.mp hrun with ⟨mid, hstep, hrest⟩
      have hmid := constructed_step hs (hconstructs a List.mem_cons_self) hstep
      exact ih hmid (fun a' ha' => hconstructs a' (List.mem_cons_of_mem a ha'))
        hrest

/-!
## During the destructions
-/

theorem ownership_destroy {initial : List ContextAttribute}
    {s s' : ThreadContext} {target : Nat} (hs : Ownership initial s)
    (h : s.step (Action.destroy target) = some s') :
    Ownership initial s' := by
  have hlinked := hs.linked.step h
  rcases destroy_some h with ⟨object, hobject, rfl⟩
  refine ⟨hlinked, fun scope hscope => ?_, ?_⟩
  · exact hs.starts scope (List.mem_of_mem_filter hscope)
  · intro name other hother hactive hnothing
    have hne : name ≠ target := by
      rintro rfl
      simp at hother
    simp only [Function.update_of_ne hne] at hother
    refine hs.unowned name other hother hactive fun scope hscope howner => ?_
    refine hnothing scope (List.mem_filter.mpr ⟨hscope, ?_⟩) howner
    simp [howner, hne]

def AllInactive (s : ThreadContext) : Prop :=
  forall name object, s.objects name = some object -> object.active = false

theorem allInactive_destroy {s s' : ThreadContext} {target : Nat}
    (h : s.step (Action.destroy target) = some s')
    (hothers : forall name object, name ≠ target ->
      s.objects name = some object -> object.active = false) :
    AllInactive s' := by
  rcases destroy_some h with ⟨object, hobject, rfl⟩
  intro name other hother
  have hne : name ≠ target := by
    rintro rfl
    simp at hother
  simp only [Function.update_of_ne hne] at hother
  exact hothers name other hne hother

theorem scopes_eq_nil_of_allInactive {s : ThreadContext}
    (h : Linked s.scopes s.objects) (hinactive : AllInactive s) :
    s.scopes = [] := by
  rw [List.eq_nil_iff_forall_not_mem]
  intro scope hscope
  cases hinactive _ _ (h.live scope hscope)

theorem allInactive_run {initial : List ContextAttribute} {order : List Nat}
    {s final : ThreadContext} (hs : AllInactive s)
    (hrun : (threadContext initial).runFrom s (order.map Action.destroy) =
      some final) :
    final.storage = s.storage := by
  induction order generalizing s with
  | nil =>
      cases hrun
      rfl
  | cons target rest ih =>
      rw [List.map_cons, Machine.runFrom_cons] at hrun
      rcases Option.bind_eq_some_iff.mp hrun with ⟨mid, hstep, hrest⟩
      have hmid := allInactive_destroy hstep fun name object _ => hs name object
      rw [ih hmid hrest]
      rcases destroy_some hstep with ⟨object, hobject, rfl⟩
      exact reset_inactive (hs target object hobject) s.storage

/-!
## A restored context was restored in order
-/

theorem restoresAt_of_restored {initial : List ContextAttribute}
    {order : List Nat} {s final : ThreadContext} (hs : Ownership initial s)
    (hrun : (threadContext initial).runFrom s (order.map Action.destroy) =
      some final)
    (hfinal : final.storage = initial)
    (hown : (threadContext initial).EachStep DestroysOnlyOwn s
      (order.map Action.destroy)) :
    (threadContext initial).EachStep (RestoresAt initial.length) s
      (order.map Action.destroy) := by
  induction order generalizing s with
  | nil => trivial
  | cons target rest ih =>
      intro s' hstep
      rw [List.map_cons, Machine.runFrom_cons, hstep] at hrun
      rcases hown s' hstep with ⟨honly, hrest⟩
      refine ⟨?_, ih (ownership_destroy hs hstep) hrun hrest⟩
      rintro name object ⟨⟩ hobject hactive
      have hstorage : s'.storage = resize s.storage object.start := by
        rcases destroy_some hstep with ⟨other, hother, rfl⟩
        rw [hobject] at hother
        cases hother
        exact reset_active hactive s.storage
      constructor
      · intro hnothing
        rw [← honly target rfl hnothing, hstorage,
          hs.unowned target object hobject hactive hnothing, resize_zero]
      · intro hothers
        -- Nothing changes the context after the last active object.
        have hlast := allInactive_run (allInactive_destroy hstep hothers) hrun
        rw [hfinal, hstorage] at hlast
        rw [hlast, resize_length]

/-!
## Destruction in order restores the context
-/

theorem prefix_resize {initial storage : List ContextAttribute} {size : Nat}
    (h : initial <+: storage) (hsize : initial.length ≤ size) :
    initial <+: resize storage size := by
  rcases h with ⟨rest, rfl⟩
  unfold resize
  rw [List.take_append, List.take_of_length_le hsize, List.append_assoc]
  exact List.prefix_append _ _

/-- The initial context is untouched, and alone once nothing is active. -/
structure Ending (initial : List ContextAttribute) (s : ThreadContext) : Prop
    extends Ownership initial s where
  untouched : initial <+: s.storage
  alone : AllInactive s -> s.storage = initial

theorem ending_of_constructed {initial : List ContextAttribute}
    {s : ThreadContext} (hs : Constructed initial s) :
    Ending initial s where
  toOwnership := hs.toOwnership
  untouched := ⟨attributesOf s.scopes, hs.storage.symm⟩
  alone := by
    intro hinactive
    rw [hs.storage, scopes_eq_nil_of_allInactive hs.linked hinactive,
      attributesOf_nil, List.append_nil]

theorem ending_destroy {initial : List ContextAttribute}
    {s s' : ThreadContext} {target : Nat} (hs : Ending initial s)
    (h : s.step (Action.destroy target) = some s')
    (hguard : RestoresAt initial.length s (Action.destroy target) s') :
    Ending initial s' ∧
      DestroysOnlyOwn s (Action.destroy target) s' := by
  have hownership := ownership_destroy hs.toOwnership h
  have hafter := allInactive_destroy h
  rcases destroy_some h with ⟨object, hobject, rfl⟩
  cases hactive : object.active with
  | false =>
      have hsame := reset_inactive hactive s.storage
      refine ⟨⟨hownership, ?_, fun hinactive => ?_⟩, ?_⟩
      · rw [hsame]
        exact hs.untouched
      · rw [hsame]
        refine hs.alone fun name other hother => ?_
        by_cases hname : name = target
        · subst hname
          rw [hobject] at hother
          cases hother
          exact hactive
        · refine hinactive name other ?_
          simpa [hname] using hother
      · rintro name ⟨⟩ _
        exact hsame
  | true =>
      have hreset := reset_active hactive s.storage
      rcases hguard target object rfl hobject hactive with ⟨hempty, hlast⟩
      have huntouched : initial <+: (object.reset s.storage).2 := by
        rw [hreset]
        by_cases hnothing : OwnsNothing s.scopes target
        · have hinitial : initial = [] := by
            rw [← List.prefix_nil, ← hempty hnothing]
            exact hs.untouched
          rw [hinitial]
          exact List.nil_prefix
        · simp only [OwnsNothing, not_forall, not_not] at hnothing
          rcases hnothing with ⟨scope, hscope, rfl⟩
          have hlive := hs.linked.live scope hscope
          rw [hobject] at hlive
          cases hlive
          exact prefix_resize hs.untouched (hs.starts scope hscope)
      refine ⟨⟨hownership, huntouched, fun hinactive => ?_⟩, ?_⟩
      · have hstart := hlast fun name other hname hother =>
          hinactive name other (by simpa [hname] using hother)
        refine (huntouched.eq_of_length ?_).symm
        rw [hreset, resize_length, hstart]
      · rintro name ⟨⟩ hnothing
        simp only
        rw [hreset, hs.unowned target object hobject hactive hnothing,
          hempty hnothing, resize_zero]

theorem restored_of_restoresAt {initial : List ContextAttribute}
    {order : List Nat} {s final : ThreadContext} (hs : Ending initial s)
    (hrun : (threadContext initial).runFrom s (order.map Action.destroy) =
      some final)
    (hall : forall name, final.objects name = none)
    (hguard : (threadContext initial).EachStep (RestoresAt initial.length) s
      (order.map Action.destroy)) :
    final.storage = initial ∧
      (threadContext initial).EachStep DestroysOnlyOwn s
        (order.map Action.destroy) := by
  induction order generalizing s with
  | nil =>
      cases hrun
      refine ⟨hs.alone fun name object hobject => ?_, trivial⟩
      rw [hall name] at hobject
      cases hobject
  | cons target rest ih =>
      rw [List.map_cons, Machine.runFrom_cons] at hrun
      rcases Option.bind_eq_some_iff.mp hrun with ⟨mid, hstep, hrest⟩
      rcases hguard mid hstep with ⟨hhere, hthere⟩
      rcases ending_destroy hs hstep hhere with ⟨hmid, honly⟩
      rcases ih hmid hrest hthere with ⟨hfinal, honlyRest⟩
      refine ⟨hfinal, fun s' hstep' => ?_⟩
      rw [hstep] at hstep'
      cases hstep'
      exact ⟨honly, honlyRest⟩

/--
After any constructions, destroying all objects restores the initial context,
and objects that own nothing go without a trace, exactly when every step of the
destruction meets the condition.
-/
theorem context_restored_iff (initial : List ContextAttribute)
    (constructions : List Action) (order : List Nat)
    {s final : ThreadContext}
    (hconstructs : forall a, a ∈ constructions -> Constructs a)
    (hconstructed : (threadContext initial).run constructions = some s)
    (hrun : (threadContext initial).runFrom s (order.map Action.destroy) =
      some final)
    (hall : forall name, final.objects name = none) :
    (final.storage = initial ∧
      (threadContext initial).EachStep DestroysOnlyOwn s
        (order.map Action.destroy)) <->
      (threadContext initial).EachStep (RestoresAt initial.length) s
        (order.map Action.destroy) := by
  have hs := constructed_run (constructed_init initial) hconstructs hconstructed
  constructor
  · intro hcase
    rcases hcase with ⟨hfinal, hown⟩
    exact restoresAt_of_restored hs.toOwnership hrun hfinal hown
  · intro hguard
    exact restored_of_restoresAt (ending_of_constructed hs) hrun hall hguard

/-- Two scopes destroyed in the order of their construction. -/
def outOfOrder : List Action :=
  [ Action.pushLogContext 0 [{ key := ascii "a" }],
    Action.pushLogContext 1 [{ key := ascii "b" }],
    Action.destroy 0,
    Action.destroy 1 ]

/--
Out of order, the destructors leave an attribute that nobody pushed; and the
destructor of a default-constructed object wipes a context that is not its own.
-/
theorem destruction_breaks_context :
    ((threadContext []).run outOfOrder).map
        (fun final => (final.storage, final.objects 0, final.objects 1)) =
      some ([{ key := [] }], none, none) ∧
    ((threadContext [{ key := ascii "a" }]).run
        [Action.defaultConstruct 0, Action.destroy 0]).map
        (fun final => (final.storage, final.objects 0)) =
      some ([], none) := by
  exact ⟨by decide, by decide⟩

theorem context_restored_in_reverse :
    exists s, (threadContext [{ key := ascii "z" }]).run (outOfOrder.take 2) =
        some s ∧
      (threadContext [{ key := ascii "z" }]).EachStep (RestoresAt 1) s
        [Action.destroy 1, Action.destroy 0] := by
  refine ⟨_, rfl, ?_⟩
  refine (context_restored_iff [{ key := ascii "z" }] (outOfOrder.take 2)
    [1, 0] ?_ rfl rfl ?_).mp ⟨by decide, ?_⟩
  · intro a ha
    simp only [outOfOrder, List.take_succ_cons, List.take_zero,
      List.mem_cons, List.not_mem_nil, or_false] at ha
    rcases ha with rfl | rfl <;> trivial
  · intro name
    by_cases hzero : name = 0
    · subst hzero
      rfl
    · by_cases hone : name = 1
      · subst hone
        rfl
      · exact (Function.update_of_ne hzero _ _).trans
          ((Function.update_of_ne hone _ _).trans
            ((Function.update_of_ne hone _ _).trans
              (Function.update_of_ne hzero _ _)))
  · rintro s' ⟨⟩
    constructor
    · rintro target ⟨⟩ hnothing
      exact absurd rfl (hnothing _ (List.mem_append_right _ List.mem_cons_self))
    · rintro s' ⟨⟩
      refine ⟨?_, trivial⟩
      rintro target ⟨⟩ hnothing
      exact absurd rfl (hnothing _ List.mem_cons_self)

end Context
end NginLog
