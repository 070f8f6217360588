import Mathlib.Data.List.Flatten
import NginLog.Context.Scopes

/-!
# When the context is what the live objects own

Move assignment resets its target after its source has pushed, and the reset
cuts the vector at the target's start, whatever has been pushed above it.  The
context stays the concatenation of the owned scopes exactly in the runs in which
every reset of an active object finds that object's own attributes on top.
-/

namespace NginLog
namespace Context

open Foundation Record

/-- The context holds the attributes of the owned scopes, in push order. -/
def ContextIsOwned (s : ThreadContext) : Prop :=
  s.storage = attributesOf s.scopes

instance : DecidablePred ContextIsOwned := fun _ =>
  inferInstanceAs (Decidable (_ = _))

/--
If the object is active, what lies above its start is as long as what it owns.
-/
def OwnsTop (s : ThreadContext) (target : Nat) : Prop :=
  forall object, s.objects target = some object -> object.active = true ->
    object.start + (owned target s.scopes).length = s.storage.length

/-- A step that resets an object finds the object's own attributes on top. -/
def ResetsTop (s : ThreadContext) (a : Action) (_ : ThreadContext) : Prop :=
  match a with
  | Action.moveAssign target other => target ≠ other -> OwnsTop s target
  | Action.destroy target => OwnsTop s target
  | _ => True

/-!
## Where the scopes start
-/

/--
Laid out from position `n` on, each nonempty scope starts where it should.
Nothing is said about an empty scope: others may have gone from below it.
-/
def Placed : Nat -> List Scope -> Prop
  | _, [] => True
  | n, scope :: rest =>
      (scope.attributes ≠ [] -> scope.start = n) ∧
        Placed (n + scope.attributes.length) rest

theorem placed_append {n : Nat} {first second : List Scope} :
    Placed n (first ++ second) <->
      Placed n first ∧ Placed (n + (attributesOf first).length) second := by
  induction first generalizing n with
  | nil => simp [Placed]
  | cons scope rest ih =>
      simp only [List.cons_append, Placed, ih, attributesOf_cons,
        List.length_append, and_assoc, Nat.add_assoc]

theorem placed_of_attributesOf_nil {scopes : List Scope} (n : Nat)
    (h : attributesOf scopes = []) :
    Placed n scopes := by
  induction scopes generalizing n with
  | nil => trivial
  | cons scope rest ih =>
      rw [attributesOf_cons, List.append_eq_nil_iff] at h
      exact ⟨fun hne => absurd h.1 hne, ih _ h.2⟩

theorem placed_transfer {n : Nat} {scopes : List Scope} (target other : Nat)
    (h : Placed n scopes) :
    Placed n (transfer target other scopes) := by
  induction scopes generalizing n with
  | nil => trivial
  | cons scope rest ih =>
      simp only [transfer, List.map_cons]
      split <;> exact ⟨h.1, ih h.2⟩

/-!
## One reset
-/

structure Tidy (s : ThreadContext) : Prop where
  owned : ContextIsOwned s
  linked : Linked s.scopes s.objects
  placed : Placed 0 s.scopes

theorem release_split {pre post : List Scope} {scope : Scope}
    (h : ((pre ++ scope :: post).map Scope.owner).Nodup) :
    release scope.owner (pre ++ scope :: post) = pre ++ post ∧
      owned scope.owner (pre ++ scope :: post) = scope.attributes := by
  rw [List.map_append, List.map_cons, List.nodup_append] at h
  rcases h with ⟨_, hrest, hdisjoint⟩
  have hpre : forall other, other ∈ pre -> other.owner ≠ scope.owner :=
    fun other hother => hdisjoint _ (List.mem_map_of_mem hother) _
      List.mem_cons_self
  have hpost : forall other, other ∈ post -> other.owner ≠ scope.owner :=
    fun other hother heq => (List.nodup_cons.mp hrest).1
      (heq ▸ List.mem_map_of_mem hother)
  constructor
  · rw [release_append, release_cons_self, release_eq_self hpre,
      release_eq_self hpost]
  · have hnonePre : pre.filter (fun other => other.owner = scope.owner) = [] :=
      List.filter_eq_nil_iff.mpr fun other hother => by
        simpa using hpre other hother
    have hnonePost : post.filter (fun other => other.owner = scope.owner) = [] :=
      List.filter_eq_nil_iff.mpr fun other hother => by
        simpa using hpost other hother
    simp [owned, hnonePre, hnonePost]

theorem reset_top {s : ThreadContext} {target : Nat}
    {object : ScopedLogContext} (hs : Tidy s)
    (hobject : s.objects target = some object) (htop : OwnsTop s target) :
    (object.reset s.storage).2 = attributesOf (release target s.scopes) ∧
      Placed 0 (release target s.scopes) := by
  cases hactive : object.active with
  | false =>
      rw [reset_inactive hactive,
        release_eq_self (hs.linked.not_owner_of_inactive hobject hactive)]
      exact ⟨hs.owned, hs.placed⟩
  | true =>
      have hlength := htop object hobject hactive
      rw [reset_active hactive]
      by_cases howner : exists scope, scope ∈ s.scopes ∧ scope.owner = target
      · rcases howner with ⟨scope, hscope, rfl⟩
        have hlive := hs.linked.live scope hscope
        rw [hobject] at hlive
        cases hlive
        rcases List.append_of_mem hscope with ⟨pre, post, hsplit⟩
        have hdistinct := hs.linked.distinct
        have hplaced := hs.placed
        have hstorage := hs.owned
        unfold ContextIsOwned at hstorage
        rw [hsplit] at hdistinct hplaced hlength hstorage ⊢
        rcases release_split hdistinct with ⟨hrelease, howned⟩
        rw [placed_append] at hplaced
        rcases hplaced with ⟨hplacedPre, hstart, hplacedPost⟩
        rw [howned, hstorage] at hlength
        rw [hrelease, hstorage, placed_append]
        simp only [attributesOf_append, attributesOf_cons,
          List.length_append] at hlength ⊢
        by_cases hempty : scope.attributes = []
        · -- An empty scope on top: the reset cuts at the end.
          rw [hempty] at hlength hplacedPost ⊢
          simp only [List.length_nil, Nat.add_zero, Nat.zero_add,
            List.nil_append] at hlength hplacedPost ⊢
          rw [hlength, ← List.length_append, resize_self]
          exact ⟨rfl, hplacedPre, hplacedPost⟩
        · -- A nonempty one: nothing but empty scopes can lie above it.
          have hstart := hstart hempty
          have hpost : attributesOf post = [] := by
            rw [← List.length_eq_zero_iff]
            omega
          rw [hpost, hstart, resize_eq_take (by simp)]
          refine ⟨by simp, hplacedPre, ?_⟩
          exact placed_of_attributesOf_nil _ hpost
      · have hfree : forall scope, scope ∈ s.scopes -> scope.owner ≠ target :=
          fun scope hscope heq => howner ⟨scope, hscope, heq⟩
        have hnothing : owned target s.scopes = [] := by
          have hrelease := release_length target s.scopes
          rw [release_eq_self hfree] at hrelease
          rw [← List.length_eq_zero_iff]
          omega
        rw [hnothing, List.length_nil, Nat.add_zero] at hlength
        rw [hlength, resize_self, release_eq_self hfree]
        exact ⟨hs.owned, hs.placed⟩

/-!
## Whole runs
-/

theorem tidy_init : Tidy (threadContext []).init where
  owned := rfl
  linked := ⟨fun scope hscope => (by cases hscope), List.nodup_nil⟩
  placed := trivial

theorem tidy_step {s s' : ThreadContext} {a : Action} (hs : Tidy s)
    (h : s.step a = some s') (hguard : ResetsTop s a s') :
    Tidy s' := by
  have hlinked := hs.linked.step h
  cases a with
  | pushLogContext target attributes =>
      rcases pushLogContext_some h with ⟨_, rfl⟩
      have howned := hs.owned
      unfold ContextIsOwned at howned
      refine ⟨?_, hlinked, ?_⟩
      · simp [ContextIsOwned, howned]
      · rw [placed_append, howned]
        exact ⟨hs.placed, fun _ => (Nat.zero_add _).symm, trivial⟩
  | defaultConstruct target =>
      rcases defaultConstruct_some h with ⟨_, rfl⟩
      exact ⟨hs.owned, hlinked, hs.placed⟩
  | moveConstruct target other =>
      rcases moveConstruct_some h with ⟨source, _, _, rfl⟩
      refine ⟨?_, hlinked, placed_transfer target other hs.placed⟩
      simpa [ContextIsOwned] using hs.owned
  | moveAssign target other =>
      rcases moveAssign_some h with
        ⟨object, source, hobject, _, ⟨_, rfl⟩ | ⟨hne, rfl⟩⟩
      · exact hs
      · rcases reset_top hs hobject (hguard hne) with ⟨howned, hplaced⟩
        refine ⟨?_, hlinked, placed_transfer target other hplaced⟩
        simpa [ContextIsOwned] using howned
  | destroy target =>
      rcases destroy_some h with ⟨object, hobject, rfl⟩
      rcases reset_top hs hobject hguard with ⟨howned, hplaced⟩
      exact ⟨howned, hlinked, hplaced⟩

theorem resetsTop_of_owned {s s' : ThreadContext} {a : Action}
    (hs : ContextIsOwned s) (h : s.step a = some s')
    (hs' : ContextIsOwned s') :
    ResetsTop s a s' := by
  have htop : forall {target : Nat} {object : ScopedLogContext},
      s.objects target = some object ->
      (object.reset s.storage).2 = attributesOf (release target s.scopes) ->
        OwnsTop s target := by
    intro target object hobject hreset other hother hactive
    rw [hobject] at hother
    cases hother
    rw [reset_active hactive] at hreset
    have hlength := congrArg List.length hreset
    have hrelease := release_length target s.scopes
    rw [resize_length] at hlength
    rw [hlength, hrelease, hs]
  cases a with
  | moveAssign target other =>
      intro hne
      rcases moveAssign_some h with
        ⟨object, source, hobject, _, ⟨hself, _⟩ | ⟨_, rfl⟩⟩
      · exact absurd hself hne
      · exact htop hobject (by simpa [ContextIsOwned] using hs')
  | destroy target =>
      rcases destroy_some h with ⟨object, hobject, rfl⟩
      exact htop hobject hs'
  | _ => trivial

theorem destroy_never_appends {s s' : ThreadContext} {target : Nat}
    (hs : ContextIsOwned s) (h : s.step (Action.destroy target) = some s')
    (hs' : ContextIsOwned s') :
    s'.storage.Sublist s.storage := by
  rcases destroy_some h with ⟨object, _, rfl⟩
  rw [hs', hs]
  exact List.filter_sublist.flatMap _

/--
In every run, the context is the concatenation of the owned scopes in every
state exactly when every reset of an active object finds its attributes on top.
-/
theorem contextIsOwned_iff (trace : List Action) :
    (threadContext []).Throughout ContextIsOwned (threadContext []).init trace <->
      (threadContext []).EachStep ResetsTop (threadContext []).init trace :=
  Machine.throughout_iff_eachStep (fun _ hs => hs.owned)
    (fun _ _ _ hs hstep hguard => tidy_step hs hstep hguard)
    (fun _ _ _ hs hstep hs' => resetsTop_of_owned hs hstep hs') tidy_init

/--
`target = PushLogContext(B)` over a target that owns an attribute: the temporary
is object 1, and both lifetimes nest.
-/
def reassignment : List Action :=
  [ Action.pushLogContext 0 [{ key := ascii "a" }],
    Action.pushLogContext 1 [{ key := ascii "b" }],
    Action.moveAssign 0 1,
    Action.destroy 1,
    Action.destroy 0 ]

/--
The assignment removes the new attribute with the old one, and the destruction
of the target appends an attribute that nobody pushed.
-/
theorem reassignment_breaks_context :
    ¬(threadContext []).Throughout ContextIsOwned (threadContext []).init
        reassignment ∧
      ((threadContext []).run (reassignment.take 3)).map
        ThreadContext.storage = some [] ∧
      ((threadContext []).run (reassignment.take 4)).map
        ThreadContext.storage = some [] ∧
      ((threadContext []).run reassignment).map
        ThreadContext.storage = some [{ key := [] }] := by
  refine ⟨?_, by decide, by decide, by decide⟩
  have hrun : ((threadContext []).runFrom (threadContext []).init
      (reassignment.take 3)).any (fun s => !decide (ContextIsOwned s)) = true := by
    decide
  rw [← List.take_append_drop 3 reassignment]
  exact Machine.not_throughout_of_runFrom hrun

end Context
end NginLog
