import NginLog.Foundation.Transition

/-!
# Rankings

A rank is a natural number that no step raises and that each helpful step
lowers, until some goal is reached.  Such a rank bounds the helpful steps that a
run takes before the goal, whatever steps come between them.
-/

namespace NginLog
namespace Foundation
namespace Machine

variable {state action : Type}

/--
The rank goes down with each helpful step until the goal is reached.  The other
steps may do anything that does not raise it.
-/
structure Ranked (M : Machine state action) (allowed : action -> Prop)
    (helpful : action -> Bool) (Inv Done : state -> Prop)
    (rank : state -> Nat) : Prop where
  keeps : forall s a s', Inv s -> allowed a -> M.step s a = some s' -> Inv s'
  stays : forall s a s', Inv s -> allowed a -> Done s ->
    M.step s a = some s' -> Done s'
  lowers : forall s a s', Inv s -> allowed a -> ¬Done s ->
    M.step s a = some s' -> Done s' ∨ rank s' + (helpful a).toNat ≤ rank s

namespace Ranked

variable {M : Machine state action} {allowed : action -> Prop}
  {helpful : action -> Bool} {Inv Done : state -> Prop} {rank : state -> Nat}

theorem inv_of_runFrom (h : M.Ranked allowed helpful Inv Done rank)
    {s s' : state} {trace : List action} (hs : Inv s)
    (hallowed : forall a, a ∈ trace -> allowed a)
    (hrun : M.runFrom s trace = some s') :
    Inv s' := by
  induction trace generalizing s with
  | nil =>
      cases hrun
      exact hs
  | cons a rest ih =>
      rw [runFrom_cons] at hrun
      rcases Option.bind_eq_some_iff.mp hrun with ⟨mid, hstep, hrest⟩
      exact ih (h.keeps s a mid hs (hallowed a List.mem_cons_self) hstep)
        (fun b hb => hallowed b (List.mem_cons_of_mem _ hb)) hrest

theorem done_of_runFrom (h : M.Ranked allowed helpful Inv Done rank)
    {s s' : state} {trace : List action} (hs : Inv s) (hdone : Done s)
    (hallowed : forall a, a ∈ trace -> allowed a)
    (hrun : M.runFrom s trace = some s') :
    Done s' := by
  induction trace generalizing s with
  | nil =>
      cases hrun
      exact hdone
  | cons a rest ih =>
      rw [runFrom_cons] at hrun
      rcases Option.bind_eq_some_iff.mp hrun with ⟨mid, hstep, hrest⟩
      have ha := hallowed a List.mem_cons_self
      exact ih (h.keeps s a mid hs ha hstep) (h.stays s a mid hs ha hdone hstep)
        (fun b hb => hallowed b (List.mem_cons_of_mem _ hb)) hrest

theorem done_or_paid (h : M.Ranked allowed helpful Inv Done rank)
    {s s' : state} {trace : List action} (hs : Inv s)
    (hallowed : forall a, a ∈ trace -> allowed a)
    (hrun : M.runFrom s trace = some s') :
    Done s' ∨ rank s' + trace.countP helpful ≤ rank s := by
  induction trace generalizing s with
  | nil =>
      cases hrun
      exact Or.inr (Nat.le_refl _)
  | cons a rest ih =>
      have hrest' := fun b hb => hallowed b (List.mem_cons_of_mem a hb)
      have ha := hallowed a List.mem_cons_self
      by_cases hdone : Done s
      · exact Or.inl (h.done_of_runFrom hs hdone hallowed hrun)
      rw [runFrom_cons] at hrun
      rcases Option.bind_eq_some_iff.mp hrun with ⟨mid, hstep, hrest⟩
      have hmid := h.keeps s a mid hs ha hstep
      rcases h.lowers s a mid hs ha hdone hstep with hreached | hlower
      · exact Or.inl (h.done_of_runFrom hmid hreached hrest' hrest)
      rcases ih hmid hrest' hrest with hreached | hpaid
      · exact Or.inl hreached
      · rw [List.countP_cons]
        cases hhelpful : helpful a <;> simp [hhelpful] at hlower ⊢ <;>
          exact Or.inr (by omega)

theorem done_of_effort (h : M.Ranked allowed helpful Inv Done rank)
    {s s' : state} {trace : List action} (hs : Inv s)
    (hallowed : forall a, a ∈ trace -> allowed a)
    (hrun : M.runFrom s trace = some s')
    (heffort : rank s < trace.countP helpful) :
    Done s' := by
  rcases h.done_or_paid hs hallowed hrun with hdone | hpaid
  · exact hdone
  · omega

theorem effort_le (h : M.Ranked allowed helpful Inv (fun _ => False) rank)
    {s s' : state} {trace : List action} (hs : Inv s)
    (hallowed : forall a, a ∈ trace -> allowed a)
    (hrun : M.runFrom s trace = some s') :
    trace.countP helpful ≤ rank s := by
  rcases h.done_or_paid hs hallowed hrun with hdone | hpaid
  · exact absurd hdone id
  · omega

end Ranked

theorem exists_prefix_of_effort {M : Machine state action}
    {allowed : action -> Prop} {helpful : action -> Bool}
    {Inv Done : state -> Prop} {rank : state -> Nat}
    (hstep : forall s a s', Inv s -> allowed a -> ¬Done s ->
      M.step s a = some s' ->
        Done s' ∨ Inv s' ∧ rank s' + (helpful a).toNat ≤ rank s)
    {s s' : state} {trace : List action} (hs : Inv s)
    (hallowed : forall a, a ∈ trace -> allowed a)
    (hrun : M.runFrom s trace = some s')
    (heffort : rank s < trace.countP helpful) :
    exists first mid, first <+: trace ∧ M.runFrom s first = some mid ∧
      Done mid := by
  induction trace generalizing s with
  | nil => exact absurd heffort (Nat.not_lt_zero _)
  | cons a rest ih =>
      by_cases hdone : Done s
      · exact ⟨[], s, List.nil_prefix, rfl, hdone⟩
      rw [runFrom_cons] at hrun
      rcases Option.bind_eq_some_iff.mp hrun with ⟨next, hnext, hrest⟩
      rcases hstep s a next hs (hallowed a List.mem_cons_self) hdone hnext with
        hreached | ⟨hinv, hlower⟩
      · refine ⟨[a], next, by simp, ?_, hreached⟩
        rw [runFrom_cons, hnext]
        rfl
      have hremaining : rank next < rest.countP helpful := by
        rw [List.countP_cons] at heffort
        cases hhelpful : helpful a <;> simp [hhelpful] at hlower heffort <;>
          omega
      rcases ih hinv (fun b hb => hallowed b (List.mem_cons_of_mem _ hb)) hrest
        hremaining with ⟨first, mid, hfirst, hmid, hreached⟩
      refine ⟨a :: first, mid, List.cons_prefix_cons.mpr ⟨rfl, hfirst⟩, ?_,
        hreached⟩
      rw [runFrom_cons, hnext]
      exact hmid

end Machine

/-!
## Two ranks in one

The outer rank may raise the inner one, up to its limit, when it goes down.
-/

def lexRank (limit outer inner : Nat) : Nat :=
  outer * (limit + 1) + inner

theorem lexRank_of_outer {limit outer outer' inner inner' : Nat}
    (houter : outer' < outer) (hinner : inner' ≤ limit) :
    lexRank limit outer' inner' + 1 ≤ lexRank limit outer inner := by
  have hpaid : (outer' + 1) * (limit + 1) ≤ outer * (limit + 1) :=
    Nat.mul_le_mul_right _ houter
  rw [Nat.add_mul, Nat.one_mul] at hpaid
  unfold lexRank
  omega

theorem lexRank_of_inner {limit outer outer' inner inner' d : Nat}
    (houter : outer' ≤ outer) (hinner : inner' + d ≤ inner) :
    lexRank limit outer' inner' + d ≤ lexRank limit outer inner := by
  have hkept : outer' * (limit + 1) ≤ outer * (limit + 1) :=
    Nat.mul_le_mul_right _ houter
  unfold lexRank
  omega

end Foundation
end NginLog
