import Mathlib.Logic.Function.Basic

/-!
# Mutual exclusion

A mutex is the agent that owns it, if any.  A family of agents runs code in
which each program point either lies in the critical section or does not.  If
every step of every agent follows the discipline below, an agent in the critical
section owns the mutex, and so at most one agent is in it.
-/

namespace NginLog
namespace Foundation

/--
What one step of agent `me` may do to a mutex, given whether the agent is in
the critical section before and after the step.
-/
inductive LockStep {agent : Type} (me : agent) :
    Bool -> Bool -> Option agent -> Option agent -> Prop where
  | keep {held : Bool} {mutex : Option agent} : LockStep me held held mutex mutex
  | acquire : LockStep me false true none (some me)
  | release {mutex : Option agent} : LockStep me true false mutex none

theorem LockStep.of_eq {agent : Type} {me : agent} {held held' : Bool}
    {mutex mutex' : Option agent} (hheld : held' = held)
    (hmutex : mutex' = mutex) :
    LockStep me held held' mutex mutex' := by
  subst hheld
  subst hmutex
  exact LockStep.keep

theorem LockStep.of_free {agent : Type} {me : agent} {mutex : Option agent}
    (hfree : mutex = none) :
    LockStep me false true mutex (some me) := by
  subst hfree
  exact LockStep.acquire

def Exclusive {agent : Type} (held : agent -> Bool) (mutex : Option agent) : Prop :=
  forall a, held a = true -> mutex = some a

namespace Exclusive

variable {agent : Type} {held held' : agent -> Bool}
  {mutex mutex' : Option agent}

theorem unique (h : Exclusive held mutex) {a b : agent}
    (ha : held a = true) (hb : held b = true) :
    a = b := by
  have hsome : some a = some b := (h a ha).symm.trans (h b hb)
  exact Option.some.inj hsome

theorem step (h : Exclusive held mutex) (me : agent)
    (hstep : LockStep me (held me) (held' me) mutex mutex')
    (hothers : forall a, a ≠ me -> held' a = held a) :
    Exclusive held' mutex' := by
  intro a ha
  generalize hbefore : held me = before at hstep
  generalize hafter : held' me = after at hstep
  cases hstep with
  | keep =>
      by_cases hme : a = me
      · subst hme
        exact h a (hbefore.trans (hafter.symm.trans ha))
      · exact h a ((hothers a hme).symm.trans ha)
  | acquire =>
      by_cases hme : a = me
      · rw [hme]
      · cases h a ((hothers a hme).symm.trans ha)
  | release =>
      have hmine : mutex = some me := h me hbefore
      by_cases hme : a = me
      · subst hme
        rw [hafter] at ha
        cases ha
      · have hother : mutex = some a := h a ((hothers a hme).symm.trans ha)
        rw [hmine] at hother
        exact absurd (Option.some.inj hother).symm hme

end Exclusive

def Manned {agent : Type} (held : agent -> Bool) (mutex : Option agent) : Prop :=
  forall a, mutex = some a -> held a = true

theorem Manned.step {agent : Type} {held held' : agent -> Bool}
    {mutex mutex' : Option agent} (h : Manned held mutex) (me : agent)
    (hstep : LockStep me (held me) (held' me) mutex mutex')
    (hothers : forall a, a ≠ me -> held' a = held a) :
    Manned held' mutex' := by
  intro a ha
  generalize hbefore : held me = before at hstep
  generalize hafter : held' me = after at hstep
  cases hstep with
  | keep =>
      by_cases hme : a = me
      · subst hme
        exact hafter.trans (hbefore.symm.trans (h a ha))
      · exact (hothers a hme).trans (h a ha)
  | acquire =>
      cases ha
      exact hafter
  | release => cases ha

end Foundation
end NginLog
