import NginLog.Foundation.Mutex

/-!
# Condition variables

Agents test a condition under a mutex, and an agent that finds it false goes to
sleep in a later step.  An agent that makes the condition true owes a
notification, and takes the mutex before it gives it.  Under this discipline
nobody sleeps on while the condition holds and no notification is to come.
-/

namespace NginLog
namespace Foundation

structure WaitState (agent : Type) where
  /-- The condition that the sleepers wait for. -/
  ready : Prop
  asleep : agent -> Prop
  /-- The agent has found the condition false and is not yet asleep. -/
  aboutToSleep : agent -> Bool
  /-- The agent has yet to notify the sleepers. -/
  owes : agent -> Bool

namespace WaitState

variable {agent : Type}

/-- Nobody waits for a condition that holds without a notification to come. -/
def Attended (w : WaitState agent) : Prop :=
  w.ready -> (exists a, w.asleep a ∨ w.aboutToSleep a = true) ->
    exists a, w.owes a = true

end WaitState

/-- What one step of agent `me` may do, given whether it owns the mutex. -/
structure WaitStep {agent : Type} (me : agent) (held : Bool)
    (w w' : WaitState agent) : Prop where
  ready : w'.ready -> w.ready ∨ w'.owes me = true
  owes : w.owes me = true -> w'.ready ->
    w'.owes me = true ∨ (held = true ∧ forall a, ¬w'.asleep a)
  asleep : forall a, w'.asleep a -> w.asleep a ∨ w.aboutToSleep me = true
  aboutToSleep : w'.aboutToSleep me = true -> ¬w'.ready
  others : forall a, a ≠ me ->
    w'.aboutToSleep a = w.aboutToSleep a ∧ w'.owes a = w.owes a

namespace WaitState

variable {agent : Type} {w w' : WaitState agent}

theorem Attended.step {held : agent -> Bool} {mutex : Option agent}
    (h : w.Attended) (hexclusive : Exclusive held mutex)
    (hheld : forall a, w.aboutToSleep a = true -> held a = true) {me : agent}
    (hstep : WaitStep me (held me) w w') :
    w'.Attended := by
  intro hready hwaiter
  rcases hstep.ready hready with hbefore | howes
  · -- Somebody was waiting before the step as well.
    have hothers : forall a, w'.aboutToSleep a = true ->
        w.aboutToSleep a = true ∧ a ≠ me := by
      intro a habout
      have hne : a ≠ me := by
        intro hme
        subst hme
        exact hstep.aboutToSleep habout hready
      exact ⟨(hstep.others a hne).1 ▸ habout, hne⟩
    have hwaited : exists a, w.asleep a ∨ w.aboutToSleep a = true := by
      rcases hwaiter with ⟨a, hasleep | habout⟩
      · rcases hstep.asleep a hasleep with hold | hme
        · exact ⟨a, Or.inl hold⟩
        · exact ⟨me, Or.inr hme⟩
      · exact ⟨a, Or.inr (hothers a habout).1⟩
    rcases h hbefore hwaited with ⟨b, howes⟩
    by_cases hme : b = me
    · subst hme
      rcases hstep.owes howes hready with hstill | ⟨hinside, hawake⟩
      · exact ⟨b, hstill⟩
      · -- The notification is given, so the waiter is not asleep, and the
        -- mutex keeps everybody else away from going to sleep.
        rcases hwaiter with ⟨a, hasleep | habout⟩
        · exact absurd hasleep (hawake a)
        · rcases hothers a habout with ⟨hwas, hne⟩
          exact absurd (hexclusive.unique (hheld a hwas) hinside) hne
    · exact ⟨b, (hstep.others b hme).2.trans howes⟩
  · exact ⟨me, howes⟩

end WaitState

end Foundation
end NginLog
