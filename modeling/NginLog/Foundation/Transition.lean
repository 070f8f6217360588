import Mathlib.Data.List.Basic

/-!
# Transition machines

A machine is an initial state and a partial step function: `none` means that
the action is not enabled.  The module provides finite runs, reachability, and
the induction rules that turn a fact about one step into a fact about every
reachable state.

The rules come with a guard on the steps, because several results hold only in
runs whose steps avoid some branch.  Plain reachability is the case of the
guard that allows every step.
-/

namespace NginLog
namespace Foundation

structure Machine (state action : Type) where
  init : state
  step : state -> action -> Option state

namespace Machine

variable {state action : Type}

/-- Run a list of actions; `none` as soon as one of them is not enabled. -/
def runFrom (M : Machine state action) : state -> List action -> Option state
  | s, [] => some s
  | s, a :: rest => (M.step s a).bind fun s' => runFrom M s' rest

def run (M : Machine state action) (trace : List action) : Option state :=
  M.runFrom M.init trace

/-- The states reached by runs all of whose steps meet the guard. -/
inductive ReachableUnder (M : Machine state action)
    (guard : state -> action -> Prop) : state -> Prop where
  | init : ReachableUnder M guard M.init
  | step {s s' : state} {a : action} :
      ReachableUnder M guard s ->
      guard s a ->
      M.step s a = some s' ->
      ReachableUnder M guard s'

def Reachable (M : Machine state action) (s : state) : Prop :=
  M.ReachableUnder (fun _ _ => True) s

theorem Reachable.step {M : Machine state action} {s s' : state} {a : action}
    (h : M.Reachable s) (hstep : M.step s a = some s') :
    M.Reachable s' :=
  ReachableUnder.step h trivial hstep

/-!
## Runs
-/

@[simp] theorem runFrom_nil (M : Machine state action) (s : state) :
    M.runFrom s [] = some s := rfl

theorem runFrom_cons (M : Machine state action) (s : state) (a : action)
    (rest : List action) :
    M.runFrom s (a :: rest) =
      (M.step s a).bind fun s' => M.runFrom s' rest := rfl

theorem runFrom_append (M : Machine state action) (s : state)
    (first second : List action) :
    M.runFrom s (first ++ second) =
      (M.runFrom s first).bind fun s' => M.runFrom s' second := by
  induction first generalizing s with
  | nil => rfl
  | cons a rest ih =>
      rw [List.cons_append, runFrom_cons, runFrom_cons, Option.bind_assoc]
      congr 1
      funext s'
      exact ih s'

theorem reachable_of_runFrom {M : Machine state action} {s s' : state}
    {trace : List action}
    (hs : M.Reachable s) (hrun : M.runFrom s trace = some s') :
    M.Reachable s' := by
  induction trace generalizing s with
  | nil =>
      cases hrun
      exact hs
  | cons a rest ih =>
      rw [runFrom_cons] at hrun
      cases hstep : M.step s a with
      | none =>
          rw [hstep] at hrun
          cases hrun
      | some mid =>
          rw [hstep] at hrun
          exact ih (hs.step hstep) hrun

theorem reachable_of_run {M : Machine state action} {s : state}
    {trace : List action} (hrun : M.run trace = some s) :
    M.Reachable s :=
  reachable_of_runFrom ReachableUnder.init hrun

def Leads (M : Machine state action) (allowed : action -> Prop)
    (s s' : state) : Prop :=
  exists trace, (forall a, a ∈ trace -> allowed a) ∧
    M.runFrom s trace = some s'

theorem Leads.refl {M : Machine state action} {allowed : action -> Prop}
    (s : state) : M.Leads allowed s s :=
  ⟨[], by simp, rfl⟩

theorem Leads.single {M : Machine state action} {allowed : action -> Prop}
    {s s' : state} {a : action} (ha : allowed a)
    (hstep : M.step s a = some s') :
    M.Leads allowed s s' := by
  refine ⟨[a], by simpa using ha, ?_⟩
  rw [runFrom_cons, hstep]
  rfl

theorem Leads.trans {M : Machine state action} {allowed : action -> Prop}
    {s s' s'' : state} (h : M.Leads allowed s s')
    (h' : M.Leads allowed s' s'') :
    M.Leads allowed s s'' := by
  rcases h with ⟨first, hfirst, hrun⟩
  rcases h' with ⟨second, hsecond, hrun'⟩
  refine ⟨first ++ second, fun a ha => ?_, ?_⟩
  · exact (List.mem_append.mp ha).elim (hfirst a) (hsecond a)
  · rw [runFrom_append, hrun]
    exact hrun'

theorem reachableUnder_of_run {M : Machine state action}
    {allowed : action -> Prop} {s : state} {trace : List action}
    (hallowed : forall a, a ∈ trace -> allowed a)
    (hrun : M.run trace = some s) :
    M.ReachableUnder (fun _ a => allowed a) s := by
  have hfrom : forall start, M.ReachableUnder (fun _ a => allowed a) start ->
      M.runFrom start trace = some s ->
      M.ReachableUnder (fun _ a => allowed a) s := by
    clear hrun
    induction trace with
    | nil =>
        intro start hstart hrun
        cases hrun
        exact hstart
    | cons a rest ih =>
        intro start hstart hrun
        rw [runFrom_cons] at hrun
        rcases Option.bind_eq_some_iff.mp hrun with ⟨mid, hstep, hrest⟩
        exact ih (fun a' ha' => hallowed a' (List.mem_cons_of_mem _ ha')) mid
          (ReachableUnder.step hstart (hallowed a List.mem_cons_self) hstep)
          hrest
  exact hfrom M.init ReachableUnder.init hrun

theorem exists_reachable_of_run {M : Machine state action}
    {trace : List action} {test : state -> Bool}
    (hrun : (M.run trace).any test = true) :
    exists s, M.Reachable s ∧ test s = true := by
  cases hs : M.run trace with
  | none =>
      rw [hs] at hrun
      cases hrun
  | some s =>
      rw [hs] at hrun
      exact ⟨s, reachable_of_run hs, hrun⟩

def runUnder (M : Machine state action) (guard : state -> action -> Prop)
    [forall s a, Decidable (guard s a)] : state -> List action -> Option state
  | s, [] => some s
  | s, a :: rest =>
      if guard s a then
        (M.step s a).bind fun s' => runUnder M guard s' rest
      else
        none

theorem reachableUnder_of_runUnder {M : Machine state action}
    {guard : state -> action -> Prop} [forall s a, Decidable (guard s a)]
    {s s' : state} {trace : List action} (hs : M.ReachableUnder guard s)
    (hrun : M.runUnder guard s trace = some s') :
    M.ReachableUnder guard s' := by
  induction trace generalizing s with
  | nil =>
      cases hrun
      exact hs
  | cons a rest ih =>
      rw [runUnder] at hrun
      split at hrun
      · rename_i hguard
        rcases Option.bind_eq_some_iff.mp hrun with ⟨mid, hstep, hrest⟩
        exact ih (ReachableUnder.step hs hguard hstep) hrest
      · cases hrun

theorem exists_reachableUnder_of_runUnder {M : Machine state action}
    {guard : state -> action -> Prop} [forall s a, Decidable (guard s a)]
    {trace : List action} {test : state -> Bool}
    (hrun : (M.runUnder guard M.init trace).any test = true) :
    exists s, M.ReachableUnder guard s ∧ test s = true := by
  rcases (Option.any_eq_true _ _).mp hrun with ⟨s, hs, htest⟩
  exact ⟨s, reachableUnder_of_runUnder ReachableUnder.init hs, htest⟩

/-!
## Invariants

The step premise of the invariant rule may use that the state before the step is
itself reachable, which lets later invariants rest on earlier ones.
-/

theorem reachableUnder_mono {M : Machine state action}
    {guard guard' : state -> action -> Prop} {s : state}
    (himp : forall s a, guard s a -> guard' s a)
    (h : M.ReachableUnder guard s) :
    M.ReachableUnder guard' s := by
  induction h with
  | init => exact ReachableUnder.init
  | step _ hguard hstep ih =>
      exact ReachableUnder.step ih (himp _ _ hguard) hstep

theorem reachable_of_reachableUnder {M : Machine state action}
    {guard : state -> action -> Prop} {s : state}
    (h : M.ReachableUnder guard s) :
    M.Reachable s :=
  reachableUnder_mono (fun _ _ _ => trivial) h

theorem invariantUnder {M : Machine state action}
    {guard : state -> action -> Prop} {P : state -> Prop}
    (hinit : P M.init)
    (hstep : forall s a s', M.ReachableUnder guard s -> P s -> guard s a ->
      M.step s a = some s' -> P s')
    {s : state} (h : M.ReachableUnder guard s) :
    P s := by
  induction h with
  | init => exact hinit
  | step hreach hguard hs ih => exact hstep _ _ _ hreach ih hguard hs

theorem invariant {M : Machine state action} {P : state -> Prop}
    (hinit : P M.init)
    (hstep : forall s a s', M.Reachable s -> P s ->
      M.step s a = some s' -> P s')
    {s : state} (h : M.Reachable s) :
    P s :=
  invariantUnder hinit (fun s a s' hreach hP _ hs => hstep s a s' hreach hP hs) h

theorem related_of_runFrom {M : Machine state action}
    {R : state -> state -> Prop} (hrefl : forall s, R s s)
    (htrans : forall s s' s'', R s s' -> R s' s'' -> R s s'')
    (hstep : forall s a s', M.step s a = some s' -> R s s')
    {s s' : state} {trace : List action}
    (hrun : M.runFrom s trace = some s') :
    R s s' := by
  induction trace generalizing s with
  | nil =>
      cases hrun
      exact hrefl _
  | cons a rest ih =>
      rw [runFrom_cons] at hrun
      rcases Option.bind_eq_some_iff.mp hrun with ⟨mid, hmid, hrest⟩
      exact htrans _ _ _ (hstep s a mid hmid) (ih hrest)

theorem countedInvariant {M : Machine state action} {P : Nat -> state -> Prop}
    (hinit : P 0 M.init)
    (hstep : forall n s a s', M.Reachable s -> P n s ->
      M.step s a = some s' -> P (n + 1) s')
    {s : state} {trace : List action} (hrun : M.run trace = some s) :
    P trace.length s := by
  have hfrom : forall n start, M.Reachable start -> P n start ->
      M.runFrom start trace = some s -> P (n + trace.length) s := by
    clear hrun
    induction trace with
    | nil =>
        intro n start _ hstart hrun
        cases hrun
        exact hstart
    | cons a rest ih =>
        intro n start hreach hstart hrun
        rw [runFrom_cons] at hrun
        rcases Option.bind_eq_some_iff.mp hrun with ⟨mid, hmid, hrest⟩
        rw [List.length_cons, Nat.add_comm rest.length 1, ← Nat.add_assoc]
        exact ih (n + 1) mid (hreach.step hmid)
          (hstep n start a mid hreach hstart hmid) hrest
  exact Nat.zero_add trace.length ▸
    hfrom 0 M.init ReachableUnder.init hinit hrun

/-!
## Properties of one run

A property of the states of a run, or of its steps, from a given state on.  The
part of a trace after the first action that is not enabled is never run, and
nothing is asked of it.

Such a property often holds exactly when a guard holds at each step: guarded
steps keep an invariant that implies the property, and a step between two states
with the property meets the guard.
-/

def Throughout (M : Machine state action) (P : state -> Prop) :
    state -> List action -> Prop
  | s, [] => P s
  | s, a :: rest =>
      P s ∧ forall s', M.step s a = some s' -> Throughout M P s' rest

def EachStep (M : Machine state action)
    (Q : state -> action -> state -> Prop) : state -> List action -> Prop
  | _, [] => True
  | s, a :: rest =>
      forall s', M.step s a = some s' -> Q s a s' ∧ EachStep M Q s' rest

theorem EachStep.cons {M : Machine state action}
    {Q : state -> action -> state -> Prop} {s s' : state} {a : action}
    {rest : List action} (hstep : M.step s a = some s') (hQ : Q s a s')
    (hrest : M.EachStep Q s' rest) :
    M.EachStep Q s (a :: rest) := by
  intro s'' hs''
  cases hstep.symm.trans hs''
  exact ⟨hQ, hrest⟩

theorem Throughout.head {M : Machine state action} {P : state -> Prop}
    {s : state} {trace : List action} (h : M.Throughout P s trace) :
    P s := by
  cases trace with
  | nil => exact h
  | cons a rest => exact h.1

theorem Throughout.of_runFrom {M : Machine state action} {P : state -> Prop}
    {s s' : state} {trace rest : List action}
    (h : M.Throughout P s (trace ++ rest))
    (hrun : M.runFrom s trace = some s') :
    P s' := by
  induction trace generalizing s with
  | nil =>
      cases hrun
      exact h.head
  | cons a tail ih =>
      rw [runFrom_cons] at hrun
      rcases Option.bind_eq_some_iff.mp hrun with ⟨mid, hstep, hrest⟩
      exact ih (h.2 mid hstep) hrest

theorem not_throughout_of_runFrom {M : Machine state action}
    {P : state -> Prop} [DecidablePred P] {s : state}
    {trace rest : List action}
    (hrun : (M.runFrom s trace).any (fun s' => !decide (P s')) = true) :
    ¬M.Throughout P s (trace ++ rest) := by
  intro h
  cases hs : M.runFrom s trace with
  | none =>
      rw [hs] at hrun
      cases hrun
  | some s' =>
      rw [hs] at hrun
      have hfails : ¬P s' := by simpa using hrun
      exact hfails (h.of_runFrom hs)

theorem throughout_of_eachStep {M : Machine state action}
    {Inv P : state -> Prop} {guard : state -> action -> state -> Prop}
    (himp : forall s, Inv s -> P s)
    (hkeep : forall s a s', Inv s -> M.step s a = some s' -> guard s a s' ->
      Inv s')
    {s : state} {trace : List action} (hs : Inv s)
    (h : M.EachStep guard s trace) :
    M.Throughout P s trace := by
  induction trace generalizing s with
  | nil => exact himp s hs
  | cons a rest ih =>
      constructor
      · exact himp s hs
      intro s' hstep
      rcases h s' hstep with ⟨hguard, hrest⟩
      exact ih (hkeep s a s' hs hstep hguard) hrest

theorem throughout_iff_eachStep {M : Machine state action}
    {Inv P : state -> Prop} {guard : state -> action -> state -> Prop}
    (himp : forall s, Inv s -> P s)
    (hkeep : forall s a s', Inv s -> M.step s a = some s' -> guard s a s' ->
      Inv s')
    (hback : forall s a s', P s -> M.step s a = some s' -> P s' ->
      guard s a s')
    {s : state} {trace : List action} (hs : Inv s) :
    M.Throughout P s trace <-> M.EachStep guard s trace := by
  constructor
  · intro h
    clear hs
    induction trace generalizing s with
    | nil => trivial
    | cons a rest ih =>
        intro s' hstep
        have hrest := h.2 s' hstep
        exact ⟨hback s a s' h.1 hstep hrest.head, ih hrest⟩
  · intro h
    exact throughout_of_eachStep himp hkeep hs h

theorem eachStep_of_eachStep {M : Machine state action} {Inv : state -> Prop}
    {Q R : state -> action -> state -> Prop}
    (hgives : forall s a s', Inv s -> M.step s a = some s' -> Q s a s' ->
      R s a s')
    (hkeep : forall s a s', Inv s -> M.step s a = some s' -> Q s a s' ->
      Inv s')
    {s : state} {trace : List action} (hs : Inv s)
    (h : M.EachStep Q s trace) :
    M.EachStep R s trace := by
  induction trace generalizing s with
  | nil => trivial
  | cons a rest ih =>
      intro s' hstep
      rcases h s' hstep with ⟨hQ, hrest⟩
      exact ⟨hgives s a s' hs hstep hQ, ih (hkeep s a s' hs hstep hQ) hrest⟩

theorem eachStep_iff_eachStep {M : Machine state action} {Inv : state -> Prop}
    {Q R : state -> action -> state -> Prop}
    (hiff : forall s a s', Inv s -> M.step s a = some s' ->
      (Q s a s' <-> R s a s'))
    (hkeep : forall s a s', Inv s -> M.step s a = some s' -> Q s a s' ->
      Inv s')
    {s : state} {trace : List action} (hs : Inv s) :
    M.EachStep Q s trace <-> M.EachStep R s trace := by
  constructor
  · exact eachStep_of_eachStep
      (fun s a s' hs hstep => (hiff s a s' hs hstep).mp) hkeep hs
  · exact eachStep_of_eachStep
      (fun s a s' hs hstep => (hiff s a s' hs hstep).mpr)
      (fun s a s' hs hstep hR =>
        hkeep s a s' hs hstep ((hiff s a s' hs hstep).mpr hR)) hs

theorem eachStep_of_forall {M : Machine state action}
    {Q : state -> action -> state -> Prop} (h : forall s a s', Q s a s')
    (s : state) (trace : List action) :
    M.EachStep Q s trace := by
  induction trace generalizing s with
  | nil => trivial
  | cons a rest ih => exact fun s' _ => ⟨h s a s', ih s'⟩

/-!
## History variables

A machine that also keeps a history of its steps takes the same steps.
-/

def recording {history : Type} (M : Machine state action) (start : history)
    (note : state -> action -> state -> history -> history) :
    Machine (state × history) action where
  init := (M.init, start)
  step := fun s a => (M.step s.1 a).map fun s' => (s', note s.1 a s' s.2)

section

variable {history : Type} {M : Machine state action} {start : history}
  {note : state -> action -> state -> history -> history}

theorem recording_reachableUnder {guard : state -> action -> Prop}
    {s : state × history}
    (h : (M.recording start note).ReachableUnder (fun s a => guard s.1 a) s) :
    M.ReachableUnder guard s.1 := by
  induction h with
  | init => exact ReachableUnder.init
  | step _ hguard hstep ih =>
      rcases Option.map_eq_some_iff.mp hstep with ⟨s', hs', rfl⟩
      exact ReachableUnder.step ih hguard hs'

theorem recording_step {s s' : state × history} {a : action}
    (h : (M.recording start note).step s a = some s') :
    M.step s.1 a = some s'.1 ∧ s'.2 = note s.1 a s'.1 s.2 := by
  rcases Option.map_eq_some_iff.mp h with ⟨next, hnext, rfl⟩
  exact ⟨hnext, rfl⟩

theorem recording_eachStep {Q : state -> action -> state -> Prop}
    {s : state × history} {trace : List action} :
    (M.recording start note).EachStep (fun s a s' => Q s.1 a s'.1) s trace <->
      M.EachStep Q s.1 trace := by
  induction trace generalizing s with
  | nil => exact Iff.rfl
  | cons a rest ih =>
      constructor
      · intro h s' hstep
        have hrecorded : (M.recording start note).step s a =
            some (s', note s.1 a s' s.2) := by
          show (M.step s.1 a).map _ = _
          rw [hstep]
          rfl
        rcases h _ hrecorded with ⟨hQ, hrest⟩
        exact ⟨hQ, ih.mp hrest⟩
      · intro h s' hstep
        rcases h s'.1 (recording_step hstep).1 with ⟨hQ, hrest⟩
        exact ⟨hQ, ih.mpr hrest⟩

theorem recording_reachable {s : state × history}
    (h : (M.recording start note).Reachable s) :
    M.Reachable s.1 :=
  recording_reachableUnder h

theorem recordingInvariantUnder {guard : state -> action -> Prop}
    {P : state -> history -> Prop} (hinit : P M.init start)
    (hstep : forall s past a s', M.ReachableUnder guard s -> P s past ->
      guard s a -> M.step s a = some s' -> P s' (note s a s' past))
    {s : state × history}
    (h : (M.recording start note).ReachableUnder (fun s a => guard s.1 a) s) :
    P s.1 s.2 := by
  refine invariantUnder (P := fun s => P s.1 s.2) hinit ?_ h
  intro s a s' hreach hs hguard hs'
  rcases Option.map_eq_some_iff.mp hs' with ⟨next, hnext, rfl⟩
  exact hstep s.1 s.2 a next (recording_reachableUnder hreach) hs hguard hnext

theorem recordingInvariant {P : state -> history -> Prop}
    (hinit : P M.init start)
    (hstep : forall s past a s', M.Reachable s -> P s past ->
      M.step s a = some s' -> P s' (note s a s' past))
    {s : state × history} (h : (M.recording start note).Reachable s) :
    P s.1 s.2 :=
  @recordingInvariantUnder _ _ _ M start note (fun _ _ => True) P hinit
    (fun s past a s' hreach hs _ hs' => hstep s past a s' hreach hs hs') s h

end

end Machine

end Foundation
end NginLog
