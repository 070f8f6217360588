import NginLog.Context.Scopes

/-!
# Pushing when allocations fail

`PushLogContext` makes room for all attributes and then copies one after the
other.  Any of its allocations may throw.  The object that would take the copied
attributes back is made last, so those that were copied before the throw stay.
-/

namespace NginLog
namespace Context

open Foundation Record

/-- The allocations of one call, the copies by the attribute's index. -/
inductive Allocation where
  | reserve
  | key (index : Nat)
  | value (index : Nat)
deriving DecidableEq

def copyAttribute (fails : Allocation -> Bool) (index : Nat)
    (a : ContextAttribute) : Option ContextAttribute :=
  if fails (Allocation.key index) then
    none
  else
    match a.value with
    | AttributeValue.text _ =>
        if fails (Allocation.value index) then none else some a
    | _ => some a

/--
The loop of `PushLogContext`: the vector after it, and whether it came to its
end.  A throwing `push_back` leaves the vector as it was.
-/
def pushBackAll (fails : Allocation -> Bool) :
    Nat -> List ContextAttribute -> List ContextAttribute ->
      List ContextAttribute × Bool
  | _, [], storage => (storage, true)
  | index, a :: rest, storage =>
      match copyAttribute fails index a with
      | none => (storage, false)
      | some copy => pushBackAll fails (index + 1) rest (storage ++ [copy])

/-- `PushLogContext`: the vector after it, and the object if it returns one. -/
def pushLogContext (fails : Allocation -> Bool)
    (storage attributes : List ContextAttribute) :
    List ContextAttribute × Option ScopedLogContext :=
  let start := storage.length
  if fails Allocation.reserve then
    (storage, none)
  else
    let pushed := pushBackAll fails 0 attributes storage
    (pushed.1, if pushed.2 then some { start := start } else none)

/-!
## The copies
-/

def CopyFails (fails : Allocation -> Bool) (index : Nat)
    (a : ContextAttribute) : Prop :=
  fails (Allocation.key index) = true ∨
    (exists text, a.value = AttributeValue.text text) ∧
      fails (Allocation.value index) = true

structure StopsAt (fails : Allocation -> Bool) (index : Nat)
    (attributes : List ContextAttribute) (count : Nat) : Prop where
  within : count ≤ attributes.length
  before : forall i a, i < count -> attributes[i]? = some a ->
    ¬ CopyFails fails (index + i) a
  here : forall a, attributes[count]? = some a ->
    CopyFails fails (index + count) a

variable {fails : Allocation -> Bool}

theorem copyAttribute_of_fails {index : Nat} {a : ContextAttribute}
    (h : CopyFails fails index a) :
    copyAttribute fails index a = none := by
  unfold copyAttribute
  split
  · rfl
  · rename_i hkey
    rcases h with hfails | ⟨⟨text, htext⟩, hvalue⟩
    · exact absurd hfails hkey
    · rw [htext]
      exact if_pos hvalue

theorem copyAttribute_of_not_fails {index : Nat} {a : ContextAttribute}
    (h : ¬ CopyFails fails index a) :
    copyAttribute fails index a = some a := by
  unfold copyAttribute
  split
  · rename_i hkey
    exact absurd (Or.inl hkey) h
  · split
    · rename_i text htext
      exact if_neg fun hvalue => h (Or.inr ⟨⟨text, htext⟩, hvalue⟩)
    · rfl

theorem stopsAt_zero {index : Nat} {attributes : List ContextAttribute}
    (h : forall a, attributes[0]? = some a -> CopyFails fails index a) :
    StopsAt fails index attributes 0 where
  within := Nat.zero_le _
  before := fun i _ hi => absurd hi (Nat.not_lt_zero i)
  here := h

theorem StopsAt.cons {index count : Nat} {a : ContextAttribute}
    {rest : List ContextAttribute} (h : StopsAt fails (index + 1) rest count)
    (hcopied : ¬ CopyFails fails index a) :
    StopsAt fails index (a :: rest) (count + 1) := by
  refine ⟨Nat.succ_le_succ h.within, ?_, ?_⟩
  · intro i other hi hother
    cases i with
    | zero =>
        cases hother
        exact hcopied
    | succ i =>
        rw [Nat.add_comm i 1, ← Nat.add_assoc]
        exact h.before i other (Nat.lt_of_succ_lt_succ hi) hother
  · intro other hother
    rw [Nat.add_comm count 1, ← Nat.add_assoc]
    exact h.here other hother

theorem pushBackAll_spec (index : Nat)
    (attributes storage : List ContextAttribute) :
    exists count, StopsAt fails index attributes count ∧
      pushBackAll fails index attributes storage =
        (storage ++ attributes.take count,
          decide (count = attributes.length)) := by
  induction attributes generalizing index storage with
  | nil =>
      refine ⟨0, stopsAt_zero fun a hnone => ?_, ?_⟩
      · cases hnone
      · rw [List.take_nil, List.append_nil]
        rfl
  | cons a rest ih =>
      by_cases hfails : CopyFails fails index a
      · refine ⟨0, stopsAt_zero fun other hother => ?_, ?_⟩
        · cases hother
          exact hfails
        · rw [pushBackAll, copyAttribute_of_fails hfails, List.take_zero,
            List.append_nil]
          rfl
      · rcases ih (index + 1) (storage ++ [a]) with
          ⟨count, hstops, hpushed⟩
        refine ⟨count + 1, hstops.cons hfails, ?_⟩
        rw [pushBackAll, copyAttribute_of_not_fails hfails]
        show pushBackAll fails (index + 1) rest (storage ++ [a]) = _
        rw [hpushed, List.append_assoc, List.take_succ_cons]
        simp

namespace StopsAt

variable {index count : Nat} {attributes : List ContextAttribute}

theorem eq_length_iff (h : StopsAt fails index attributes count) :
    count = attributes.length <->
      forall i a, attributes[i]? = some a ->
        ¬ CopyFails fails (index + i) a := by
  constructor
  · rintro rfl i a ha
    have hi : i < attributes.length := (List.getElem?_eq_some_iff.mp ha).1
    exact h.before i a hi ha
  · intro hcopies
    refine Nat.le_antisymm h.within (Nat.le_of_not_lt fun hlt => ?_)
    have hsome := List.getElem?_eq_getElem hlt
    exact hcopies count _ hsome (h.here _ hsome)

theorem first_fails_iff (h : StopsAt fails index attributes count) :
    (exists a, attributes[0]? = some a ∧ CopyFails fails index a) <->
      count = 0 ∧ count ≠ attributes.length := by
  constructor
  · rintro ⟨a, ha, hfails⟩
    have hlength : 0 < attributes.length :=
      (List.getElem?_eq_some_iff.mp ha).1
    have hzero : count = 0 := by
      refine Nat.eq_zero_of_not_pos fun hpos => ?_
      exact h.before 0 a hpos ha hfails
    exact ⟨hzero, by omega⟩
  · rintro ⟨rfl, hlength⟩
    have hpos : 0 < attributes.length := by omega
    exact ⟨_, List.getElem?_eq_getElem hpos,
      h.here _ (List.getElem?_eq_getElem hpos)⟩

end StopsAt

/-!
## A call
-/

/-- If the call exits by an exception, the context is as it was before. -/
def AllOrNothing (storage : List ContextAttribute)
    (result : List ContextAttribute × Option ScopedLogContext) : Prop :=
  result.2 = none -> result.1 = storage

theorem step_eq_pushLogContext {s : ThreadContext} {target : Nat}
    {attributes : List ContextAttribute} (hfree : s.objects target = none)
    (hreserve : fails Allocation.reserve = false)
    (hcopies : forall i a, attributes[i]? = some a ->
      ¬ CopyFails fails i a) :
    s.step (Action.pushLogContext target attributes) =
      some
        { storage := (pushLogContext fails s.storage attributes).1
          objects := Function.update s.objects target
            (pushLogContext fails s.storage attributes).2
          scopes := s.scopes ++
            [{ owner := target
               start := s.storage.length
               attributes := attributes }] } := by
  rcases @pushBackAll_spec fails 0 attributes s.storage with
    ⟨count, hstops, hpushed⟩
  have hcount : count = attributes.length :=
    hstops.eq_length_iff.mpr fun i a ha => by
      rw [Nat.zero_add]
      exact hcopies i a ha
  subst hcount
  rw [List.take_length] at hpushed
  simp [ThreadContext.step, hfree, pushLogContext, hreserve, hpushed]

/--
The call is all or nothing just if the allocation that fails, if one does, is
that of the room or one for the first attribute.
-/
theorem pushLogContext_allOrNothing_iff (fails : Allocation -> Bool)
    (storage attributes : List ContextAttribute) :
    AllOrNothing storage (pushLogContext fails storage attributes) <->
      fails Allocation.reserve = true ∨
        (exists a, attributes[0]? = some a ∧
          CopyFails fails 0 a) ∨
        (forall i a, attributes[i]? = some a ->
          ¬ CopyFails fails i a) := by
  rcases @pushBackAll_spec fails 0 attributes storage with
    ⟨count, hstops, hpushed⟩
  have hcompleted := hstops.eq_length_iff
  simp only [Nat.zero_add] at hcompleted
  have hnil : attributes = [] -> count = attributes.length := by
    rintro rfl
    exact Nat.le_zero.mp hstops.within
  rw [hstops.first_fails_iff, ← hcompleted]
  unfold AllOrNothing pushLogContext
  by_cases hreserve : fails Allocation.reserve = true
  · simp [hreserve]
  by_cases hcount : count = attributes.length
  · simp [hreserve, hpushed, hcount]
  · have hnothing : attributes.take count = [] <-> count = 0 := by
      rw [List.take_eq_nil_iff]
      exact or_iff_left fun hempty => hcount (hnil hempty)
    simp [hreserve, hpushed, hcount, hnothing]

def secondKeyFails : Allocation -> Bool
  | Allocation.key 1 => true
  | _ => false

/-- The first attribute stays, and there is no object to take it back. -/
theorem push_leaves_attribute :
    ¬ AllOrNothing []
      (pushLogContext secondKeyFails []
        [ { key := ascii "request", value := AttributeValue.int64 7 },
          { key := ascii "correlation-identifier" } ]) :=
  fun h => List.cons_ne_nil _ _ (h rfl)

end Context
end NginLog
