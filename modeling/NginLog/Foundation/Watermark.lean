import Mathlib.Algebra.BigOperators.Group.Finset.Basic
import Mathlib.Algebra.Order.BigOperators.Group.Finset
import Mathlib.Order.Lattice.Nat

/-!
# A high watermark kept without a lock

The members of a family enter a room one at a time.  After entering, a member
reads the size of the room and raises the mark to what it has read, while the
others come and go.  The mark alone need not cover the room, but with one more
place for each member that has entered and not yet raised the mark it does.
-/

namespace NginLog
namespace Foundation
namespace Watermark

/-- How far a member has come with its entry. -/
inductive Stage where
  | idle
  | entered
  | sampled (depth : Nat)

def Stage.busy : Stage -> Nat
  | Stage.idle => 0
  | _ => 1

/-- What the member is going to raise the mark to. -/
def Stage.depth : Stage -> Nat
  | Stage.sampled depth => depth
  | _ => 0

def Stage.isSampled : Stage -> Bool
  | Stage.sampled _ => true
  | _ => false

@[simp] theorem Stage.busy_idle : Stage.idle.busy = 0 := rfl

@[simp] theorem Stage.busy_entered : Stage.entered.busy = 1 := rfl

@[simp] theorem Stage.busy_sampled (depth : Nat) :
    (Stage.sampled depth).busy = 1 := rfl

@[simp] theorem Stage.depth_sampled (depth : Nat) :
    (Stage.sampled depth).depth = depth := rfl

inductive Move (size mark : Nat) : Stage -> Stage -> Nat -> Nat -> Prop where
  | stay {stage : Stage} {size' : Nat} :
      size' ≤ size -> Move size mark stage stage size' mark
  | enter : Move size mark Stage.idle Stage.entered (size + 1) mark
  | sample : Move size mark Stage.entered (Stage.sampled size) size mark
  | leave {depth : Nat} :
      Move size mark (Stage.sampled depth) Stage.idle size (max mark depth)

theorem Move.bounded {bound size mark size' mark' : Nat} {stage stage' : Stage}
    (h : Move size mark stage stage' size' mark') (hsize : size ≤ bound)
    (hmark : mark ≤ bound) (hdepth : stage.depth ≤ bound) :
    mark' ≤ bound ∧ stage'.depth ≤ bound := by
  cases h with
  | stay _ => exact ⟨hmark, hdepth⟩
  | enter => exact ⟨hmark, Nat.zero_le bound⟩
  | sample => exact ⟨hmark, hsize⟩
  | leave => exact ⟨Nat.max_le.mpr ⟨hmark, hdepth⟩, Nat.zero_le bound⟩

section

variable {index : Type} [DecidableEq index] {stage : index -> Stage}

theorem sup_depth_update {left : Finset index} {i : index} (hi : i ∉ left)
    (new : Stage) :
    (left.sup fun j => (Function.update stage i new j).depth) =
      left.sup fun j => (stage j).depth :=
  Finset.sup_congr rfl fun j hj => by
    have hji : j ≠ i := fun heq => hi (heq ▸ hj)
    rw [Function.update_of_ne hji]

theorem isSampled_update {left : Finset index} {i : index} (hi : i ∉ left)
    {new : Stage}
    (h : forall j, j ∈ left -> (Function.update stage i new j).isSampled = true) :
    forall j, j ∈ left -> (stage j).isSampled = true := by
  intro j hj
  have hji : j ≠ i := fun heq => hi (heq ▸ hj)
  have hsampled := h j hj
  rwa [Function.update_of_ne hji] at hsampled

variable [Fintype index]

/--
Any members that have sampled may be left out, if the mark is raised to what
they are going to raise it to.
-/
def Covered (size mark : Nat) (stage : index -> Stage) : Prop :=
  forall left : Finset index, (forall i, i ∈ left -> (stage i).isSampled = true) ->
    size ≤ max mark (left.sup fun i => (stage i).depth) +
      ∑ i ∈ leftᶜ, (stage i).busy

variable {size mark size' mark' : Nat}

theorem Covered.size_le (h : Covered size mark stage) :
    size ≤ mark + ∑ i, (stage i).busy := by
  have hall := h ∅ (fun i hi => absurd hi (Finset.notMem_empty i))
  simpa using hall

theorem sum_busy_update (stage : index -> Stage) {left : Finset index}
    {i : index} (hi : i ∉ left) (new : Stage) :
    (∑ j ∈ leftᶜ, (Function.update stage i new j).busy) + (stage i).busy =
      (∑ j ∈ leftᶜ, (stage j).busy) + new.busy := by
  have hmem : i ∈ leftᶜ := Finset.mem_compl.mpr hi
  have hrest : (∑ j ∈ leftᶜ.erase i, (Function.update stage i new j).busy) =
      ∑ j ∈ leftᶜ.erase i, (stage j).busy :=
    Finset.sum_congr rfl fun j hj => by
      rw [Function.update_of_ne (Finset.ne_of_mem_erase hj)]
  rw [← Finset.add_sum_erase _ _ hmem, ← Finset.add_sum_erase leftᶜ _ hmem,
    Function.update_self, hrest]
  omega

theorem Covered.move (h : Covered size mark stage) {i : index} {new : Stage}
    (hmove : Move size mark (stage i) new size' mark') :
    Covered size' mark' (Function.update stage i new) := by
  intro left hleft
  generalize hold : stage i = old at hmove
  cases hmove with
  | stay hsize =>
      rw [← hold, Function.update_eq_self] at hleft ⊢
      exact Nat.le_trans hsize (h left hleft)
  | enter =>
      have hi : i ∉ left := fun hmem => by simpa [Stage.isSampled] using hleft i hmem
      have hsum := sum_busy_update stage hi Stage.entered
      have hcovered := h left (isSampled_update hi hleft)
      rw [sup_depth_update hi]
      simp only [hold, Stage.busy_idle, Stage.busy_entered] at hsum
      omega
  | sample =>
      by_cases hi : i ∈ left
      · have hdepth := Finset.le_sup (f := fun j =>
          (Function.update stage i (Stage.sampled size) j).depth) hi
        simp only [Function.update_self, Stage.depth_sampled] at hdepth
        omega
      · have hsum := sum_busy_update stage hi (Stage.sampled size)
        have hcovered := h left (isSampled_update hi hleft)
        rw [sup_depth_update hi]
        simp only [hold, Stage.busy_entered, Stage.busy_sampled] at hsum
        omega
  | leave =>
      -- The member that leaves has raised the mark, so leave it out as well.
      rename_i depth
      have hi : i ∉ left := fun hmem => by simpa [Stage.isSampled] using hleft i hmem
      have hsampled := isSampled_update hi hleft
      have hcovered := h (insert i left) fun j hj => by
        rcases Finset.mem_insert.mp hj with rfl | hj
        · rw [hold]
          rfl
        · exact hsampled j hj
      have hsum := Finset.add_sum_erase leftᶜ (fun j => (stage j).busy)
        (Finset.mem_compl.mpr hi)
      have hnew := sum_busy_update stage hi Stage.idle
      rw [Finset.sup_insert, Finset.compl_insert, hold] at hcovered
      rw [sup_depth_update hi]
      simp only [hold, Stage.busy_idle, Stage.busy_sampled,
        Stage.depth_sampled] at hsum hnew hcovered
      omega

theorem Covered.mono (h : Covered size mark stage) (hsize : size' ≤ size) :
    Covered size' mark stage :=
  fun left hleft => Nat.le_trans hsize (h left hleft)

end

/-!
## The largest size so far
-/

structure Peak where
  largest : Nat := 0
  sampled : Nat := 0

/-- The peak after a step to a new size that may have changed one stage. -/
def Peak.after (p : Peak) (size' : Nat) (stage stage' : Stage) : Peak where
  largest := max p.largest size'
  sampled :=
    match stage, stage' with
    | Stage.entered, Stage.sampled depth => max p.sampled depth
    | _, _ => p.sampled

theorem Peak.after_same (p : Peak) {size' : Nat} (stage : Stage)
    (h : size' ≤ p.largest) : p.after size' stage stage = p := by
  cases stage <;> simp only [Peak.after, Nat.max_eq_left h]

/-- The mark lags behind what has been read only while some member brings it. -/
structure Peak.Tracks {index : Type} (p : Peak) (size mark : Nat)
    (stage : index -> Stage) : Prop where
  size_le : size ≤ p.largest
  sampled_le : p.sampled ≤ p.largest
  mark_le : mark ≤ p.sampled
  depth_le : forall i, (stage i).depth ≤ p.sampled
  held : p.sampled = mark ∨ exists i, stage i = Stage.sampled p.sampled

/-- The peak has been read, or lasts and a member is about to read it. -/
def Peak.Covered {index : Type} (p : Peak) (size : Nat)
    (stage : index -> Stage) : Prop :=
  p.sampled = p.largest ∨
    (size = p.largest ∧ exists i, stage i = Stage.entered)

section

variable {index : Type} {stage : index -> Stage} {p : Peak}
  {size mark size' mark' : Nat}

theorem Peak.Tracks.mono (h : p.Tracks size mark stage) (hsize : size' ≤ size) :
    p.Tracks size' mark stage :=
  { h with size_le := Nat.le_trans hsize h.size_le }

theorem Peak.Covered.mono (h : p.Covered size stage) (hsize : size' ≤ size)
    (hguard : size' < size -> size = p.largest -> p.sampled = p.largest) :
    p.Covered size' stage := by
  rcases h with hread | ⟨hpeak, hentered⟩
  · exact Or.inl hread
  · rcases Nat.eq_or_lt_of_le hsize with heq | hlt
    · exact Or.inr ⟨heq.trans hpeak, hentered⟩
    · exact Or.inl (hguard hlt hpeak)

theorem Peak.Tracks.mark_eq (h : p.Tracks size mark stage)
    (hidle : forall i, stage i = Stage.idle) : mark = p.sampled := by
  rcases h.held with hmark | ⟨i, hi⟩
  · exact hmark.symm
  · rw [hidle i] at hi
    cases hi

variable [DecidableEq index]

theorem depth_update_le {bound : Nat} (h : forall i, (stage i).depth ≤ bound)
    (i : index) {new : Stage} (hnew : new.depth ≤ bound) (j : index) :
    (Function.update stage i new j).depth ≤ bound := by
  by_cases hj : j = i
  · rw [hj, Function.update_self]
    exact hnew
  · rw [Function.update_of_ne hj]
    exact h j

theorem exists_update {i : index} {old : Stage} (h : exists j, stage j = old)
    (hne : stage i ≠ old) (new : Stage) :
    exists j, Function.update stage i new j = old := by
  rcases h with ⟨j, hj⟩
  have hji : j ≠ i := fun heq => hne (heq ▸ hj)
  exists j
  rw [Function.update_of_ne hji]
  exact hj

theorem Peak.Tracks.move (h : p.Tracks size mark stage) {i : index}
    {new : Stage} (hmove : Move size mark (stage i) new size' mark') :
    (p.after size' (stage i) new).Tracks size' mark'
      (Function.update stage i new) := by
  generalize hold : stage i = old at hmove
  have hdepth := h.depth_le i
  rw [hold] at hdepth
  cases hmove with
  | stay hsize =>
      rw [p.after_same new (Nat.le_trans hsize h.size_le), ← hold,
        Function.update_eq_self]
      exact h.mono hsize
  | enter =>
      constructor
      · exact Nat.le_max_right _ _
      · exact Nat.le_trans h.sampled_le (Nat.le_max_left _ _)
      · exact h.mark_le
      · exact depth_update_le h.depth_le i (Nat.zero_le _)
      · exact h.held.imp_right fun hheld =>
          exists_update hheld (by rw [hold]; exact Stage.noConfusion) _
  | sample =>
      constructor
      · exact Nat.le_max_right _ _
      · exact max_le_max h.sampled_le (Nat.le_refl _)
      · exact Nat.le_trans h.mark_le (Nat.le_max_left _ _)
      · exact depth_update_le
          (fun j => Nat.le_trans (h.depth_le j) (Nat.le_max_left _ _)) i
          (Nat.le_max_right _ _)
      · show max p.sampled size = mark ∨ _
        rcases Nat.le_total p.sampled size with hsize | hsize
        · right
          exists i
          rw [Function.update_self]
          exact congrArg Stage.sampled (Nat.max_eq_right hsize).symm
        · rw [Nat.max_eq_left hsize]
          refine h.held.imp_right fun hheld => ?_
          have hstays := exists_update hheld
            (by rw [hold]; exact Stage.noConfusion) (Stage.sampled size)
          simpa only [Peak.after, Nat.max_eq_left hsize] using hstays
  | @leave depth =>
      have hle : depth ≤ p.sampled := hdepth
      constructor
      · exact Nat.le_max_right _ _
      · exact Nat.le_trans h.sampled_le (Nat.le_max_left _ _)
      · exact Nat.max_le.mpr ⟨h.mark_le, hle⟩
      · exact depth_update_le h.depth_le i (Nat.zero_le _)
      · -- If this member brought what has been read, the mark has it now.
        show p.sampled = max mark depth ∨ _
        by_cases hthis : depth = p.sampled
        · exact Or.inl (by rw [hthis, Nat.max_eq_right h.mark_le])
        · rcases h.held with hmark | hheld
          · exact Or.inl (by rw [← hmark, Nat.max_eq_left hle])
          · refine Or.inr (exists_update hheld ?_ _)
            rw [hold, ne_eq, Stage.sampled.injEq]
            exact hthis

theorem Peak.Covered.move (h : p.Covered size stage)
    (htracks : p.Tracks size mark stage) {i : index} {new : Stage}
    (hmove : Move size mark (stage i) new size' mark')
    (hguard : size' < size -> size = p.largest -> p.sampled = p.largest) :
    (p.after size' (stage i) new).Covered size'
      (Function.update stage i new) := by
  generalize hold : stage i = old at hmove
  have hsize := htracks.size_le
  cases hmove with
  | stay hle =>
      rw [p.after_same new (Nat.le_trans hle hsize), ← hold,
        Function.update_eq_self]
      exact h.mono hle hguard
  | enter =>
      rcases Nat.lt_or_ge size p.largest with hlt | hge
      · have hlargest : max p.largest (size + 1) = p.largest :=
          Nat.max_eq_left hlt
        refine Or.inl ?_
        show p.sampled = max p.largest (size + 1)
        rw [hlargest]
        rcases h with hread | ⟨hpeak, _⟩
        · exact hread
        · omega
      · refine Or.inr ⟨?_, i, Function.update_self i _ stage⟩
        show size + 1 = max p.largest (size + 1)
        omega
  | sample =>
      refine Or.inl ?_
      show max p.sampled size = max p.largest size
      rcases h with hread | ⟨hpeak, _⟩
      · rw [hread]
      · have hsampled := htracks.sampled_le
        omega
  | leave =>
      have hlargest : max p.largest size = p.largest := Nat.max_eq_left hsize
      rcases h with hread | ⟨hpeak, hentered⟩
      · refine Or.inl ?_
        show p.sampled = max p.largest size
        rw [hlargest, hread]
      · refine Or.inr ⟨?_, ?_⟩
        · show size = max p.largest size
          rw [hlargest, hpeak]
        · exact exists_update hentered
            (by rw [hold]; exact Stage.noConfusion) _

end

end Watermark
end Foundation
end NginLog
