import Mathlib.Data.List.Infix
import Mathlib.Logic.Function.Basic

/-!
# Directories and numbered series

A directory maps names to files.  A series is a directory whose names are
numbers, with the active file at zero.  A rotation drops the file with the
highest number, moves every other one up, highest first, and starts a new
active file.  Any of its operations may fail, and then leaves the files alone.

A file is a list of items here, whatever the items are: the same rotation moves
bytes and moves records.
-/

namespace NginLog
namespace Foundation

abbrev Directory (name file : Type) := name -> Option file

namespace Directory

variable {name other file file' : Type} [DecidableEq name] [DecidableEq other]

def store (d : Directory name file) (n : name) (f : file) :
    Directory name file :=
  Function.update d n (some f)

def remove (d : Directory name file) (n : name) : Directory name file :=
  Function.update d n none

def rename (d : Directory name file) (source target : name) :
    Directory name file :=
  match d source with
  | none => d
  | some f => (d.remove source).store target f

def map (f : file -> file') (d : Directory name file) : Directory name file' :=
  fun n => (d n).map f

def through (f : other -> name) (d : Directory name file) :
    Directory other file :=
  fun n => d (f n)

@[simp] theorem store_self (d : Directory name file) (n : name) (f : file) :
    d.store n f n = some f :=
  Function.update_self ..

@[simp] theorem remove_self (d : Directory name file) (n : name) :
    d.remove n n = none :=
  Function.update_self ..

theorem store_of_ne (d : Directory name file) (f : file) {n m : name}
    (h : m ≠ n) :
    d.store n f m = d m :=
  Function.update_of_ne h ..

theorem remove_of_ne (d : Directory name file) {n m : name} (h : m ≠ n) :
    d.remove n m = d m :=
  Function.update_of_ne h ..

theorem rename_of_none {d : Directory name file} {source : name}
    (h : d source = none) (target : name) :
    d.rename source target = d := by
  simp only [rename, h]

theorem rename_of_some {d : Directory name file} {source : name} {f : file}
    (h : d source = some f) (target : name) :
    d.rename source target = (d.remove source).store target f := by
  simp only [rename, h]

theorem rename_of_ne (d : Directory name file) {source target n : name}
    (hsource : n ≠ source) (htarget : n ≠ target) :
    d.rename source target n = d n := by
  cases hd : d source with
  | none => rw [rename_of_none hd]
  | some f =>
      rw [rename_of_some hd, store_of_ne _ _ htarget, remove_of_ne _ hsource]

theorem rename_cases (d : Directory name file) (source target n : name) :
    d.rename source target n = d n ∨ d.rename source target n = none ∨
      d.rename source target n = d source := by
  cases hd : d source with
  | none => exact Or.inl (by rw [rename_of_none hd])
  | some f =>
      rw [rename_of_some hd]
      by_cases htarget : n = target
      · subst htarget
        exact Or.inr (Or.inr (store_self ..))
      · rw [store_of_ne _ _ htarget]
        by_cases hsource : n = source
        · subst hsource
          exact Or.inr (Or.inl (remove_self ..))
        · exact Or.inl (remove_of_ne _ hsource)

/-!
## Other names and other files
-/

section

variable {f : other -> name} (hf : Function.Injective f)

include hf

theorem through_store (d : Directory name file) (n : other) (x : file) :
    (d.store (f n) x).through f = (d.through f).store n x :=
  Function.update_comp_eq_of_injective d hf n (some x)

theorem through_remove (d : Directory name file) (n : other) :
    (d.remove (f n)).through f = (d.through f).remove n :=
  Function.update_comp_eq_of_injective d hf n none

theorem through_rename (d : Directory name file) (source target : other) :
    (d.rename (f source) (f target)).through f =
      (d.through f).rename source target := by
  cases hd : d (f source) with
  | none => rw [rename_of_none hd, rename_of_none (d := d.through f) hd]
  | some x =>
      rw [rename_of_some hd, rename_of_some (d := d.through f) hd,
        through_store hf, through_remove hf]

end

theorem map_store (g : file -> file') (d : Directory name file) (n : name)
    (x : file) :
    (d.store n x).map g = (d.map g).store n (g x) := by
  funext m
  by_cases h : m = n
  · subst h
    simp [map]
  · simp [map, store_of_ne _ _ h]

theorem map_remove (g : file -> file') (d : Directory name file) (n : name) :
    (d.remove n).map g = (d.map g).remove n := by
  funext m
  by_cases h : m = n
  · subst h
    simp [map]
  · simp [map, remove_of_ne _ h]

theorem map_rename (g : file -> file') (d : Directory name file)
    (source target : name) :
    (d.rename source target).map g = (d.map g).rename source target := by
  have hseen : d.map g source = (d source).map g := rfl
  cases hd : d source with
  | none =>
      rw [hd] at hseen
      rw [rename_of_none hd, rename_of_none hseen]
  | some x =>
      rw [hd] at hseen
      rw [rename_of_some hd, rename_of_some hseen, map_store, map_remove]

/-!
## Moving a series up

`shift` moves the files numbered below `count` up by one, from the highest one
down, and `shiftPart` makes the first `done` of these moves.
-/

def moveUp (fails : Nat -> Bool) (d : Directory Nat file) (k : Nat) :
    Directory Nat file :=
  if fails k then d else d.rename k (k + 1)

def shift (fails : Nat -> Bool) : Nat -> Directory Nat file -> Directory Nat file
  | 0, d => d
  | count + 1, d => shift fails count (moveUp fails d count)

def shiftPart : Nat -> Nat -> Directory Nat file -> Directory Nat file
  | done + 1, count + 1, d => shiftPart done count (d.rename count (count + 1))
  | _, _, d => d

def Moves (fails : Nat -> Bool) (d : Directory Nat file) (k : Nat) : Prop :=
  (d k).isSome = true ∧ fails k = false

instance (fails : Nat -> Bool) (d : Directory Nat file) (k : Nat) :
    Decidable (Moves fails d k) :=
  inferInstanceAs (Decidable (_ ∧ _))

section

variable {fails : Nat -> Bool} {d : Directory Nat file} {k : Nat}

theorem moveUp_of_moves (h : Moves fails d k) :
    moveUp fails d k k = none ∧ moveUp fails d k (k + 1) = d k := by
  rcases h with ⟨hsome, hfails⟩
  rcases Option.isSome_iff_exists.mp hsome with ⟨f, hf⟩
  have hmove : moveUp fails d k = (d.remove k).store (k + 1) f := by
    rw [moveUp, if_neg (by simp [hfails]), rename_of_some hf]
  rw [hmove, hf]
  exact ⟨by rw [store_of_ne _ _ (Nat.ne_of_lt k.lt_succ_self), remove_self],
    store_self ..⟩

theorem moveUp_of_not_moves (h : ¬ Moves fails d k) : moveUp fails d k = d := by
  unfold moveUp
  split
  · rfl
  · rename_i hfails
    apply rename_of_none
    cases hd : d k with
    | none => rfl
    | some f => exact absurd ⟨by rw [hd]; rfl, by simpa using hfails⟩ h

theorem moveUp_of_ne {n : Nat} (hsource : n ≠ k) (htarget : n ≠ k + 1) :
    moveUp fails d k n = d n := by
  unfold moveUp
  split
  · rfl
  · exact rename_of_ne d hsource htarget

theorem moves_moveUp {n : Nat} (h : n < k) :
    Moves fails (moveUp fails d k) n <-> Moves fails d n := by
  unfold Moves
  rw [moveUp_of_ne (Nat.ne_of_lt h) (by omega)]

end

/-!
What each number stands for after the moves.
-/

theorem shift_above (fails : Nat -> Bool) (d : Directory Nat file)
    {count n : Nat} (h : count < n) :
    shift fails count d n = d n := by
  induction count generalizing d with
  | zero => rfl
  | succ count ih =>
      rw [shift, ih _ (by omega), moveUp_of_ne (by omega) (by omega)]

theorem shift_first (fails : Nat -> Bool) (d : Directory Nat file)
    (count : Nat) :
    shift fails count d 0 =
      if 0 < count ∧ Moves fails d 0 then none else d 0 := by
  induction count generalizing d with
  | zero => simp [shift]
  | succ count ih =>
      rw [shift, ih]
      rcases Nat.eq_zero_or_pos count with rfl | hpos
      · by_cases hmoves : Moves fails d 0
        · simp [hmoves, (moveUp_of_moves hmoves).1]
        · simp [hmoves, moveUp_of_not_moves hmoves]
      · simp [hpos, moves_moveUp hpos, moveUp_of_ne (Nat.ne_of_lt hpos)]

theorem shift_succ (fails : Nat -> Bool) (d : Directory Nat file)
    {count k : Nat} (h : k < count) :
    shift fails count d (k + 1) =
      if Moves fails d k then
        d k
      else if k + 1 < count ∧ Moves fails d (k + 1) then
        none
      else
        d (k + 1) := by
  induction count generalizing d with
  | zero => exact absurd h (Nat.not_lt_zero k)
  | succ count ih =>
      rw [shift]
      rcases Nat.lt_or_ge k count with hlt | hge
      · rw [ih _ hlt]
        simp only [moves_moveUp hlt, moveUp_of_ne (Nat.ne_of_lt hlt)
          (show k ≠ count + 1 by omega)]
        rcases Nat.lt_or_ge (k + 1) count with hnext | hlast
        · have hkeep : moveUp fails d count (k + 1) = d (k + 1) :=
            moveUp_of_ne (Nat.ne_of_lt hnext) (by omega)
          simp [hlt, hnext, moves_moveUp hnext, hkeep]
        · -- The next file up is the one that has just been moved.
          have heq : count = k + 1 := by omega
          subst heq
          by_cases hmoves : Moves fails d (k + 1)
          · simp [hmoves, (moveUp_of_moves hmoves).1]
          · simp [hmoves, moveUp_of_not_moves hmoves]
      · have heq : k = count := by omega
        subst heq
        rw [shift_above _ _ k.lt_succ_self]
        by_cases hmoves : Moves fails d k
        · simp [hmoves, (moveUp_of_moves hmoves).2]
        · simp [hmoves, moveUp_of_not_moves hmoves]

theorem map_shift (g : file -> file') (fails : Nat -> Bool)
    (d : Directory Nat file) (count : Nat) :
    (shift fails count d).map g = shift fails count (d.map g) := by
  induction count generalizing d with
  | zero => rfl
  | succ count ih =>
      rw [shift, shift, ih]
      congr 1
      unfold moveUp
      split
      · rfl
      · exact map_rename ..

theorem map_shiftPart (g : file -> file') (done count : Nat)
    (d : Directory Nat file) :
    (shiftPart done count d).map g = shiftPart done count (d.map g) := by
  induction count generalizing done d with
  | zero => cases done <;> rfl
  | succ count ih =>
      cases done with
      | zero => rfl
      | succ done => rw [shiftPart, shiftPart, ih, map_rename]

end Directory

/-!
## Rotating a series of lists
-/

/-- Numbered files, each a list of items; the active one has number zero. -/
abbrev Series (item : Type) := Directory Nat (List item)

namespace Series

variable {item other : Type}

def activate (keep : Bool) (s : Series item) : Series item :=
  Directory.store s 0 (if keep then (s 0).getD [] else [])

def rotate (keep removeFails : Bool) (renameFails : Nat -> Bool) (limit : Nat)
    (s : Series item) : Series item :=
  activate keep
    (Directory.shift renameFails limit
      (if removeFails then s else Directory.remove s limit))

def extend (s : Series item) (items : List item) : Series item :=
  Directory.store s 0 ((s 0).getD [] ++ items)

/-- The contents of all files up to a number, the oldest ones first. -/
def trail (s : Series item) : Nat -> List item
  | 0 => (s 0).getD []
  | k + 1 => (s (k + 1)).getD [] ++ trail s k

theorem trail_congr {s s' : Series item} {limit : Nat}
    (h : forall k, k ≤ limit -> (s' k).getD [] = (s k).getD []) :
    trail s' limit = trail s limit := by
  induction limit with
  | zero => exact h 0 (Nat.le_refl _)
  | succ k ih =>
      rw [trail, trail, h (k + 1) (Nat.le_refl _),
        ih fun n hn => h n (Nat.le_succ_of_le hn)]

theorem trail_extend (s : Series item) (items : List item) (limit : Nat) :
    trail (s.extend items) limit = trail s limit ++ items := by
  induction limit with
  | zero => simp [trail, extend]
  | succ k ih =>
      rw [trail, trail, ih, extend,
        Directory.store_of_ne _ _ (Nat.succ_ne_zero k), List.append_assoc]

theorem trail_store_active (s : Series item) (limit : Nat) :
    exists upper, trail s limit = upper ++ (s 0).getD [] ∧
      forall items, trail (Directory.store s 0 items) limit =
        upper ++ items := by
  induction limit with
  | zero => exact ⟨[], rfl, fun items => by simp [trail]⟩
  | succ k ih =>
      rcases ih with ⟨upper, hs, hstore⟩
      refine ⟨(s (k + 1)).getD [] ++ upper, ?_, fun items => ?_⟩
      · rw [trail, hs, List.append_assoc]
      · rw [trail, hstore, Directory.store_of_ne _ _ (Nat.succ_ne_zero k),
          List.append_assoc]

theorem getD_activate (s : Series item) (k : Nat) :
    (s.activate true k).getD [] = (s k).getD [] := by
  by_cases hk : k = 0
  · subst hk
    simp [activate]
  · rw [activate, Directory.store_of_ne _ _ hk]

theorem trail_activate (s : Series item) (limit : Nat) :
    trail (s.activate true) limit = trail s limit :=
  trail_congr fun k _ => getD_activate s k

/-!
A rotation, file by file.
-/

section

variable (keep removeFails : Bool) (renameFails : Nat -> Bool) {limit : Nat}
  (s : Series item)

theorem dropLast_below {k : Nat} (hk : k < limit) :
    (if removeFails then s else Directory.remove s limit) k = s k := by
  split
  · rfl
  · exact Directory.remove_of_ne _ (Nat.ne_of_lt hk)

theorem moves_dropLast {k : Nat} (hk : k < limit) :
    Directory.Moves renameFails
        (if removeFails then s else Directory.remove s limit) k <->
      Directory.Moves renameFails s k := by
  unfold Directory.Moves
  rw [dropLast_below removeFails s hk]

theorem rotate_active (hlimit : 1 ≤ limit) :
    s.rotate keep removeFails renameFails limit 0 =
      some (if keep = true ∧ ¬ Directory.Moves renameFails s 0 then
        (s 0).getD [] else []) := by
  unfold rotate activate
  rw [Directory.store_self, Directory.shift_first,
    dropLast_below removeFails s hlimit]
  simp only [moves_dropLast removeFails renameFails s hlimit]
  congr 1
  cases keep with
  | false => simp
  | true =>
      by_cases hm : Directory.Moves renameFails s 0
      · simp [hm, Nat.lt_of_succ_le hlimit]
      · simp [hm]

theorem rotate_numbered {k : Nat} (hk : k < limit) :
    s.rotate keep removeFails renameFails limit (k + 1) =
      if Directory.Moves renameFails s k then
        s k
      else if k + 1 < limit ∧ Directory.Moves renameFails s (k + 1) then
        none
      else if k + 1 = limit ∧ removeFails = false then
        none
      else
        s (k + 1) := by
  unfold rotate activate
  rw [Directory.store_of_ne _ _ (Nat.succ_ne_zero k),
    Directory.shift_succ _ _ hk, dropLast_below removeFails s hk]
  simp only [moves_dropLast removeFails renameFails s hk]
  rcases Nat.lt_or_ge (k + 1) limit with hlt | hge
  · simp only [moves_dropLast removeFails renameFails s hlt,
      dropLast_below removeFails s hlt, Nat.ne_of_lt hlt, false_and, if_false]
  · have heq : k + 1 = limit := by omega
    rw [heq]
    cases removeFails <;> simp

theorem rotate_above {k : Nat} (h : limit < k) :
    s.rotate keep removeFails renameFails limit k = s k := by
  unfold rotate activate
  rw [Directory.store_of_ne _ _ (Nat.ne_of_gt (Nat.zero_lt_of_lt h)),
    Directory.shift_above _ _ h]
  split
  · rfl
  · exact Directory.remove_of_ne _ (Nat.ne_of_gt h)

end

/-!
A rotation without failures.
-/

theorem rotate_zero (keep : Bool) (s : Series item) (limit : Nat) :
    s.rotate keep false (fun _ => false) limit 0 = some [] := by
  rcases Nat.eq_zero_or_pos limit with rfl | hpos
  · simp [rotate, activate, Directory.shift]
  · rw [rotate_active keep false (fun _ => false) s hpos]
    cases hs : s 0 <;> simp [Directory.Moves, hs]

theorem rotate_succ (keep : Bool) (s : Series item) {limit k : Nat}
    (h : k < limit) :
    s.rotate keep false (fun _ => false) limit (k + 1) = s k := by
  rw [rotate_numbered keep false (fun _ => false) s h]
  simp only [Directory.Moves, and_true]
  cases hk : s k with
  | some f => rfl
  | none =>
      -- No file moves up, so the number is free or the next file has left it.
      rcases Nat.lt_or_ge (k + 1) limit with hlt | hge
      · cases s (k + 1) <;> simp [hlt]
      · have heq : k + 1 = limit := by omega
        simp [heq]

theorem trail_rotate (keep : Bool) (s : Series item) (limit : Nat) :
    trail s limit =
      (s limit).getD [] ++
        trail (s.rotate keep false (fun _ => false) limit) limit := by
  have hup : forall count, count ≤ limit ->
      trail s count =
        (s count).getD [] ++
          trail (s.rotate keep false (fun _ => false) limit) count := by
    intro count hcount
    induction count with
    | zero => simp [trail, rotate_zero]
    | succ k ih =>
        rw [trail, ih (by omega), trail, rotate_succ keep s (by omega)]
  exact hup limit (Nat.le_refl _)

/-!
A step may rotate the files and then adds items to the active one.  Here a file
that is missing counts as empty.
-/

/-- What the step leaves of the files, and what it drops. -/
structure Retains (limit : Nat) (rotates : Bool) (items : List item)
    (s s' : Series item) : Prop where
  dropped : trail s limit ++ items =
    (if rotates then (s limit).getD [] else []) ++ trail s' limit
  numbered : forall k, k < limit ->
    (s' (k + 1)).getD [] = (if rotates then s k else s (k + 1)).getD []
  active : (s' 0).getD [] = (if rotates then [] else (s 0).getD []) ++ items

theorem retains_rotate (keep : Bool) (s : Series item) (limit : Nat) :
    Retains limit true [] s (s.rotate keep false (fun _ => false) limit) where
  dropped := by
    rw [List.append_nil]
    exact trail_rotate keep s limit
  numbered := fun k hk => by
    rw [rotate_succ keep s hk]
    rfl
  active := by
    rw [rotate_zero]
    rfl

theorem retains_self (limit : Nat) (s : Series item) :
    Retains limit false [] s s :=
  ⟨List.append_nil _, fun _ _ => rfl, (List.append_nil _).symm⟩

section

variable {limit : Nat} {rotates : Bool} {items : List item}
  {s s' : Series item}

theorem Retains.extend (h : Retains limit rotates [] s s')
    (items : List item) :
    Retains limit rotates items s (s'.extend items) where
  dropped := by
    rw [trail_extend, ← List.append_assoc, ← h.dropped, List.append_nil]
  numbered := fun k hk => by
    rw [Series.extend, Directory.store_of_ne _ _ (Nat.succ_ne_zero k),
      h.numbered k hk]
  active := by
    rw [Series.extend, Directory.store_self, Option.getD_some, h.active,
      List.append_nil]

theorem Retains.of_activate
    (h : Retains limit rotates items (s.activate true) s') :
    Retains limit rotates items s s' := by
  refine ⟨?_, fun k hk => ?_, ?_⟩
  · rw [← trail_activate s limit, h.dropped, getD_activate]
  · rw [h.numbered k hk]
    cases rotates with
    | false => exact getD_activate s (k + 1)
    | true => exact getD_activate s k
  · rw [h.active, getD_activate]

end

/-!
A rotation that is cut short.  Its first operation drops the last file and each
other one moves a file to a number that is free, so wherever it stops the last
file is lost at most.
-/

def rotatePart (limit : Nat) (s : Series item) : Nat -> Series item
  | 0 => s
  | done + 1 => Directory.shiftPart done limit (Directory.remove s limit)

def droppedPart (limit : Nat) (s : Series item) : Nat -> List item
  | 0 => []
  | _ + 1 => (s limit).getD []

theorem trail_remove (s : Series item) (limit : Nat) :
    trail s limit =
      (s limit).getD [] ++ trail (Directory.remove s limit) limit := by
  cases limit with
  | zero => simp [trail]
  | succ k =>
      have hbelow : trail (Directory.remove s (k + 1)) k = trail s k :=
        trail_congr fun n hn => by
          rw [Directory.remove_of_ne _ (Nat.ne_of_lt (Nat.lt_succ_of_le hn))]
      rw [trail, trail, hbelow, Directory.remove_self]
      rfl

theorem trail_rename (s : Series item) {k limit : Nat} (hk : k < limit)
    (hfree : s (k + 1) = none) :
    trail (Directory.rename s k (k + 1)) limit = trail s limit := by
  cases hs : s k with
  | none => rw [Directory.rename_of_none hs]
  | some f =>
      have hother : forall n, n ≠ k -> n ≠ k + 1 ->
          Directory.rename s k (k + 1) n = s n := fun n =>
        Directory.rename_of_ne s
      have hleft : Directory.rename s k (k + 1) k = none := by
        rw [Directory.rename_of_some hs,
          Directory.store_of_ne _ _ (Nat.ne_of_lt k.lt_succ_self),
          Directory.remove_self]
      have hmoved : Directory.rename s k (k + 1) (k + 1) = some f := by
        rw [Directory.rename_of_some hs, Directory.store_self]
      induction limit with
      | zero => exact absurd hk (Nat.not_lt_zero k)
      | succ n ih =>
          rw [trail, trail]
          rcases Nat.lt_or_eq_of_le (Nat.le_of_lt_succ hk) with hlt | rfl
          · rw [ih hlt, hother (n + 1) (by omega) (by omega)]
          · rw [hmoved, hfree]
            cases k with
            | zero => simp [trail, hleft, hs]
            | succ j =>
                have hbelow : trail (Directory.rename s (j + 1) (j + 2)) j =
                    trail s j :=
                  trail_congr fun n hn => by
                    rw [hother n (by omega) (by omega)]
                simp [trail, hleft, hs, hbelow]

theorem trail_shiftPart (s : Series item) {count limit : Nat}
    (hcount : count ≤ limit) (hfree : s count = none) (done : Nat) :
    trail (Directory.shiftPart done count s) limit = trail s limit := by
  induction count generalizing done s with
  | zero => cases done <;> rfl
  | succ k ih =>
      cases done with
      | zero => rfl
      | succ done =>
          have hleft : Directory.rename s k (k + 1) k = none := by
            cases hs : s k with
            | none => rw [Directory.rename_of_none hs, hs]
            | some f =>
                rw [Directory.rename_of_some hs,
                  Directory.store_of_ne _ _ (Nat.ne_of_lt k.lt_succ_self),
                  Directory.remove_self]
          rw [Directory.shiftPart, ih _ (Nat.le_of_succ_le hcount) hleft,
            trail_rename s hcount hfree]

theorem trail_rotatePart (s : Series item) (limit done : Nat) :
    trail s limit =
      droppedPart limit s done ++ trail (rotatePart limit s done) limit := by
  cases done with
  | zero => rfl
  | succ done =>
      rw [trail_remove s limit, droppedPart, rotatePart,
        trail_shiftPart _ (Nat.le_refl _) (Directory.remove_self ..)]

/-!
What holds of each file.
-/

def Each (P : List item -> Prop) (s : Series item) : Prop :=
  forall k file, s k = some file -> P file

section

variable {P : List item -> Prop} (hnil : P [])

include hnil

theorem each_activate (keep : Bool) {s : Series item} (h : Each P s) :
    Each P (s.activate keep) := by
  intro k file hfile
  unfold activate at hfile
  by_cases hk : k = 0
  · subst hk
    rw [Directory.store_self, Option.some.injEq] at hfile
    subst hfile
    cases keep with
    | false => exact hnil
    | true =>
        cases hs : s 0 with
        | none => exact hnil
        | some active => exact h 0 active hs
  · rw [Directory.store_of_ne _ _ hk] at hfile
    exact h k file hfile

theorem each_rotate (keep : Bool) {s : Series item} (limit : Nat)
    (h : Each P s) :
    Each P (s.rotate keep false (fun _ => false) limit) := by
  intro k file hfile
  cases k with
  | zero =>
      rw [rotate_zero, Option.some.injEq] at hfile
      exact hfile ▸ hnil
  | succ k =>
      rcases Nat.lt_or_ge k limit with hlt | hge
      · rw [rotate_succ keep s hlt] at hfile
        exact h k file hfile
      · rw [rotate_above _ _ _ _ (Nat.lt_succ_of_le hge)] at hfile
        exact h (k + 1) file hfile

end

theorem each_rotatePart {P : List item -> Prop} {s : Series item}
    (h : Each P s) (limit done : Nat) :
    Each P (s.rotatePart limit done) := by
  have hremove : Each P (Directory.remove s limit) := by
    intro k file hfile
    by_cases hk : k = limit
    · subst hk
      rw [Directory.remove_self] at hfile
      cases hfile
    · rw [Directory.remove_of_ne _ hk] at hfile
      exact h k file hfile
  have hmoves : forall count done (s : Series item), Each P s ->
      Each P (Directory.shiftPart done count s) := by
    intro count
    induction count with
    | zero =>
        intro done s hs
        cases done with
        | zero => exact hs
        | succ done => exact hs
    | succ count ih =>
        intro done s hs
        cases done with
        | zero => exact hs
        | succ done =>
            refine ih done _ fun k file hfile => ?_
            rcases Directory.rename_cases s count (count + 1) k with
              hsame | hnone | hmoved
            · exact hs k file (hsame ▸ hfile)
            · rw [hnone] at hfile
              cases hfile
            · exact hs count file (hmoved ▸ hfile)
  cases done with
  | zero => exact h
  | succ done => exact hmoves limit done _ hremove

theorem length_trail_le {bound : Nat} {s : Series item}
    (h : Each (fun file => file.length ≤ bound) s) (limit : Nat) :
    (trail s limit).length ≤ (limit + 1) * bound := by
  have hfile : forall k, ((s k).getD []).length ≤ bound := by
    intro k
    cases hk : s k with
    | none => exact Nat.zero_le _
    | some file => exact h k file hk
  induction limit with
  | zero => simpa [trail] using hfile 0
  | succ k ih =>
      rw [trail, List.length_append, Nat.succ_mul (k + 1)]
      have hlast := hfile (k + 1)
      omega

/-!
A rotation with failures.  A file that is not lost is found at its own number or
at the next one.
-/

section

variable (keep removeFails : Bool) (renameFails : Nat -> Bool) (limit : Nat)
  (s : Series item)

/-- Another file comes over the one with this number, or it is emptied. -/
def Replaced : Nat -> Prop
  | 0 => keep = false
  | k + 1 => Directory.Moves renameFails s k

/-- The file exists, and a rotation leaves it nowhere. -/
def Lost (k : Nat) : Prop :=
  (s k).isSome = true ∧
    if k = limit then
      removeFails = false ∨ Replaced keep renameFails s k
    else
      renameFails k = true ∧ Replaced keep renameFails s k

def StartsEmpty : Prop :=
  keep = false ∨ s 0 = none ∨ renameFails 0 = false

instance (k : Nat) : Decidable (Replaced keep renameFails s k) :=
  match k with
  | 0 => inferInstanceAs (Decidable (_ = _))
  | _ + 1 => inferInstanceAs (Decidable (Directory.Moves _ _ _))

instance (k : Nat) :
    Decidable (Lost keep removeFails renameFails limit s k) :=
  inferInstanceAs (Decidable (_ ∧ _))

variable {limit}

theorem lost_of_lt {k : Nat} (h : k < limit) :
    Lost keep removeFails renameFails limit s k <->
      (s k).isSome = true ∧ renameFails k = true ∧
        Replaced keep renameFails s k := by
  rw [Lost, if_neg (Nat.ne_of_lt h)]

theorem lost_limit :
    Lost keep removeFails renameFails limit s limit <->
      (s limit).isSome = true ∧
        (removeFails = false ∨ Replaced keep renameFails s limit) := by
  rw [Lost, if_pos rfl]

theorem exists_rotate_of_not_lost (hlimit : 1 ≤ limit) {k : Nat}
    (hk : k ≤ limit) (hkept : ¬ Lost keep removeFails renameFails limit s k)
    {text : List item} (hfile : s k = some text) :
    exists j, j ≤ limit ∧
      s.rotate keep removeFails renameFails limit j = some text := by
  have hsome : (s k).isSome = true := by rw [hfile]; rfl
  rcases Nat.lt_or_eq_of_le hk with hlt | heq
  · rw [lost_of_lt keep removeFails renameFails s hlt] at hkept
    cases hfails : renameFails k with
    | false =>
        refine ⟨k + 1, hlt, ?_⟩
        rw [rotate_numbered keep removeFails renameFails s hlt,
          if_pos ⟨hsome, hfails⟩, hfile]
    | true =>
        have hstays : ¬ Replaced keep renameFails s k := fun h =>
          hkept ⟨hsome, hfails, h⟩
        have hnot : ¬ Directory.Moves renameFails s k := fun h =>
          Bool.false_ne_true (h.2.symm.trans hfails)
        refine ⟨k, hk, ?_⟩
        cases k with
        | zero =>
            have hkeep : keep = true := by simpa [Replaced] using hstays
            rw [rotate_active keep removeFails renameFails s hlimit,
              if_pos ⟨hkeep, hnot⟩, hfile]
            rfl
        | succ j =>
            have hbelow : ¬ Directory.Moves renameFails s j := hstays
            rw [rotate_numbered keep removeFails renameFails s
              (Nat.lt_of_succ_lt hlt), if_neg hbelow, if_neg fun h => hnot h.2,
              if_neg fun h => Nat.ne_of_lt hlt h.1, hfile]
  · subst heq
    rw [lost_limit keep removeFails renameFails s, not_and, not_or] at hkept
    rcases hkept hsome with ⟨hremove, hstays⟩
    cases k with
    | zero => exact absurd hlimit (Nat.not_succ_le_zero 0)
    | succ j =>
        have hbelow : ¬ Directory.Moves renameFails s j := hstays
        refine ⟨j + 1, Nat.le_refl _, ?_⟩
        rw [rotate_numbered keep removeFails renameFails s j.lt_succ_self,
          if_neg hbelow, if_neg fun h => Nat.lt_irrefl _ h.1,
          if_neg fun h => hremove h.2, hfile]

theorem active_of_rotate (hlimit : 1 ≤ limit) {text : List item}
    (hfile : s.rotate keep removeFails renameFails limit 0 = some text) :
    (¬ Lost keep removeFails renameFails limit s 0 ∧ s 0 = some text) ∨
      (text = [] ∧ StartsEmpty keep renameFails s) := by
  rw [rotate_active keep removeFails renameFails s hlimit,
    Option.some.injEq] at hfile
  split at hfile
  · rename_i hactive
    cases hs : s 0 with
    | none =>
        rw [hs] at hfile
        exact Or.inr ⟨hfile.symm, Or.inr (Or.inl hs)⟩
    | some f =>
        rw [hs] at hfile
        refine Or.inl ⟨fun h => ?_, congrArg some hfile⟩
        rw [lost_of_lt keep removeFails renameFails s hlimit] at h
        exact Bool.false_ne_true (h.2.2.symm.trans hactive.1)
  · rename_i hactive
    refine Or.inr ⟨hfile.symm, ?_⟩
    cases hkeep : keep with
    | false => exact Or.inl rfl
    | true =>
        have hmoves : Directory.Moves renameFails s 0 :=
          not_not.mp fun h => hactive ⟨hkeep, h⟩
        exact Or.inr (Or.inr hmoves.2)

theorem numbered_of_rotate {k : Nat} (hk : k < limit) {text : List item}
    (hfile : s.rotate keep removeFails renameFails limit (k + 1) = some text) :
    exists j, j ≤ limit ∧
      ¬ Lost keep removeFails renameFails limit s j ∧ s j = some text := by
  rw [rotate_numbered keep removeFails renameFails s hk] at hfile
  split at hfile
  · rename_i hmoves
    refine ⟨k, Nat.le_of_lt hk, fun h => ?_, hfile⟩
    rw [lost_of_lt keep removeFails renameFails s hk] at h
    exact Bool.false_ne_true (hmoves.2.symm.trans h.2.1)
  · rename_i hstays
    split at hfile
    · cases hfile
    · split at hfile
      · cases hfile
      · rename_i hremove
        refine ⟨k + 1, hk, fun h => ?_, hfile⟩
        rcases Nat.lt_or_eq_of_le hk with hlt | heq
        · rw [lost_of_lt keep removeFails renameFails s hlt] at h
          exact hstays h.2.2
        · subst heq
          rw [lost_limit keep removeFails renameFails s] at h
          rcases h.2 with hremoved | hreplaced
          · exact hremove ⟨rfl, hremoved⟩
          · exact hstays hreplaced

theorem rotate_of_startsEmpty (hlimit : 1 ≤ limit)
    (hstart : StartsEmpty keep renameFails s) :
    s.rotate keep removeFails renameFails limit 0 = some [] := by
  rw [rotate_active keep removeFails renameFails s hlimit, Option.some.injEq]
  split
  · rename_i hactive
    rcases hstart with hkeep | hnone | hfails
    · exact absurd (hkeep.symm.trans hactive.1) Bool.false_ne_true
    · rw [hnone]
      rfl
    · cases hs : s 0 with
      | none => rfl
      | some f =>
          exact absurd ⟨by rw [hs]; rfl, hfails⟩ hactive.2
  · rfl

theorem exists_rotate_iff (hlimit : 1 ≤ limit) (text : List item) :
    (exists j, j ≤ limit ∧
        s.rotate keep removeFails renameFails limit j = some text) <->
      (exists k, k ≤ limit ∧
        ¬ Lost keep removeFails renameFails limit s k ∧ s k = some text) ∨
      (text = [] ∧ StartsEmpty keep renameFails s) := by
  constructor
  · rintro ⟨j, hj, hfile⟩
    cases j with
    | zero =>
        rcases active_of_rotate keep removeFails renameFails s hlimit hfile with
          ⟨hkept, hs⟩ | hempty
        · exact Or.inl ⟨0, hj, hkept, hs⟩
        · exact Or.inr hempty
    | succ k =>
        exact Or.inl
          (numbered_of_rotate keep removeFails renameFails s hj hfile)
  · rintro (⟨k, hk, hkept, hfile⟩ | ⟨rfl, hstart⟩)
    · exact exists_rotate_of_not_lost keep removeFails renameFails s hlimit hk
        hkept hfile
    · exact ⟨0, Nat.zero_le _, rotate_of_startsEmpty keep removeFails
        renameFails s hlimit hstart⟩

end

/-!
The same files, with each item seen as a list of other items.
-/

def project (f : item -> List other) (s : Series item) : Series other :=
  Directory.map (List.flatMap f) s

variable (f : item -> List other)

theorem getD_project (s : Series item) (k : Nat) :
    (s.project f k).getD [] = ((s k).getD []).flatMap f := by
  unfold project Directory.map
  cases s k <;> rfl

theorem trail_project (s : Series item) (limit : Nat) :
    trail (s.project f) limit = (trail s limit).flatMap f := by
  induction limit with
  | zero => exact getD_project f s 0
  | succ k ih => rw [trail, trail, getD_project, ih, List.flatMap_append]

theorem Retains.project {limit : Nat} {rotates : Bool} {items : List item}
    {s s' : Series item} (h : Retains limit rotates items s s') :
    Retains limit rotates (items.flatMap f) (s.project f) (s'.project f) where
  dropped := by
    rw [trail_project, trail_project, getD_project, ← List.flatMap_append,
      h.dropped, List.flatMap_append]
    cases rotates <;> rfl
  numbered := fun k hk => by
    rw [getD_project, h.numbered k hk]
    cases rotates with
    | false => exact (getD_project f s (k + 1)).symm
    | true => exact (getD_project f s k).symm
  active := by
    rw [getD_project, h.active, getD_project, List.flatMap_append]
    cases rotates <;> rfl

theorem project_activate (keep : Bool) (s : Series item) :
    (s.activate keep).project f = (s.project f).activate keep := by
  unfold activate
  rw [getD_project, project, Directory.map_store]
  congr 1
  cases keep <;> rfl

theorem project_rotate (keep removeFails : Bool) (renameFails : Nat -> Bool)
    (limit : Nat) (s : Series item) :
    (s.rotate keep removeFails renameFails limit).project f =
      (s.project f).rotate keep removeFails renameFails limit := by
  unfold rotate
  rw [project_activate]
  congr 1
  unfold project
  rw [Directory.map_shift]
  congr 1
  split
  · rfl
  · exact Directory.map_remove ..

theorem project_rotatePart (limit : Nat) (s : Series item) (done : Nat) :
    (s.rotatePart limit done).project f =
      (s.project f).rotatePart limit done := by
  cases done with
  | zero => rfl
  | succ done =>
      unfold rotatePart project
      rw [Directory.map_shiftPart, Directory.map_remove]

theorem project_extend (s : Series item) (items : List item) :
    (s.extend items).project f = (s.project f).extend (items.flatMap f) := by
  unfold extend
  rw [getD_project, project, Directory.map_store, List.flatMap_append]
  rfl

end Series

end Foundation
end NginLog
