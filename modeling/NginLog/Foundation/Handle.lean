import NginLog.Foundation.Directory

/-!
# Open files of a shared directory

A process keeps a file open while others rename, remove and replace the files
of the directory.  The open file stays the same file: it is found under the name
that it has been moved to, or under no name once it has been removed.  What is
written to it goes there.
-/

namespace NginLog
namespace Foundation
namespace Directory

variable {name file : Type} [DecidableEq name]

def renamed (d : Directory name file) (source target : name)
    (location : Option name) : Option name :=
  if (d source).isNone then
    location
  else if location = some source then
    some target
  else if location = some target then
    none
  else
    location

def released (n : name) (location : Option name) : Option name :=
  if location = some n then none else location

def amend (d : Directory name file) (location : Option name)
    (change : file -> file) : Directory name file :=
  match location with
  | none => d
  | some n =>
      match d n with
      | none => d
      | some f => d.store n (change f)

def Holds (P : file -> Prop) (d : Directory name file)
    (location : Option name) : Prop :=
  forall n, location = some n -> exists f, d n = some f ∧ P f

variable {P : file -> Prop} {d : Directory name file} {location : Option name}

theorem holds_rename (h : Holds P d location) (source target : name) :
    Holds P (d.rename source target) (renamed d source target location) := by
  unfold renamed
  cases hd : d source with
  | none =>
      rw [rename_of_none hd, if_pos Option.isNone_none]
      exact h
  | some moved =>
      rw [rename_of_some hd, if_neg (by simp)]
      split
      · rename_i hsource
        rcases h source hsource with ⟨f, hf, hP⟩
        rintro n ⟨⟩
        rw [hd] at hf
        cases hf
        exact ⟨moved, store_self .., hP⟩
      split
      · rintro n ⟨⟩
      · rename_i hsource htarget
        rintro n rfl
        have hnotSource : n ≠ source := fun heq => hsource (congrArg some heq)
        have hnotTarget : n ≠ target := fun heq => htarget (congrArg some heq)
        rw [store_of_ne _ _ hnotTarget, remove_of_ne _ hnotSource]
        exact h n rfl

theorem holds_released {d' : Directory name file} {n : name}
    (h : Holds P d location) (hother : forall m, m ≠ n -> d' m = d m) :
    Holds P d' (released n location) := by
  unfold released
  split
  · rintro m ⟨⟩
  · rename_i hne
    rintro m rfl
    rw [hother m fun heq => hne (congrArg some heq)]
    exact h m rfl

theorem holds_remove (h : Holds P d location) (n : name) :
    Holds P (d.remove n) (released n location) :=
  holds_released h fun _ hne => remove_of_ne d hne

theorem holds_store (h : Holds P d location) (n : name) (f : file) :
    Holds P (d.store n f) (released n location) :=
  holds_released h fun _ hne => store_of_ne d f hne

theorem amend_of_some {n : name} {f : file} (hf : d n = some f)
    (change : file -> file) :
    d.amend (some n) change = d.store n (change f) := by
  simp only [amend, hf]

theorem holds_amend {change : file -> file}
    (hchange : forall f, P f -> P (change f)) (h : Holds P d location) :
    Holds P (d.amend location change) location := by
  rintro n rfl
  rcases h n rfl with ⟨f, hf, hP⟩
  rw [amend_of_some hf]
  exact ⟨change f, store_self .., hchange f hP⟩

end Directory
end Foundation
end NginLog
