import NginLog.Sinks.NumberedFiles

/-!
# Rotations whose file operations fail

`RotateLocked` clears the error code of each operation and goes on.  A file whose
rename fails stays where it is, and the next rename, or the open that empties
the file at the path, may then replace it.  Only such files are lost, besides
the oldest one.
-/

namespace NginLog
namespace Sinks

open Foundation Record Formatting RotatingFileSink

/-- What the files below the last number held is still in some file. -/
def KeepsFiles (limit : Nat) (before after : Series UInt8) : Prop :=
  forall k text, k < limit -> before k = some text ->
    exists j, j ≤ limit ∧ after j = some text

section

variable (options : RotatingFileSinkOptions) (faults : Faults)
  (files : Series UInt8)

/--
The file exists, and neither stays nor moves.  Below the last number that means
that its rename fails while the file below it is renamed over it, or, at the
path, while opening the file empties it.
-/
def Destroyed (k : Nat) : Prop :=
  Series.Lost options.append faults.remove faults.rename options.maxFiles files
    k

/-- A destroyed file was empty, and so is the active file in the end. -/
def EmptyAgain (k : Nat) : Prop :=
  files k = some [] ∧ Series.StartsEmpty options.append faults.rename files

def HasCopy (k : Nat) : Prop :=
  exists j, j ≤ options.maxFiles ∧ ¬ Destroyed options faults files j ∧
    files j = files k

theorem failed_rotation_keeps_files_iff {State : Type} (platform : Platform)
    (s : RotatingFileSink State) (hfiles : 1 ≤ options.maxFiles)
    (hopening : faults.opening OpenSite.rotation = false) :
    KeepsFiles options.maxFiles (contents options.path s.disk)
        (contents options.path
          (rotateLocked platform options faults s).2.disk) <->
      forall k, k < options.maxFiles ->
        Destroyed options faults (contents options.path s.disk) k ->
          HasCopy options faults (contents options.path s.disk) k ∨
            EmptyAgain options faults (contents options.path s.disk) k := by
  rw [contents_rotateLocked platform hopening]
  generalize contents options.path s.disk = files
  have hpresent := Series.exists_rotate_iff options.append faults.remove
    faults.rename files hfiles
  constructor
  · intro h k hk hdestroyed
    rcases Option.isSome_iff_exists.mp hdestroyed.1 with ⟨text, htext⟩
    rcases (hpresent text).mp (h k text hk htext) with
      ⟨j, hj, hkept, hfile⟩ | ⟨hempty, hstart⟩
    · exact Or.inl ⟨j, hj, hkept, hfile.trans htext.symm⟩
    · exact Or.inr ⟨hempty ▸ htext, hstart⟩
  · intro h k text hk htext
    rw [hpresent text]
    by_cases hdestroyed : Destroyed options faults files k
    · rcases h k hk hdestroyed with ⟨j, hj, hkept, hsame⟩ | ⟨hempty, hstart⟩
      · exact Or.inl ⟨j, hj, hkept, hsame.trans htext⟩
      · exact Or.inr ⟨Option.some.inj (htext.symm.trans hempty), hstart⟩
    · exact Or.inl ⟨k, Nat.le_of_lt hk, hdestroyed, htext⟩

variable {options faults}

theorem not_destroyed_of_renames {k : Nat} (hk : k < options.maxFiles)
    (hrename : faults.rename k = false) :
    ¬ Destroyed options faults files k := by
  intro h
  unfold Destroyed at h
  rw [Series.lost_of_lt _ _ _ _ hk] at h
  exact Bool.false_ne_true (hrename.symm.trans h.2.1)

end

/-!
## Three files
-/

def threeFiles : Disk :=
  Directory.store
    (Directory.store
      (Directory.store (fun _ => none) (ascii "a.2")
        { device := 1, inode := 3, contents := ascii "old" })
      (ascii "a.1") { device := 1, inode := 2, contents := ascii "mid" })
    (ascii "a") { device := 1, inode := 1, contents := ascii "new" }

def threeFilesSink : RotatingFileSink Unit where
  disk := threeFiles
  formatter := ()

def twoRetained : RotatingFileSinkOptions where
  path := ascii "a"
  maxFiles := 2

def plainPlatform : Platform where
  localtime := fun _ => none
  newFile := fun _ _ => (1, 4)

theorem failed_removal_loses_nothing :
    KeepsFiles 2 (contents (ascii "a") threeFiles)
      (contents (ascii "a")
        (rotateLocked plainPlatform twoRetained { remove := true }
          threeFilesSink).2.disk) := by
  refine (failed_rotation_keeps_files_iff twoRetained { remove := true }
    plainPlatform threeFilesSink (by decide) rfl).mpr ?_
  intro k hk hdestroyed
  exact absurd hdestroyed (not_destroyed_of_renames _ hk rfl)

/-- The rename of `a.1` fails, and `a` is renamed over it. -/
theorem failed_rename_loses_file :
    ¬ KeepsFiles 2 (contents (ascii "a") threeFiles)
      (contents (ascii "a")
        (rotateLocked plainPlatform twoRetained
          { rename := fun k => k == 1 } threeFilesSink).2.disk) := by
  intro h
  rcases h 1 (ascii "mid") (by decide) rfl with ⟨j, hj, hfile⟩
  have hcases : j = 0 ∨ j = 1 ∨ j = 2 := by omega
  rcases hcases with rfl | rfl | rfl
  · exact absurd (show some ([] : Bytes) = some (ascii "mid") from hfile)
      (by decide)
  · exact absurd (show some (ascii "new") = some (ascii "mid") from hfile)
      (by decide)
  · exact absurd (show none = some (ascii "mid") from hfile) (by decide)

end Sinks
end NginLog
