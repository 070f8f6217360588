import NginLog.Sinks.RotatingFileSink

/-!
# The files of the sink as a numbered series

The path and its retention files, seen as a series of texts.  What the sink does
to the disk is what the operations on a series do to the texts, and no file
outside the series changes.
-/

namespace NginLog
namespace Sinks

open Foundation Record Formatting

theorem slotName_injective (path : Bytes) :
    Function.Injective (slotName path) := by
  have hlonger : forall k, path.length < (slotName path (k + 1)).length := by
    intro k
    simp [slotName, ascii]
  intro j k h
  cases j with
  | zero =>
      cases k with
      | zero => rfl
      | succ k => exact absurd (congrArg List.length h) (Nat.ne_of_lt (hlonger k))
  | succ j =>
      cases k with
      | zero =>
          exact absurd (congrArg List.length h).symm (Nat.ne_of_lt (hlonger j))
      | succ k => exact decimal_injective (List.append_cancel_left h)

def contents (path : Bytes) (disk : Disk) : Series UInt8 :=
  Directory.map File.contents (Directory.through (slotName path) disk)

/-- A name of no file of the series, up to the highest number. -/
def Outside (path : Bytes) (limit : Nat) (name : Bytes) : Prop :=
  forall k, k ≤ limit -> name ≠ slotName path k

/-!
## Single operations

A rename of a file that does not exist changes nothing, so the loop and the last
rename move the whole series up.
-/

section

variable (path : Bytes) (disk : Disk)

theorem contents_store (k : Nat) (file : File) :
    contents path (disk.store (slotName path k) file) =
      (contents path disk).store k file.contents := by
  unfold contents
  rw [Directory.through_store (slotName_injective path), Directory.map_store]

theorem contents_remove (k : Nat) :
    contents path (disk.remove (slotName path k)) =
      (contents path disk).remove k := by
  unfold contents
  rw [Directory.through_remove (slotName_injective path), Directory.map_remove]

theorem contents_rename (source target : Nat) :
    contents path (disk.rename (slotName path source) (slotName path target)) =
      (contents path disk).rename source target := by
  unfold contents
  rw [Directory.through_rename (slotName_injective path), Directory.map_rename]

theorem contents_path :
    contents path disk 0 = (disk path).map File.contents :=
  rfl

end

namespace RotatingFileSink

variable (platform : Platform) (options : RotatingFileSinkOptions)

theorem renameUp_eq (path : Bytes) (fails : Nat -> Bool) (disk : Disk)
    (k : Nat) :
    renameUp path fails disk k =
      if fails k then
        disk
      else
        disk.rename (slotName path k) (slotName path (k + 1)) := by
  unfold renameUp
  cases hfile : disk (slotName path k) with
  | none =>
      rw [Directory.rename_of_none hfile]
      simp
  | some file => simp

theorem contents_renameUp (path : Bytes) (fails : Nat -> Bool) (disk : Disk)
    (k : Nat) :
    contents path (renameUp path fails disk k) =
      Directory.moveUp fails (contents path disk) k := by
  rw [renameUp_eq, Directory.moveUp]
  split
  · rfl
  · exact contents_rename path disk k (k + 1)

theorem contents_renameLoop (path : Bytes) (fails : Nat -> Bool) (disk : Disk)
    (index : Nat) :
    contents path
        (renameUp path fails (renameLoop path fails (index + 1) disk) 0) =
      Directory.shift fails (index + 1) (contents path disk) := by
  induction index generalizing disk with
  | zero => exact contents_renameUp path fails disk 0
  | succ index ih =>
      rw [renameLoop, ih, contents_renameUp]
      rfl

theorem contents_rotateFiles (faults : Faults) (disk : Disk) :
    contents options.path (rotateFiles options faults disk) =
      Directory.shift faults.rename options.maxFiles
        (if faults.remove then
          contents options.path disk
        else
          (contents options.path disk).remove options.maxFiles) := by
  have hremove : forall k,
      contents options.path
          (if faults.remove then disk
            else disk.remove (slotName options.path k)) =
        if faults.remove then contents options.path disk
          else (contents options.path disk).remove k := by
    intro k
    split
    · rfl
    · exact contents_remove options.path disk k
  unfold rotateFiles
  cases hmax : options.maxFiles with
  | zero => exact hremove 0
  | succ index =>
      rw [if_pos (Nat.succ_pos index), contents_renameLoop, hremove]

theorem contents_openFile (disk : Disk) :
    contents options.path (openFile platform options disk) =
      (contents options.path disk).activate options.append := by
  have hstore : forall file : File,
      contents options.path (disk.store options.path file) =
        (contents options.path disk).store 0 file.contents :=
    contents_store options.path disk 0
  unfold openFile Series.activate
  rw [contents_path]
  cases hfile : disk options.path with
  | none =>
      simp only [hstore, Option.map_none, Option.getD_none, ite_self]
  | some file =>
      simp only [Option.map_some, Option.getD_some]
      split
      · -- The file is there already.
        funext k
        by_cases hk : k = 0
        · subst hk
          rw [Directory.store_self, contents_path, hfile]
          rfl
        · rw [Directory.store_of_ne _ _ hk]
      · exact hstore _

theorem path_openFile (disk : Disk) :
    exists file, openFile platform options disk options.path = some file := by
  unfold openFile
  cases hfile : disk options.path with
  | none => exact ⟨_, Directory.store_self ..⟩
  | some file =>
      cases options.append with
      | false => exact ⟨_, Directory.store_self ..⟩
      | true => exact ⟨file, hfile⟩

/-!
## Files outside the series
-/

section

variable {options} {name : Bytes}
  (houtside : Outside options.path options.maxFiles name)

include houtside

theorem openFile_outside (disk : Disk) :
    openFile platform options disk name = disk name := by
  have hne : name ≠ options.path := houtside 0 (Nat.zero_le _)
  unfold openFile
  cases disk options.path with
  | none => exact Directory.store_of_ne _ _ hne
  | some file =>
      cases options.append with
      | false => exact Directory.store_of_ne _ _ hne
      | true => rfl

theorem renameUp_outside (fails : Nat -> Bool) (disk : Disk) {k : Nat}
    (hk : k < options.maxFiles) :
    renameUp options.path fails disk k name = disk name := by
  rw [renameUp_eq]
  split
  · rfl
  · exact Directory.rename_of_ne disk (houtside k (Nat.le_of_lt hk))
      (houtside (k + 1) hk)

theorem renameLoop_outside (fails : Nat -> Bool) (disk : Disk) {index : Nat}
    (hindex : index < options.maxFiles) :
    renameLoop options.path fails (index + 1) disk name = disk name := by
  induction index generalizing disk with
  | zero => rfl
  | succ index ih =>
      rw [renameLoop, ih _ (Nat.lt_of_succ_lt hindex),
        renameUp_outside houtside fails disk hindex]

theorem rotateFiles_outside (faults : Faults) (disk : Disk) :
    rotateFiles options faults disk name = disk name := by
  have hremove : forall k, k ≤ options.maxFiles ->
      (if faults.remove then disk
        else disk.remove (slotName options.path k)) name = disk name := by
    intro k hk
    split
    · rfl
    · exact Directory.remove_of_ne _ (houtside k hk)
  unfold rotateFiles
  split
  · rename_i hpos
    rcases Nat.exists_eq_succ_of_ne_zero (Nat.ne_of_gt hpos) with ⟨index, hmax⟩
    simp only
    rw [renameUp_outside houtside _ _ hpos]
    conv_lhs => rw [hmax]
    rw [renameLoop_outside houtside _ _ (by omega)]
    exact hmax ▸ hremove _ (Nat.le_refl _)
  · exact hremove 0 (Nat.zero_le _)

end

/-!
## An open sink
-/

variable {State : Type}

structure Live (s : RotatingFileSink State) : Prop where
  fileOpen : s.fileOpen = true
  size : exists file, s.disk options.path = some file ∧
    s.currentFileBytes = file.contents.length
  identity : s.identity = readPathIdentity s.disk options.path

variable {options} {s : RotatingFileSink State}

theorem Live.active (h : Live options s) :
    exists text, contents options.path s.disk 0 = some text ∧
      s.currentFileBytes = text.length := by
  rcases h.size with ⟨file, hfile, hsize⟩
  refine ⟨file.contents, ?_, hsize⟩
  rw [contents_path, hfile]
  rfl

theorem live_openFileLocked (s : RotatingFileSink State) :
    Live options (openFileLocked platform options false s).2 := by
  rcases path_openFile platform options s.disk with ⟨file, hfile⟩
  refine ⟨rfl, ⟨file, hfile, ?_⟩, rfl⟩
  have hsize : (openFileLocked platform options false s).2.currentFileBytes =
      ((openFile platform options s.disk options.path).map
        fun file => file.contents.length).getD 0 := rfl
  rw [hsize, hfile]
  rfl

theorem Live.ensureOpen (h : Live options s) (fails : Bool) :
    RotatingFileSink.ensureOpen platform options fails s = (true, s) :=
  if_pos h.fileOpen

theorem Live.detectExternalRotationLocked (h : Live options s)
    (fails : Bool) :
    RotatingFileSink.detectExternalRotationLocked platform options fails s =
      (false, s) := by
  unfold RotatingFileSink.detectExternalRotationLocked
  rw [h.identity]
  simp

theorem live_writeScratch (h : Live options s) :
    Live options (writeScratch options s) := by
  rcases h with ⟨hopen, ⟨file, hfile, hsize⟩, hidentity⟩
  have hdisk : (writeScratch options s).disk =
      s.disk.store options.path
        { file with contents := file.contents ++ s.scratch } := by
    unfold writeScratch
    simp only [hfile]
  have hstored : (writeScratch options s).disk options.path =
      some { file with contents := file.contents ++ s.scratch } := by
    rw [hdisk, Directory.store_self]
  refine ⟨hopen, ⟨_, hstored, ?_⟩, ?_⟩
  · show s.currentFileBytes + s.scratch.length = _
    rw [hsize, List.length_append]
  · show s.identity = _
    rw [hidentity, readPathIdentity, readPathIdentity, hstored, hfile]

theorem contents_writeScratch (h : Live options s) :
    contents options.path (writeScratch options s).disk =
      (contents options.path s.disk).extend s.scratch := by
  rcases h.size with ⟨file, hfile, _⟩
  have hstore := contents_store options.path s.disk 0
    { file with contents := file.contents ++ s.scratch }
  unfold writeScratch Series.extend
  rw [contents_path]
  simp only [hfile, Option.map_some, Option.getD_some]
  exact hstore

theorem writeScratch_outside {name : Bytes}
    (houtside : Outside options.path options.maxFiles name)
    (s : RotatingFileSink State) :
    (writeScratch options s).disk name = s.disk name := by
  unfold writeScratch
  cases s.disk options.path with
  | none => rfl
  | some file =>
      exact Directory.store_of_ne _ _ (houtside 0 (Nat.zero_le _))

theorem contents_rotateLocked {faults : Faults}
    (hopening : faults.opening OpenSite.rotation = false)
    (s : RotatingFileSink State) :
    contents options.path (rotateLocked platform options faults s).2.disk =
      (contents options.path s.disk).rotate options.append faults.remove
        faults.rename options.maxFiles := by
  unfold rotateLocked Series.rotate
  rw [hopening, ← contents_rotateFiles, ← contents_openFile platform]
  rfl

theorem live_rotateLocked {faults : Faults}
    (hopening : faults.opening OpenSite.rotation = false)
    (s : RotatingFileSink State) :
    Live options (rotateLocked platform options faults s).2 := by
  unfold rotateLocked
  rw [hopening]
  exact live_openFileLocked platform _

theorem openFileLocked_outside {name : Bytes}
    (houtside : Outside options.path options.maxFiles name) (fails : Bool)
    (s : RotatingFileSink State) :
    (openFileLocked platform options fails s).2.disk name = s.disk name := by
  cases fails with
  | true => rfl
  | false => exact openFile_outside platform houtside s.disk

theorem rotateLocked_outside {name : Bytes}
    (houtside : Outside options.path options.maxFiles name) (faults : Faults)
    (s : RotatingFileSink State) :
    (rotateLocked platform options faults s).2.disk name = s.disk name := by
  unfold rotateLocked
  rw [openFileLocked_outside platform houtside]
  exact rotateFiles_outside houtside faults s.disk

/-!
## Writing a record

A write to an open sink rotates if that is due, and then appends the text.
-/

theorem rotationDue_snd (record : LogRecordView) (s : RotatingFileSink State) :
    exists key, (rotationDue platform options record s).2 =
      { s with lastLocalDateKey := key } := by
  unfold rotationDue
  split
  · exact ⟨_, rfl⟩
  unfold shouldRotateByDateLocked
  split
  · dsimp only
    split
    · exact ⟨_, rfl⟩
    · split
      · exact ⟨_, rfl⟩
      · exact ⟨_, rfl⟩
  · exact ⟨_, rfl⟩

theorem live_rotationDue (h : Live options s) (record : LogRecordView) :
    Live options (rotationDue platform options record s).2 := by
  rcases rotationDue_snd platform record s with ⟨key, heq⟩
  rw [heq]
  exact ⟨h.fileOpen, h.size, h.identity⟩

variable (formatter : RecordFormatter)

def formatted (record : LogRecordView)
    (s : RotatingFileSink formatter.State) :
    RotatingFileSink formatter.State :=
  { s with
    scratch := (formatter.format s.formatter record s.scratch).1
    formatter := (formatter.format s.formatter record s.scratch).2 }

def rotates (platform : Platform) (options : RotatingFileSinkOptions)
    (record : LogRecordView) (s : RotatingFileSink formatter.State) : Bool :=
  (rotationDue platform options record (formatted formatter record s)).1

variable {formatter} {s : RotatingFileSink formatter.State}

theorem live_formatted (h : Live options s) (record : LogRecordView) :
    Live options (formatted formatter record s) :=
  ⟨h.fileOpen, h.size, h.identity⟩

theorem Live.prepare (h : Live options s) (faults : Faults)
    (record : LogRecordView) :
    RotatingFileSink.prepare platform options formatter faults record s =
      (true, formatted formatter record s) := by
  have hformatted := live_formatted h record
  have hopen := hformatted.ensureOpen platform (faults.opening OpenSite.first)
  have hdetect := hformatted.detectExternalRotationLocked platform
    (faults.opening OpenSite.external)
  unfold formatted at hopen hdetect
  unfold RotatingFileSink.prepare formatted
  simp only [hopen, hdetect, ite_self]

/-- The sink after the rotation that a record may cause. -/
def rotatedIfDue (platform : Platform) (options : RotatingFileSinkOptions)
    (faults : Faults) (record : LogRecordView)
    (s : RotatingFileSink formatter.State) :
    RotatingFileSink formatter.State :=
  let due := rotationDue platform options record (formatted formatter record s)
  if due.1 then (rotateLocked platform options faults due.2).2 else due.2

theorem live_rotatedIfDue {faults : Faults}
    (hopening : faults.opening OpenSite.rotation = false)
    (h : Live options s) (record : LogRecordView) :
    Live options (rotatedIfDue platform options faults record s) := by
  unfold rotatedIfDue
  dsimp only
  split
  · exact live_rotateLocked platform hopening _
  · exact live_rotationDue platform (live_formatted h record) record

theorem contents_rotatedIfDue {faults : Faults}
    (hopening : faults.opening OpenSite.rotation = false)
    (record : LogRecordView) (s : RotatingFileSink formatter.State) :
    contents options.path (rotatedIfDue platform options faults record s).disk =
      if rotates formatter platform options record s then
        (contents options.path s.disk).rotate options.append faults.remove
          faults.rename options.maxFiles
      else
        contents options.path s.disk := by
  rcases @rotationDue_snd platform options _ record
    (formatted formatter record s) with ⟨key, heq⟩
  unfold rotatedIfDue rotates
  dsimp only
  split
  · rw [contents_rotateLocked platform hopening, heq]
    rfl
  · rw [heq]
    rfl

theorem scratch_rotatedIfDue (faults : Faults) (record : LogRecordView)
    (s : RotatingFileSink formatter.State) :
    (rotatedIfDue platform options faults record s).scratch =
      (formatter.format s.formatter record s.scratch).1 := by
  rcases @rotationDue_snd platform options _ record
    (formatted formatter record s) with ⟨key, heq⟩
  unfold rotatedIfDue
  dsimp only
  rw [heq]
  split
  · unfold rotateLocked openFileLocked
    split <;> rfl
  · rfl

theorem rotatedIfDue_outside {name : Bytes}
    (houtside : Outside options.path options.maxFiles name) (faults : Faults)
    (record : LogRecordView) (s : RotatingFileSink formatter.State) :
    (rotatedIfDue platform options faults record s).disk name =
      s.disk name := by
  rcases @rotationDue_snd platform options _ record
    (formatted formatter record s) with ⟨key, heq⟩
  unfold rotatedIfDue
  dsimp only
  rw [heq]
  split
  · rw [rotateLocked_outside platform houtside]
    rfl
  · rfl

theorem Live.write {faults : Faults}
    (hopening : faults.opening OpenSite.rotation = false)
    (h : Live options s) (record : LogRecordView) :
    RotatingFileSink.write platform options formatter faults record s =
      writeScratch options
        (rotatedIfDue platform options faults record s) := by
  have hlive := live_rotatedIfDue platform hopening h record
  have hopen := hlive.ensureOpen platform (faults.opening OpenSite.last)
  unfold rotatedIfDue at hopen
  unfold RotatingFileSink.write rotatedIfDue
  rw [h.prepare platform faults record]
  dsimp only at hopen ⊢
  rw [hopen]

end RotatingFileSink

end Sinks
end NginLog
