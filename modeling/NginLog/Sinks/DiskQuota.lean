import NginLog.Sinks.RotationCrash

/-!
# The space that the files take

The sink rotates before a record would push the active file over the limit, and
keeps a fixed number of files.  So the files together are bounded, whenever the
processes are killed: a rotation that is cut short leaves no file more, and the
next process counts the bytes that the killed one has left.
-/

namespace NginLog
namespace Sinks

open Foundation Record Formatting RotatingFileSink

def WithinQuota (options : RotatingFileSinkOptions) (disk : Disk) : Prop :=
  Series.Each (fun text => text.length ≤ options.maxFileBytes)
    (contents options.path disk)

/-- No file operation fails, and what a write formats is within the limit. -/
def FitsLimit (options : RotatingFileSinkOptions) {formatter : RecordFormatter}
    (process : RotatingProcess formatter.State)
    (call : RotatingProcessCall formatter.State) : Prop :=
  NoFileFaults process call ∧
    match call with
    | RotatingProcessCall.call _ call =>
        (entryBytes (process.phase.entries call)).length ≤ options.maxFileBytes
    | _ => True

section

variable {options : RotatingFileSinkOptions} {disk : Disk}

theorem each_extend {bound : Nat} {files : Series UInt8} {text : Bytes}
    (h : Series.Each (fun text => text.length ≤ bound) files)
    (hactive : ((files 0).getD [] ++ text).length ≤ bound) :
    Series.Each (fun text => text.length ≤ bound) (files.extend text) := by
  intro k file hfile
  unfold Series.extend at hfile
  by_cases hk : k = 0
  · subst hk
    rw [Directory.store_self, Option.some.injEq] at hfile
    exact hfile ▸ hactive
  · rw [Directory.store_of_ne _ _ hk] at hfile
    exact h k file hfile

theorem WithinQuota.loseBytes (h : WithinQuota options disk) (lost : Nat) :
    WithinQuota options (loseBytes options.path lost disk) := by
  cases htext : contents options.path disk 0 with
  | none =>
      have hnone : disk options.path = none := by
        rw [contents_path] at htext
        exact Option.map_eq_none_iff.mp htext
      have hsame : Sinks.loseBytes options.path lost disk = disk := by
        unfold Sinks.loseBytes
        simp only [hnone]
      exact hsame.symm ▸ h
  | some text =>
      have hfits := h 0 text htext
      unfold WithinQuota
      rw [contents_loseBytes options.path lost disk htext]
      intro k file hfile
      by_cases hk : k = 0
      · subst hk
        rw [Directory.store_self, Option.some.injEq] at hfile
        subst hfile
        rw [List.length_take]
        omega
      · rw [Directory.store_of_ne _ _ hk] at hfile
        exact h k file hfile

theorem WithinQuota.openFile (platform : Platform)
    (h : WithinQuota options disk) :
    WithinQuota options (openFile platform options disk) := by
  unfold WithinQuota
  rw [contents_openFile]
  exact Series.each_activate (Nat.zero_le _) options.append h

theorem WithinQuota.rotateUntil (h : WithinQuota options disk) (done : Nat) :
    WithinQuota options (rotateUntil options done disk) := by
  unfold WithinQuota
  rw [contents_rotateUntil]
  exact Series.each_rotatePart h options.maxFiles done

theorem fits_of_not_rotates {platform : Platform} {formatter : RecordFormatter}
    {s : RotatingFileSink formatter.State} (hlimit : options.maxFileBytes > 0)
    (h : Live options s) {record : LogRecordView}
    (hstays : ¬ rotates formatter platform options record s = true) :
    ((contents options.path s.disk 0).getD [] ++
      (formatter.format s.formatter record s.scratch).1).length ≤
        options.maxFileBytes := by
  rcases h.active with ⟨text, htext, hsize⟩
  rw [htext, Option.getD_some, List.length_append, ← hsize]
  by_contra hover
  refine hstays ?_
  have hexceeds : exceedsMaxFileBytes options
      (formatted formatter record s) = true :=
    decide_eq_true ⟨hlimit, Nat.lt_of_not_le hover⟩
  unfold rotates rotationDue
  rw [if_pos hexceeds]

theorem WithinQuota.call {platform : Platform} {formatter : RecordFormatter}
    {phase phase' : Phase formatter.State} {call : Call formatter.State}
    (hlimit : options.maxFileBytes > 0)
    (h : WithinQuota options phase.disk) (hlive : LivePhase options phase)
    (hfaults : call.faults = {})
    (hfits : (entryBytes (phase.entries call)).length ≤ options.maxFileBytes)
    (hstep : SinkStep platform options formatter phase call phase') :
    WithinQuota options phase'.disk := by
  have hrotate : forall files : Series UInt8,
      Series.Each (fun text => text.length ≤ options.maxFileBytes) files ->
      Series.Each (fun text => text.length ≤ options.maxFileBytes)
        (rotateSeries options files) := fun files hfiles =>
    Series.each_rotate (Nat.zero_le _) options.append options.maxFiles hfiles
  have hactivate := @Series.each_activate _
    (fun text : Bytes => text.length ≤ options.maxFileBytes) (Nat.zero_le _)
    options.append _ h
  unfold WithinQuota
  rw [contents_step hlive hfaults hstep]
  cases hstep with
  | construct disk faults state =>
      unfold Call.effect
      dsimp only
      split
      · exact hrotate _ hactivate
      · exact hactivate
  | destroy s => exact h
  | write s faults record =>
      have hline : (Phase.entries (Phase.running s)
          (Call.write faults record)).flatMap Entry.line =
          (formatter.format s.formatter record s.scratch).1 := by
        simp [Phase.entries]
      rw [entryBytes, hline] at hfits
      rw [hline]
      unfold Call.effect
      dsimp only
      split
      · refine each_extend (hrotate _ h) ?_
        rw [rotateSeries, Series.rotate_zero]
        exact hfits
      · rename_i hstays
        exact each_extend h (fits_of_not_rotates hlimit (hlive s rfl) hstays)
  | flush s => exact h
  | forceRotate s faults => exact hrotate _ h
  | reopen s faults => exact hactivate

end

section

variable {platform : Platform} {options : BufferedRotatingFileSinkOptions}
  {formatter : RecordFormatter} {start : Disk}

theorem withinQuota_step (hlimit : options.maxFileBytes > 0)
    {process process' : RotatingProcess formatter.State}
    {call : RotatingProcessCall formatter.State}
    (hlive : LivePhase options.toRotatingFileSinkOptions process.phase)
    (h : WithinQuota options.toRotatingFileSinkOptions process.phase.disk)
    (hfits : FitsLimit options.toRotatingFileSinkOptions process call)
    (hstep : (rotatingProcesses platform options formatter start).step process
      call = some process') :
    LivePhase options.toRotatingFileSinkOptions process'.phase ∧
      WithinQuota options.toRotatingFileSinkOptions process'.phase.disk := by
  have hstopped : forall disk : Disk,
      LivePhase options.toRotatingFileSinkOptions
        (RotatingProcess.stopped disk :
          RotatingProcess formatter.State).phase := by
    intro disk s hs
    cases hs
  rcases hfits with ⟨hfaults, hfits⟩
  cases call with
  | call kept call =>
      have hsink := sinkStep_of_call hlive hfaults hstep
      exact ⟨livePhase_step hlive hfaults hsink,
        h.call hlimit hlive hfaults hfits hsink⟩
  | kill =>
      cases process with
      | stopped disk => cases hstep
      | running sink =>
          cases hstep
          exact ⟨hstopped _, h.loseBytes sink.unwritten⟩
  | killInRotation done =>
      cases process with
      | stopped disk =>
          rcases Option.ite_none_right_eq_some.mp hstep with ⟨_, hdone⟩
          cases hdone
          exact ⟨hstopped _, (h.openFile platform).rotateUntil done⟩
      | running sink =>
          cases hstep
          exact ⟨hstopped _, h.rotateUntil done⟩

end

/--
If no file is over the limit at first and no record is, then no file ever is,
and all of them together take the limit once for each file at most, also if
processes are killed at any point of any call.
-/
theorem files_within_quota (platform : Platform)
    (options : BufferedRotatingFileSinkOptions) (formatter : RecordFormatter)
    (start : Disk) (hlimit : options.maxFileBytes > 0)
    (hstart : WithinQuota options.toRotatingFileSinkOptions start)
    {process : RotatingProcess formatter.State}
    (h : (rotatingProcesses platform options formatter start).ReachableUnder
      (FitsLimit options.toRotatingFileSinkOptions) process) :
    WithinQuota options.toRotatingFileSinkOptions
        (process.onDisk options.path) ∧
      (Series.trail (contents options.path (process.onDisk options.path))
          options.maxFiles).length ≤
        (options.maxFiles + 1) * options.maxFileBytes := by
  have hinvariant : LivePhase options.toRotatingFileSinkOptions process.phase ∧
      WithinQuota options.toRotatingFileSinkOptions process.phase.disk := by
    refine @Machine.invariantUnder _ _ _ _
      (fun process => LivePhase options.toRotatingFileSinkOptions
        process.phase ∧
        WithinQuota options.toRotatingFileSinkOptions process.phase.disk) ?_ ?_
      process h
    · refine ⟨fun s hs => ?_, hstart⟩
      cases hs
    · intro process call process' _ hprocess hfits hstep
      exact withinQuota_step hlimit hprocess.1 hprocess.2 hfits hstep
  have hquota : WithinQuota options.toRotatingFileSinkOptions
      (process.onDisk options.path) := by
    cases process with
    | stopped disk => exact hinvariant.2
    | running sink => exact hinvariant.2.loseBytes sink.unwritten
  exact ⟨hquota, Series.length_trail_le hquota options.maxFiles⟩

def fiveByteFiles : BufferedRotatingFileSinkOptions where
  path := ascii "a"
  maxFiles := 2
  maxFileBytes := 5

theorem oldLog_withinQuota :
    WithinQuota fiveByteFiles.toRotatingFileSinkOptions oldLog := by
  intro k text htext
  cases k with
  | zero =>
      cases htext
      decide
  | succ k =>
      have hother : slotName (ascii "a") (k + 1) ≠ ascii "a" := fun heq =>
        Nat.succ_ne_zero k (slotName_injective (ascii "a") heq)
      have hnone : contents fiveByteFiles.path oldLog (k + 1) = none := by
        show (oldLog (slotName (ascii "a") (k + 1))).map File.contents = none
        rw [oldLog, Directory.store_of_ne _ _ hother]
        rfl
      rw [hnone] at htext
      cases htext

theorem killed_within_quota :
    exists process, (rotatingProcesses smallPlatform fiveByteFiles
        messageFormatter oldLog).ReachableUnder
        (FitsLimit fiveByteFiles.toRotatingFileSinkOptions) process ∧
      (Series.trail (contents (ascii "a") (process.onDisk (ascii "a")))
        2).length ≤ 15 := by
  have hconstructed := Machine.ReachableUnder.step
    (a := RotatingProcessCall.call 0 (Call.construct {} ()))
    (Machine.ReachableUnder.init : (rotatingProcesses smallPlatform
      fiveByteFiles messageFormatter oldLog).ReachableUnder
        (FitsLimit fiveByteFiles.toRotatingFileSinkOptions) _)
    ⟨rfl, by decide⟩ rfl
  have hwritten := Machine.ReachableUnder.step
    (a := RotatingProcessCall.call 2 (Call.write {} { message := ascii "one" }))
    hconstructed ⟨rfl, by decide⟩ rfl
  have hkilled := Machine.ReachableUnder.step
    (a := RotatingProcessCall.killInRotation 2) hwritten ⟨trivial, trivial⟩ rfl
  exact ⟨_, hkilled, (files_within_quota smallPlatform fiveByteFiles
    messageFormatter oldLog (by decide) oldLog_withinQuota hkilled).2⟩

end Sinks
end NginLog
