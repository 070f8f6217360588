import NginLog.Sinks.NumberedFiles

/-!
# What rotation retains

A run of the sink without failures, against the series of its files: every call
opens the active file, rotates the series or appends one formatted record.  So
the files always hold the end of what they held at first followed by what was
written.  A rotation drops the last file, the history notes what that was, and
nothing else is dropped.
-/

namespace NginLog
namespace Sinks

open Foundation Record Formatting RotatingFileSink

/-!
## Steps
-/

section

variable {platform : Platform} {options : RotatingFileSinkOptions}
  {formatter : RecordFormatter} {start : Disk}

inductive SinkStep (platform : Platform) (options : RotatingFileSinkOptions)
    (formatter : RecordFormatter) :
    Phase formatter.State -> Call formatter.State -> Phase formatter.State ->
      Prop where
  | construct (disk : Disk) (faults : Faults) (state : formatter.State) :
      SinkStep platform options formatter (Phase.stopped disk)
        (Call.construct faults state)
        (Phase.running
          (RotatingFileSink.construct platform options faults state disk))
  | destroy (s : RotatingFileSink formatter.State) :
      SinkStep platform options formatter (Phase.running s) Call.destroy
        (Phase.stopped (closeFileLocked s).disk)
  | write (s : RotatingFileSink formatter.State) (faults : Faults)
      (record : LogRecordView) :
      SinkStep platform options formatter (Phase.running s)
        (Call.write faults record)
        (Phase.running
          (RotatingFileSink.write platform options formatter faults record s))
  | flush (s : RotatingFileSink formatter.State) :
      SinkStep platform options formatter (Phase.running s) Call.flush
        (Phase.running s)
  | forceRotate (s : RotatingFileSink formatter.State) (faults : Faults) :
      SinkStep platform options formatter (Phase.running s)
        (Call.forceRotate faults)
        (Phase.running
          (RotatingFileSink.forceRotate platform options faults s).2)
  | reopen (s : RotatingFileSink formatter.State) (faults : Faults) :
      SinkStep platform options formatter (Phase.running s) (Call.reopen faults)
        (Phase.running (RotatingFileSink.reopen platform options faults s).2)

theorem sinkStep_of_step {phase phase' : Phase formatter.State}
    {call : Call formatter.State}
    (h : (rotatingFileSink platform options formatter start).step phase call =
      some phase') :
    SinkStep platform options formatter phase call phase' := by
  cases phase with
  | stopped disk =>
      cases call with
      | construct faults state =>
          cases h
          exact SinkStep.construct disk faults state
      | _ => cases h
  | running s =>
      cases call with
      | construct faults state => cases h
      | destroy =>
          cases h
          exact SinkStep.destroy s
      | write faults record =>
          cases h
          exact SinkStep.write s faults record
      | flush =>
          cases h
          exact SinkStep.flush s
      | forceRotate faults =>
          cases h
          exact SinkStep.forceRotate s faults
      | reopen faults =>
          cases h
          exact SinkStep.reopen s faults

end

/-!
## The effect of a call on a series
-/

def rotateSeries {item : Type} (options : RotatingFileSinkOptions)
    (files : Series item) : Series item :=
  files.rotate options.append false (fun _ => false) options.maxFiles

def Call.effect {State item : Type} (options : RotatingFileSinkOptions)
    (rotates : Bool) (items : List item) (files : Series item) :
    Call State -> Series item
  | construct _ _ =>
      if options.rotateAtStartup then
        rotateSeries options (files.activate options.append)
      else
        files.activate options.append
  | destroy => files
  | write _ _ => (if rotates then rotateSeries options files else files).extend
      items
  | flush => files
  | forceRotate _ => rotateSeries options files
  | reopen _ => files.activate options.append

/-- A part of a file: a record that was written, or what was there at first. -/
structure Entry where
  line : Bytes
  record : Option LogRecordView := none

def Phase.entries {formatter : RecordFormatter} :
    Phase formatter.State -> Call formatter.State -> List Entry
  | running s, Call.write _ record =>
      [{ line := (formatter.format s.formatter record s.scratch).1,
         record := some record }]
  | _, _ => []

def Phase.rotates (platform : Platform) (options : RotatingFileSinkOptions)
    {formatter : RecordFormatter} :
    Phase formatter.State -> Call formatter.State -> Bool
  | running s, Call.write _ record =>
      RotatingFileSink.rotates formatter platform options record s
  | _, _ => false

/-- Whether a call rotates, be it a write or not. -/
def Phase.callRotates (platform : Platform) (options : RotatingFileSinkOptions)
    {formatter : RecordFormatter} (phase : Phase formatter.State) :
    Call formatter.State -> Bool
  | Call.construct _ _ => options.rotateAtStartup
  | Call.forceRotate _ => true
  | call => phase.rotates platform options call

section

variable {platform : Platform} {options : RotatingFileSinkOptions}
  {formatter : RecordFormatter} {phase phase' : Phase formatter.State}
  {call : Call formatter.State}

def LivePhase (options : RotatingFileSinkOptions)
    (phase : Phase formatter.State) : Prop :=
  forall s, phase = Phase.running s -> Live options s

theorem contents_step (hlive : LivePhase options phase)
    (hfaults : call.faults = {})
    (hstep : SinkStep platform options formatter phase call phase') :
    contents options.path phase'.disk =
      call.effect options (phase.rotates platform options call)
        ((phase.entries call).flatMap Entry.line)
        (contents options.path phase.disk) := by
  cases hstep with
  | construct disk faults state =>
      cases hfaults
      have hopen : contents options.path (openFile platform options disk) = _ :=
        contents_openFile platform options disk
      show contents options.path
        (RotatingFileSink.construct platform options {} state disk).disk = _
      unfold RotatingFileSink.construct Call.effect
      dsimp only
      split
      · rw [contents_rotateLocked platform rfl]
        exact congrArg _ hopen
      · exact hopen
  | destroy s => rfl
  | write s faults record =>
      cases hfaults
      have hs := hlive s rfl
      have hrotated : Live options (rotatedIfDue platform options {} record s) :=
        live_rotatedIfDue platform rfl hs record
      show contents options.path (RotatingFileSink.write platform options
        formatter {} record s).disk = _
      rw [hs.write platform rfl, contents_writeScratch hrotated,
        scratch_rotatedIfDue, contents_rotatedIfDue platform rfl]
      simp only [Phase.entries, List.flatMap_cons, List.flatMap_nil,
        List.append_nil]
      rfl
  | flush s => rfl
  | forceRotate s faults =>
      cases hfaults
      exact contents_rotateLocked platform rfl s
  | reopen s faults =>
      cases hfaults
      exact contents_openFile platform options s.disk

theorem livePhase_step (hlive : LivePhase options phase)
    (hfaults : call.faults = {})
    (hstep : SinkStep platform options formatter phase call phase') :
    LivePhase options phase' := by
  intro s' heq
  cases hstep with
  | construct disk faults state =>
      cases hfaults
      cases heq
      unfold RotatingFileSink.construct
      dsimp only
      split
      · exact live_rotateLocked platform rfl _
      · exact live_openFileLocked platform _
  | destroy s => cases heq
  | write s faults record =>
      cases hfaults
      cases heq
      rw [(hlive s rfl).write platform rfl]
      exact live_writeScratch
        (live_rotatedIfDue platform rfl (hlive s rfl) record)
  | flush s =>
      exact hlive s' heq
  | forceRotate s faults =>
      cases hfaults
      cases heq
      exact live_rotateLocked platform rfl s
  | reopen s faults =>
      cases hfaults
      cases heq
      exact live_openFileLocked platform _

theorem outside_step {name : Bytes}
    (houtside : Outside options.path options.maxFiles name)
    (hlive : LivePhase options phase) (hfaults : call.faults = {})
    (hstep : SinkStep platform options formatter phase call phase') :
    phase'.disk name = phase.disk name := by
  cases hstep with
  | construct disk faults state =>
      have hopen : forall fails, (openFileLocked platform options fails
          { disk := disk, formatter := state }).2.disk name = disk name :=
        fun fails => openFileLocked_outside platform houtside fails _
      show (RotatingFileSink.construct platform options faults state disk).disk
        name = disk name
      unfold RotatingFileSink.construct
      dsimp only
      split
      · rw [rotateLocked_outside platform houtside, hopen]
      · exact hopen _
  | destroy s => rfl
  | write s faults record =>
      cases hfaults
      show (RotatingFileSink.write platform options formatter {} record
        s).disk name = s.disk name
      rw [(hlive s rfl).write platform rfl, writeScratch_outside houtside,
        rotatedIfDue_outside platform houtside]
  | flush s => rfl
  | forceRotate s faults => exact rotateLocked_outside platform houtside _ _
  | reopen s faults => exact openFileLocked_outside platform houtside _ _

end

/-!
## The history of a run
-/

/-- What was written in all, and what each file of the series holds of it. -/
structure Past where
  written : List Entry := []
  files : Series Entry

/-- Each file of the series as one entry. -/
def initialFiles (path : Bytes) (disk : Disk) : Series Entry :=
  Directory.map (fun text => [{ line := text }]) (contents path disk)

def notePast (platform : Platform) (options : RotatingFileSinkOptions)
    {formatter : RecordFormatter} (phase : Phase formatter.State)
    (call : Call formatter.State) (_ : Phase formatter.State) (past : Past) :
    Past where
  written := past.written ++ phase.entries call
  files := call.effect options (phase.rotates platform options call)
    (phase.entries call) past.files

/-- The sink on a disk, with the history of what it has written. -/
def sinkHistory (platform : Platform) (options : RotatingFileSinkOptions)
    (formatter : RecordFormatter) (disk : Disk) :
    Machine (Phase formatter.State × Past) (Call formatter.State) :=
  (rotatingFileSink platform options formatter disk).recording
    { files := initialFiles options.path disk } (notePast platform options)

def NoFaults {state State : Type} (_ : state) (call : Call State) : Prop :=
  call.faults = {}

section

variable {platform : Platform} {options : RotatingFileSinkOptions}
  {formatter : RecordFormatter} {disk : Disk}

theorem project_initialFiles (path : Bytes) (disk : Disk) :
    (initialFiles path disk).project Entry.line = contents path disk := by
  funext k
  unfold initialFiles Series.project Directory.map
  cases contents path disk k <;> simp

theorem project_rotateSeries {item other : Type} (f : item -> List other)
    (files : Series item) :
    (rotateSeries options files).project f =
      rotateSeries options (files.project f) :=
  Series.project_rotate f _ _ _ _ files

theorem project_effect {State item other : Type} (f : item -> List other)
    (call : Call State) (rotates : Bool) (items : List item)
    (files : Series item) :
    (call.effect options rotates items files).project f =
      call.effect options rotates (items.flatMap f) (files.project f) := by
  cases call with
  | construct faults state =>
      unfold Call.effect
      dsimp only
      split
      · rw [project_rotateSeries, Series.project_activate]
      · exact Series.project_activate f _ files
  | destroy => rfl
  | write faults record =>
      unfold Call.effect
      dsimp only
      rw [Series.project_extend]
      split
      · rw [project_rotateSeries]
      · rfl
  | flush => rfl
  | forceRotate faults => exact project_rotateSeries f files
  | reopen faults => exact Series.project_activate f _ files

theorem trail_rotateSeries {item : Type} (files : Series item) :
    Series.trail files options.maxFiles =
      (files options.maxFiles).getD [] ++
        Series.trail (rotateSeries options files) options.maxFiles :=
  Series.trail_rotate options.append files options.maxFiles

theorem retains_effect (happend : options.append = true)
    {phase phase' : Phase formatter.State} {call : Call formatter.State}
    (hstep : SinkStep platform options formatter phase call phase')
    (files : Series Entry) :
    Series.Retains options.maxFiles (phase.callRotates platform options call)
      (phase.entries call) files
      (call.effect options (phase.rotates platform options call)
        (phase.entries call) files) := by
  have hrotate : forall files : Series Entry,
      Series.Retains options.maxFiles true [] files
        (rotateSeries options files) := fun files =>
    Series.retains_rotate options.append files options.maxFiles
  have hself : forall files : Series Entry,
      Series.Retains options.maxFiles false [] files files :=
    Series.retains_self options.maxFiles
  cases hstep with
  | construct disk faults state =>
      apply Series.Retains.of_activate
      unfold Call.effect Phase.callRotates
      dsimp only
      rw [happend]
      cases options.rotateAtStartup with
      | false => exact hself _
      | true => exact hrotate _
  | destroy s => exact hself files
  | write s faults record =>
      unfold Call.effect Phase.callRotates
      dsimp only
      apply Series.Retains.extend
      cases (Phase.running s).rotates platform options
          (Call.write faults record) with
      | false => exact hself files
      | true => exact hrotate files
  | flush s => exact hself files
  | forceRotate s faults => exact hrotate files
  | reopen s faults =>
      apply Series.Retains.of_activate
      unfold Call.effect
      rw [happend]
      exact hself _

/-!
## Every run
-/

structure Recorded (options : RotatingFileSinkOptions) (start : Disk)
    (phase : Phase formatter.State) (past : Past) : Prop where
  live : LivePhase options phase
  files : contents options.path phase.disk = past.files.project Entry.line
  untouched : forall name, Outside options.path options.maxFiles name ->
    phase.disk name = start name

theorem recorded_step {phase phase' : Phase formatter.State} {past : Past}
    {call : Call formatter.State} (h : Recorded options disk phase past)
    (hfaults : call.faults = {})
    (hstep : SinkStep platform options formatter phase call phase') :
    Recorded options disk phase'
      (notePast platform options phase call phase' past) := by
  refine ⟨livePhase_step h.live hfaults hstep, ?_, ?_⟩
  · rw [contents_step h.live hfaults hstep, h.files]
    exact (project_effect Entry.line call _ _ past.files).symm
  · intro name houtside
    rw [outside_step houtside h.live hfaults hstep, h.untouched name houtside]

theorem reachable_recorded {s : Phase formatter.State × Past}
    (h : (sinkHistory platform options formatter disk).ReachableUnder
      NoFaults s) :
    Recorded options disk s.1 s.2 := by
  refine @Machine.recordingInvariantUnder _ _ _ _ _ _ NoFaults
    (Recorded options disk) ?_ ?_ s h
  · refine ⟨fun s heq => ?_, (project_initialFiles _ _).symm, fun _ _ => rfl⟩
    cases heq
  · intro phase past call phase' _ hpast hfaults hstep
    exact recorded_step hpast hfaults (sinkStep_of_step hstep)

def noteDropped (platform : Platform) (options : RotatingFileSinkOptions)
    {formatter : RecordFormatter} (s : Phase formatter.State × Past)
    (call : Call formatter.State) (_ : Phase formatter.State × Past)
    (dropped : List Entry) : List Entry :=
  dropped ++
    if s.1.callRotates platform options call then
      (s.2.files options.maxFiles).getD []
    else
      []

/-- The sink with the history of what it has written and dropped. -/
def retentionHistory (platform : Platform) (options : RotatingFileSinkOptions)
    (formatter : RecordFormatter) (disk : Disk) :
    Machine ((Phase formatter.State × Past) × List Entry)
      (Call formatter.State) :=
  (sinkHistory platform options formatter disk).recording []
    (noteDropped platform options)

theorem sinkHistory_step {s s' : Phase formatter.State × Past}
    {call : Call formatter.State}
    (h : (sinkHistory platform options formatter disk).step s call = some s') :
    SinkStep platform options formatter s.1 call s'.1 ∧
      s'.2 = notePast platform options s.1 call s'.1 s.2 := by
  rcases Machine.recording_step h with ⟨hphase, hpast⟩
  exact ⟨sinkStep_of_step hphase, hpast⟩

theorem reachable_kept (happend : options.append = true)
    {s : (Phase formatter.State × Past) × List Entry}
    (h : (retentionHistory platform options formatter disk).ReachableUnder
      NoFaults s) :
    Series.trail (initialFiles options.path disk) options.maxFiles ++
        s.1.2.written =
      s.2 ++ Series.trail s.1.2.files options.maxFiles := by
  refine @Machine.recordingInvariantUnder _ _ _ _ _ _ NoFaults
    (fun (s : Phase formatter.State × Past) dropped =>
      Series.trail (initialFiles options.path disk) options.maxFiles ++
          s.2.written =
        dropped ++ Series.trail s.2.files options.maxFiles) ?_ ?_ s h
  · exact List.append_nil _
  · intro s dropped call s' _ hkept _ hstep
    rcases sinkHistory_step hstep with ⟨hcall, hpast⟩
    have hretains := (retains_effect happend hcall s.2.files).dropped
    rw [hpast]
    show _ ++ (s.2.written ++ s.1.entries call) = _
    rw [← List.append_assoc, hkept, List.append_assoc, hretains,
      ← List.append_assoc]
    rfl

/-- What the files hold of what was there at first and was written. -/
structure RetainsTail (options : RotatingFileSinkOptions) (start disk : Disk)
    (past : Past) (dropped : List Entry) : Prop where
  /-- Each file consists of whole records, and of older text. -/
  files : contents options.path disk = past.files.project Entry.line
  /-- Only what rotations have dropped is missing. -/
  kept : Series.trail (initialFiles options.path start) options.maxFiles ++
      past.written =
    dropped ++ Series.trail past.files options.maxFiles
  tail : Series.trail (contents options.path disk) options.maxFiles <:+
    Series.trail (contents options.path start) options.maxFiles ++
      past.written.flatMap Entry.line
  untouched : forall name, Outside options.path options.maxFiles name ->
    disk name = start name

theorem reachable_retainsTail (happend : options.append = true)
    {s : (Phase formatter.State × Past) × List Entry}
    (h : (retentionHistory platform options formatter disk).ReachableUnder
      NoFaults s) :
    RetainsTail options disk s.1.1.disk s.1.2 s.2 := by
  have hrecorded := reachable_recorded (Machine.recording_reachableUnder h)
  have hkept := reachable_kept happend h
  refine ⟨hrecorded.files, hkept, ⟨s.2.flatMap Entry.line, ?_⟩,
    hrecorded.untouched⟩
  rw [hrecorded.files, Series.trail_project, ← List.flatMap_append, ← hkept,
    List.flatMap_append, ← Series.trail_project, project_initialFiles]

/-- What a call does to the files, as entries and as the disk has them. -/
structure StepRetains (platform : Platform) (options : RotatingFileSinkOptions)
    {formatter : RecordFormatter} (call : Call formatter.State)
    (s s' : Phase formatter.State × Past) : Prop where
  entries : Series.Retains options.maxFiles
    (s.1.callRotates platform options call) (s.1.entries call) s.2.files
    s'.2.files
  disk : Series.Retains options.maxFiles
    (s.1.callRotates platform options call)
    ((s.1.entries call).flatMap Entry.line) (contents options.path s.1.disk)
    (contents options.path s'.1.disk)

theorem step_retains (happend : options.append = true)
    {s s' : (Phase formatter.State × Past) × List Entry}
    {call : Call formatter.State}
    (h : (retentionHistory platform options formatter disk).ReachableUnder
      NoFaults s)
    (hfaults : call.faults = {})
    (hstep : (retentionHistory platform options formatter disk).step s call =
      some s') :
    StepRetains platform options call s.1 s'.1 := by
  rcases sinkHistory_step (Machine.recording_step hstep).1 with ⟨hcall, hpast⟩
  have hrecorded := reachable_recorded (Machine.recording_reachableUnder h)
  have hrecorded' := recorded_step hrecorded hfaults hcall
  have hentries := retains_effect happend hcall s.1.2.files
  constructor
  · rw [hpast]
    exact hentries
  · rw [hrecorded.files, hrecorded'.files]
    exact hentries.project Entry.line

/-- A rotation loses the last file, and each other one gets the next number. -/
structure DropsLast (limit : Nat) (before after : Series UInt8) : Prop where
  trail : Series.trail before limit =
    (before limit).getD [] ++ Series.trail after limit
  up : forall k, k < limit -> after (k + 1) = before k
  active : after 0 = some []

theorem dropsLast_rotateSeries (files : Series UInt8) :
    DropsLast options.maxFiles files (rotateSeries options files) :=
  ⟨trail_rotateSeries files, fun _ hk => Series.rotate_succ _ files hk,
    Series.rotate_zero _ files _⟩

end

/--
Whatever the sizes, the days and the calls: a call drops what it rotates away
and ends the active file with the record that it writes, and so the files hold
a suffix of what they held at first and of the records.
-/
theorem rotation_retains_tail (platform : Platform)
    (options : RotatingFileSinkOptions) (formatter : RecordFormatter)
    (disk : Disk) (happend : options.append = true) :
    (forall s, (retentionHistory platform options formatter disk).ReachableUnder
        NoFaults s ->
      RetainsTail options disk s.1.1.disk s.1.2 s.2 ∧
        forall call s', call.faults = {} ->
          (retentionHistory platform options formatter disk).step s call =
            some s' ->
          StepRetains platform options call s.1 s'.1) ∧
    forall s : RotatingFileSink formatter.State,
      DropsLast options.maxFiles (contents options.path s.disk)
        (contents options.path
          (rotateLocked platform options {} s).2.disk) := by
  constructor
  · intro s hs
    exact ⟨reachable_retainsTail happend hs,
      fun _ _ hfaults hstep => step_retains happend hs hfaults hstep⟩
  · intro s
    rw [contents_rotateLocked platform rfl]
    exact dropsLast_rotateSeries _

def messageFormatter : RecordFormatter where
  State := Unit
  init := ()
  format := fun _ record _ => (record.message, ())

/-- Years of 365 days from 1970 on, and inodes not used in the series. -/
def smallPlatform : Platform where
  localtime := fun seconds =>
    let days := seconds.toInt.toNat / 86400
    some { year := 1970 + (days / 365 : Nat),
           yearDay := ⟨days % 365, by omega⟩ }
  newFile := fun disk path =>
    (1, (([1, 2, 3, 4] : List UInt64).find? fun inode =>
      (List.range 4).all fun k =>
        decide ((disk (slotName path k)).map File.inode ≠ some inode)).getD 5)

def oldLog : Disk :=
  Directory.store (fun _ => none) (ascii "a")
    { device := 1, inode := 9, contents := ascii "old" }

def smallLog : RotatingFileSinkOptions where
  path := ascii "a"
  maxFiles := 1
  maxFileBytes := 5

def smallTrace : List (Call messageFormatter.State) :=
  [Call.construct {} (), Call.write {} { message := ascii "one" },
    Call.forceRotate {}]

theorem small_run_is_retained :
    exists s, (retentionHistory smallPlatform smallLog messageFormatter
        oldLog).ReachableUnder NoFaults s ∧
      s.2.map Entry.line = [ascii "old"] ∧
      RetainsTail smallLog oldLog s.1.1.disk s.1.2 s.2 := by
  have hrun : (retentionHistory smallPlatform smallLog messageFormatter
      oldLog).run smallTrace = some _ := rfl
  have hnone : forall call, call ∈ smallTrace -> call.faults = {} := by
    intro call hcall
    simp only [smallTrace, List.mem_cons, List.not_mem_nil, or_false] at hcall
    rcases hcall with rfl | rfl | rfl <;> rfl
  have hreachable := Machine.reachableUnder_of_run hnone hrun
  exact ⟨_, hreachable, rfl, ((rotation_retains_tail smallPlatform smallLog
    messageFormatter oldLog rfl).1 _ hreachable).1⟩

/-!
## Rotation at startup
-/

/-- The files of the last run after a rotation at startup. -/
structure PreservesLastRun (limit : Nat) (before after : Series UInt8) :
    Prop where
  first : after 1 = before 0
  up : forall i, 1 ≤ i -> i < limit -> after (i + 1) = before i
  active : after 0 = some []

/-- The constructor opens the file before it rotates. -/
theorem startup_rotation_preserves_iff {State : Type} (platform : Platform)
    (options : RotatingFileSinkOptions) (state : State) (disk : Disk)
    (file : File) (hfiles : 1 ≤ options.maxFiles)
    (hstartup : options.rotateAtStartup = true)
    (hpath : disk options.path = some file) :
    PreservesLastRun options.maxFiles (contents options.path disk)
        (contents options.path
          (construct platform options {} state disk).disk) <->
      options.append = true ∨ file.contents = [] := by
  have hafter : contents options.path
      (construct platform options {} state disk).disk =
        rotateSeries options
          ((contents options.path disk).activate options.append) := by
    unfold construct
    dsimp only
    rw [if_pos hstartup, contents_rotateLocked platform rfl]
    exact congrArg _ (contents_openFile platform options disk)
  have hbefore : contents options.path disk 0 = some file.contents := by
    rw [contents_path, hpath]
    rfl
  have hactivated : forall i, 1 ≤ i ->
      (contents options.path disk).activate options.append i =
        contents options.path disk i := fun i hi =>
    Directory.store_of_ne _ _ (Nat.ne_of_gt hi)
  have hup : forall i, i < options.maxFiles ->
      rotateSeries options
          ((contents options.path disk).activate options.append) (i + 1) =
        (contents options.path disk).activate options.append i :=
    fun i hi => Series.rotate_succ _ _ hi
  have hfirst : (contents options.path disk).activate options.append 0 =
      some (if options.append then file.contents else []) := by
    unfold Series.activate
    rw [Directory.store_self, hbefore]
    rfl
  rw [hafter]
  constructor
  · intro h
    have hsame := h.first
    rw [hup 0 hfiles, hfirst, hbefore, Option.some.injEq] at hsame
    by_cases happend : options.append = true
    · exact Or.inl happend
    · rw [if_neg happend] at hsame
      exact Or.inr hsame.symm
  · intro h
    refine ⟨?_, ?_, Series.rotate_zero _ _ _⟩
    · rw [hup 0 hfiles, hfirst, hbefore]
      rcases h with happend | hempty
      · rw [if_pos happend]
      · rw [hempty, ite_self]
    · intro i hpos hi
      rw [hup i hi, hactivated i hpos]

theorem appending_preserves_last_run :
    PreservesLastRun 5 (contents (ascii "a") oldLog)
      (contents (ascii "a")
        (construct smallPlatform
          { path := ascii "a", rotateAtStartup := true } {} () oldLog).disk) :=
  (startup_rotation_preserves_iff smallPlatform
    { path := ascii "a", rotateAtStartup := true } () oldLog
    { device := 1, inode := 9, contents := ascii "old" } (by decide) rfl
    rfl).mpr (Or.inl rfl)

/-- Without append, the old log is emptied before it is moved away. -/
theorem truncating_loses_last_run :
    oldLog (ascii "a") =
        some { device := 1, inode := 9, contents := ascii "old" } ∧
      ¬ PreservesLastRun 5 (contents (ascii "a") oldLog)
        (contents (ascii "a")
          (construct smallPlatform
            { path := ascii "a", append := false, rotateAtStartup := true }
            {} () oldLog).disk) := by
  refine ⟨rfl, fun h => ?_⟩
  have hfirst : some ([] : Bytes) = some (ascii "old") := h.first
  exact absurd hfirst (by decide)

end Sinks
end NginLog
