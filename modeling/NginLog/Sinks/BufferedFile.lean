import NginLog.Sinks.FileSink

/-!
# What a crash leaves of a log file

`FileSink` writes through a stdio stream, which may hold the last bytes back.
`fflush` hands them over, and so does closing the file.  When the process is
killed, the bytes that the stream still holds are lost, and no others.

The processes of a run follow each other on one file.  Opening the file may
fail; the record of a `Write` that cannot open it is discarded by the code.

The functions have the names that they have in the source.  A new stream holds
nothing, and after an `fwrite` a stream keeps at most `kept` bytes.
-/

namespace NginLog
namespace Sinks

open Foundation Record Formatting

structure BufferedFileSinkOptions extends FileSinkOptions where
  autoFlush : Bool := false

/-- The sink, and how many of the last bytes of the file its stream holds. -/
structure BufferedFileSink (State : Type) extends FileSink State where
  unwritten : Nat := 0

namespace BufferedFileSink

variable (options : BufferedFileSinkOptions) {State : Type}

/-- The bytes that are in the file whatever becomes of the process. -/
def onDisk (s : BufferedFileSink State) : Bytes :=
  (s.file.getD []).take ((s.file.getD []).length - s.unwritten)

def fflush (s : BufferedFileSink State) : BufferedFileSink State :=
  { s with unwritten := 0 }

def fwrite (kept : Nat) (s : BufferedFileSink State) :
    BufferedFileSink State :=
  { s with
    file := s.file.map fun content => content ++ s.scratch
    unwritten := min kept (s.unwritten + s.scratch.length) }

def openFileLocked (fails : Bool) (s : BufferedFileSink State) :
    Bool × BufferedFileSink State :=
  let opened :=
    FileSink.openFileLocked options.toFileSinkOptions fails s.toFileSink
  (opened.1, { toFileSink := opened.2 })

def closeFileLocked (s : BufferedFileSink State) : BufferedFileSink State :=
  if s.fileOpen then
    { s.fflush with toFileSink := FileSink.closeFileLocked s.toFileSink }
  else
    s

def construct (fails : Bool) (formatter : Option State)
    (file : Option Bytes) : BufferedFileSink State :=
  (openFileLocked options fails { file := file, formatter := formatter }).2

def reopen (fails : Bool) (s : BufferedFileSink State) :
    Bool × BufferedFileSink State :=
  openFileLocked options fails (closeFileLocked s)

def flush (s : BufferedFileSink State) : BufferedFileSink State :=
  if s.fileOpen then s.fflush else s

variable (formatter : RecordFormatter)

def write (kept : Nat) (fails creationFails : Bool) (record : LogRecordView)
    (s : BufferedFileSink formatter.State) :
    BufferedFileSink formatter.State :=
  let s := { s with
    toFileSink :=
      s.toFileSink.formatRecordLocked formatter creationFails record }
  let opened := if s.fileOpen then (true, s) else openFileLocked options fails s
  if opened.1 then
    let s := opened.2.fwrite kept
    if options.autoFlush then s.fflush else s
  else
    opened.2

end BufferedFileSink

/-!
## Processes
-/

inductive FileProcess (State : Type) where
  | stopped (file : Option Bytes)
  | running (sink : BufferedFileSink State)

/-- What the file would hold if the process were killed now. -/
def FileProcess.onDisk {State : Type} : FileProcess State -> Bytes
  | stopped file => file.getD []
  | running s => s.onDisk

inductive ProcessCall (State : Type) where
  | construct (fails : Bool) (formatter : Option State)
  | write (kept : Nat) (fails creationFails : Bool) (record : LogRecordView)
  | flush
  | reopen (fails : Bool)
  | destroy
  /-- The process is killed. -/
  | crash

open BufferedFileSink in
def loggingProcesses (options : BufferedFileSinkOptions)
    (formatter : RecordFormatter) (file : Option Bytes) :
    Machine (FileProcess formatter.State) (ProcessCall formatter.State) where
  init := FileProcess.stopped file
  step := fun process call =>
    match process, call with
    | FileProcess.stopped file, ProcessCall.construct fails state =>
        some (FileProcess.running (construct options fails state file))
    | FileProcess.running s, ProcessCall.write kept fails creationFails record =>
        some (FileProcess.running
          (write options formatter kept fails creationFails record s))
    | FileProcess.running s, ProcessCall.flush =>
        some (FileProcess.running s.flush)
    | FileProcess.running s, ProcessCall.reopen fails =>
        some (FileProcess.running (reopen options fails s).2)
    | FileProcess.running s, ProcessCall.destroy =>
        some (FileProcess.stopped s.closeFileLocked.file)
    | FileProcess.running s, ProcessCall.crash =>
        some (FileProcess.stopped (s.file.map fun _ => s.onDisk))
    | _, _ => none

/-- What has happened since the latest process began. -/
structure FileHistory where
  /-- What the file held then. -/
  before : Bytes := []
  /-- The records that were written to the file, each with its text. -/
  written : List (LogRecordView × Bytes) := []
  /-- How many of them had been written when the stream was last emptied. -/
  flushed : Nat := 0

namespace FileHistory

def texts (history : FileHistory) : List Bytes :=
  history.written.map Prod.snd

def flush (history : FileHistory) : FileHistory :=
  { history with flushed := history.written.length }

def write (history : FileHistory) (record : LogRecordView) (text : Bytes) :
    FileHistory :=
  { history with written := history.written ++ [(record, text)] }

end FileHistory

section

variable (options : BufferedFileSinkOptions) (formatter : RecordFormatter)

def noteCall (process : FileProcess formatter.State)
    (call : ProcessCall formatter.State)
    (process' : FileProcess formatter.State) (history : FileHistory) :
    FileHistory :=
  match process, call, process' with
  | FileProcess.stopped file, ProcessCall.construct _ _, _ =>
      { before := file.getD [] }
  | _, ProcessCall.write _ _ _ record, FileProcess.running s =>
      if s.fileOpen then
        let history := history.write record s.scratch
        if options.autoFlush then history.flush else history
      else
        history
  | FileProcess.running s, ProcessCall.flush, _ =>
      if s.fileOpen then history.flush else history
  | _, ProcessCall.reopen _, _ => history.flush
  | _, ProcessCall.destroy, _ => history.flush
  | _, _, _ => history

def fileHistory (file : Option Bytes) :
    Machine (FileProcess formatter.State × FileHistory)
      (ProcessCall formatter.State) :=
  (loggingProcesses options formatter file).recording
    { before := file.getD [] } (noteCall options formatter)

end

/-!
## The buffer only delays

Apart from its stream the sink does what `FileSink` is said to do.
-/

section

variable {options : BufferedFileSinkOptions} {formatter : RecordFormatter}

theorem write_toFileSink (kept : Nat) (fails creationFails : Bool)
    (record : LogRecordView) (s : BufferedFileSink formatter.State) :
    (s.write options formatter kept fails creationFails record).toFileSink =
      FileSink.write options.toFileSinkOptions formatter fails creationFails
        record s.toFileSink := by
  unfold BufferedFileSink.write FileSink.write
  cases hopen : (s.toFileSink.formatRecordLocked formatter creationFails
      record).fileOpen with
  | true =>
      cases hflush : options.autoFlush <;>
        simp [hopen, BufferedFileSink.fwrite, BufferedFileSink.fflush]
  | false =>
      cases fails <;> cases hflush : options.autoFlush <;>
        simp [hopen, BufferedFileSink.fwrite, BufferedFileSink.fflush,
          BufferedFileSink.openFileLocked, FileSink.openFileLocked]

end

/-!
## What is on the disk
-/

/-- All that was flushed, and nothing that was not written. -/
structure Survives (disk : Bytes) (history : FileHistory) : Prop where
  flushed_le : history.flushed ≤ history.written.length
  flushed : history.before ++ (history.texts.take history.flushed).flatten <+:
    disk
  written : disk <+: history.before ++ history.texts.flatten

structure InStep {State : Type} (s : BufferedFileSink State)
    (history : FileHistory) : Prop where
  flushed_le : history.flushed ≤ history.written.length
  content : s.file.getD [] = history.before ++ history.texts.flatten
  unwritten : s.unwritten ≤
    (history.texts.drop history.flushed).flatten.length
  exists_file : s.fileOpen = true -> s.file.isSome

theorem InStep.survives {State : Type} {s : BufferedFileSink State}
    {history : FileHistory} (h : InStep s history) :
    Survives s.onDisk history where
  flushed_le := h.flushed_le
  flushed := by
    have hparts : history.texts.flatten =
        (history.texts.take history.flushed).flatten ++
          (history.texts.drop history.flushed).flatten := by
      rw [← List.flatten_append, List.take_append_drop]
    have hunwritten := h.unwritten
    rw [BufferedFileSink.onDisk, h.content, hparts, ← List.append_assoc]
    refine List.prefix_of_prefix_length_le (List.prefix_append _ _)
      (List.take_prefix _ _) ?_
    simp only [List.length_take, List.length_append]
    omega
  written := by
    rw [BufferedFileSink.onDisk, h.content]
    exact List.take_prefix _ _

theorem Survives.flush {disk : Bytes} {history : FileHistory}
    (hdisk : disk = history.before ++ history.texts.flatten) :
    Survives disk history.flush where
  flushed_le := Nat.le_refl _
  flushed := by
    have hall : history.texts.take history.written.length = history.texts :=
      List.take_of_length_le (by simp [FileHistory.texts])
    show history.before ++ (history.texts.take history.written.length).flatten
      <+: disk
    rw [hall, hdisk]
  written := by
    rw [hdisk]
    exact List.prefix_rfl

section

variable {State : Type} {s : BufferedFileSink State} {history : FileHistory}
  {options : BufferedFileSinkOptions}

theorem InStep.flush {s' : BufferedFileSink State} (h : InStep s history)
    (hfile : s'.file.getD [] = s.file.getD []) (hempty : s'.unwritten = 0)
    (hexists : s'.fileOpen = true -> s'.file.isSome) :
    InStep s' history.flush where
  flushed_le := Nat.le_refl _
  content := hfile.trans h.content
  unwritten := by
    rw [hempty]
    exact Nat.zero_le _
  exists_file := hexists

theorem openFileLocked_appends (happend : options.append = true) (fails : Bool)
    (s : BufferedFileSink State) :
    (s.openFileLocked options fails).2.file.getD [] = s.file.getD [] ∧
      (s.openFileLocked options fails).2.unwritten = 0 ∧
      ((s.openFileLocked options fails).2.fileOpen = true ->
        (s.openFileLocked options fails).2.file.isSome) ∧
      (s.openFileLocked options fails).2.scratch = s.scratch := by
  cases fails
  · simp [BufferedFileSink.openFileLocked, FileSink.openFileLocked, happend]
  · refine ⟨rfl, rfl, nofun, rfl⟩

theorem closeFileLocked_file (s : BufferedFileSink State) :
    s.closeFileLocked.file = s.file := by
  unfold BufferedFileSink.closeFileLocked
  split <;> rfl

theorem InStep.open (h : InStep s history) (happend : options.append = true)
    (fails : Bool) :
    InStep (s.openFileLocked options fails).2 history := by
  rcases openFileLocked_appends happend fails s with
    ⟨hfile, hunwritten, hexists, _⟩
  refine ⟨h.flushed_le, hfile.trans h.content, ?_, hexists⟩
  rw [hunwritten]
  exact Nat.zero_le _

theorem InStep.fwrite (h : InStep s history) (hopen : s.fileOpen = true)
    (kept : Nat) (record : LogRecordView) :
    InStep (s.fwrite kept) (history.write record s.scratch) where
  flushed_le := by
    have hle := h.flushed_le
    simp only [FileHistory.write, List.length_append]
    omega
  content := by
    rcases Option.isSome_iff_exists.mp (h.exists_file hopen) with
      ⟨content, hfile⟩
    have hcontent := h.content
    rw [hfile] at hcontent
    simp [BufferedFileSink.fwrite, hfile, FileHistory.write, FileHistory.texts]
      at hcontent ⊢
    simp [hcontent]
  unwritten := by
    have hle := h.flushed_le
    have hunwritten := h.unwritten
    have hlength : history.flushed ≤ history.texts.length := by
      simpa [FileHistory.texts] using hle
    simp only [BufferedFileSink.fwrite, FileHistory.write, FileHistory.texts,
      List.map_append, List.map_cons, List.map_nil]
    simp only [FileHistory.texts] at hunwritten hlength
    rw [List.drop_append_of_le_length hlength]
    simp only [List.flatten_append, List.length_append, List.flatten_cons,
      List.flatten_nil, List.append_nil]
    omega
  exists_file := fun hstill => by
    have hexists := h.exists_file hstill
    simpa [BufferedFileSink.fwrite] using hexists

end

/-!
## Every run
-/

def FileProcess.Keeps {State : Type} (history : FileHistory) :
    FileProcess State -> Prop
  | FileProcess.stopped file => Survives (file.getD []) history
  | FileProcess.running s => InStep s history

theorem FileProcess.Keeps.survives {State : Type} {history : FileHistory}
    {process : FileProcess State} (h : process.Keeps history) :
    Survives process.onDisk history := by
  cases process with
  | stopped file => exact h
  | running s => exact InStep.survives h

section

variable {options : BufferedFileSinkOptions} {formatter : RecordFormatter}
  {s : BufferedFileSink formatter.State} {history : FileHistory}
  (happend : options.append = true)

include happend

theorem InStep.write (h : InStep s history) (kept : Nat)
    (fails creationFails : Bool) (record : LogRecordView) :
    let s' := s.write options formatter kept fails creationFails record
    InStep s' (noteCall options formatter (FileProcess.running s)
      (ProcessCall.write kept fails creationFails record)
      (FileProcess.running s') history) := by
  -- Formatting changes nothing that the invariant speaks about.
  rcases formatRecordLocked_file creationFails record s.toFileSink with
    ⟨hfile, hopen⟩
  have hformatted : InStep { s with
      toFileSink := s.toFileSink.formatRecordLocked formatter creationFails
        record } history :=
    ⟨h.flushed_le, by simpa [hfile] using h.content, h.unwritten, fun hstill => by
      simp only [hfile]
      exact h.exists_file (hopen.symm.trans hstill)⟩
  have hwritten : forall s1 : BufferedFileSink formatter.State,
      InStep s1 history -> s1.fileOpen = true ->
      let s' := if options.autoFlush then (s1.fwrite kept).fflush
        else s1.fwrite kept
      InStep s' (noteCall options formatter (FileProcess.running s)
        (ProcessCall.write kept fails creationFails record)
        (FileProcess.running s') history) := by
    intro s1 h1 hopen1
    have hstep := h1.fwrite hopen1 kept record
    cases hflush : options.autoFlush with
    | true =>
        have hflushed : InStep (s1.fwrite kept).fflush
            (history.write record s1.scratch).flush :=
          hstep.flush rfl rfl hstep.exists_file
        simpa [noteCall, hflush, BufferedFileSink.fflush,
          BufferedFileSink.fwrite, hopen1] using hflushed
    | false =>
        simpa [noteCall, hflush, BufferedFileSink.fwrite, hopen1] using hstep
  have hopened := hformatted.open happend fails
  unfold BufferedFileSink.write
  generalize hformat : ({ s with
      toFileSink := s.toFileSink.formatRecordLocked formatter creationFails
        record } : BufferedFileSink formatter.State) = f at *
  cases hstill : f.fileOpen with
  | true => simpa [hstill] using hwritten f hformatted hstill
  | false =>
      cases fails with
      | false =>
          have hok : (f.openFileLocked options false).1 = true := rfl
          simpa [hstill, hok] using hwritten _ hopened rfl
      | true =>
          have hfailed : (f.openFileLocked options true).1 = false ∧
              (f.openFileLocked options true).2.fileOpen = false := ⟨rfl, rfl⟩
          simpa [hstill, noteCall, hfailed] using hopened

theorem keeps_step {process process' : FileProcess formatter.State}
    {call : ProcessCall formatter.State} {file : Option Bytes}
    (h : process.Keeps history)
    (hstep : (loggingProcesses options formatter file).step process call =
      some process') :
    process'.Keeps (noteCall options formatter process call process'
      history) := by
  cases process with
  | stopped content =>
      cases call with
      | construct fails state =>
          cases hstep
          have hclosed : InStep
              ({ file := content, formatter := state } :
                BufferedFileSink formatter.State)
              { before := content.getD [] } :=
            ⟨Nat.le_refl _, by simp [FileHistory.texts], Nat.zero_le _,
              fun hopen => by cases hopen⟩
          exact hclosed.open happend fails
      | _ => cases hstep
  | running s =>
      have hstepped : InStep s history := h
      have hclosed := closeFileLocked_file s
      cases call with
      | construct fails state => cases hstep
      | write kept fails creationFails record =>
          cases hstep
          exact hstepped.write happend kept fails creationFails record
      | flush =>
          cases hstep
          cases hopen : s.fileOpen with
          | true =>
              have hflushed : InStep s.fflush history.flush :=
                hstepped.flush rfl rfl hstepped.exists_file
              simpa [FileProcess.Keeps, noteCall, BufferedFileSink.flush,
                hopen] using hflushed
          | false =>
              simpa [FileProcess.Keeps, noteCall, BufferedFileSink.flush,
                hopen] using hstepped
      | reopen fails =>
          cases hstep
          rcases openFileLocked_appends happend fails s.closeFileLocked with
            ⟨hfile, hempty, hexists, _⟩
          exact hstepped.flush (by rw [BufferedFileSink.reopen, hfile, hclosed])
            hempty hexists
      | destroy =>
          cases hstep
          refine Survives.flush ?_
          rw [hclosed]
          exact hstepped.content
      | crash =>
          cases hstep
          have hsurvives := hstepped.survives
          cases hfile : s.file with
          | some content => simpa [FileProcess.Keeps, hfile, noteCall] using hsurvives
          | none =>
              have hempty : s.onDisk = [] := by
                simp [BufferedFileSink.onDisk, hfile]
              rw [hempty] at hsurvives
              simpa [FileProcess.Keeps, noteCall] using hsurvives

theorem reachable_survives {file : Option Bytes}
    {s : FileProcess formatter.State × FileHistory}
    (h : (fileHistory options formatter file).Reachable s) :
    Survives s.1.onDisk s.2 := by
  refine FileProcess.Keeps.survives ?_
  refine Machine.recordingInvariant
    (P := fun process history => process.Keeps history) ?_ ?_ h
  · exact ⟨Nat.le_refl _, by simp [FileHistory.texts],
      by simp [FileHistory.texts]⟩
  · intro process history call process' _ hkeeps hstep
    exact keeps_step happend hkeeps hstep

end

end Sinks
end NginLog
