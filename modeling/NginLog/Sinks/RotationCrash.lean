import NginLog.Sinks.Retention

/-!
# What a crash leaves of the numbered files

`RotatingFileSink` writes through a stdio stream too, which may hold back the
last bytes of the active file; and a rotation is one file operation after the
other.  A process is killed between two calls here, and loses the bytes of its
stream, or between two operations of a rotation, which begins by closing the
stream.  The processes of a run follow each other on one disk.

The functions have the names that they have in the source.  A new stream holds
nothing, after an `fwrite` a stream keeps at most `kept` bytes, and closing the
file hands over what the stream holds.
-/

namespace NginLog
namespace Sinks

open Foundation Record Formatting

structure BufferedRotatingFileSinkOptions extends RotatingFileSinkOptions where
  autoFlush : Bool := false

/-- The sink, and how many of the last bytes of the file its stream holds. -/
structure BufferedRotatingFileSink (State : Type) extends
    RotatingFileSink State where
  unwritten : Nat := 0

namespace BufferedRotatingFileSink

variable (platform : Platform) (options : BufferedRotatingFileSinkOptions)

section

variable {State : Type}

def fflush (s : BufferedRotatingFileSink State) :
    BufferedRotatingFileSink State :=
  { s with unwritten := 0 }

def fwrite (kept : Nat) (s : BufferedRotatingFileSink State) :
    BufferedRotatingFileSink State where
  toRotatingFileSink := RotatingFileSink.writeScratch
    options.toRotatingFileSinkOptions s.toRotatingFileSink
  unwritten := min kept (s.unwritten + s.scratch.length)

def openFileLocked (fails : Bool) (s : BufferedRotatingFileSink State) :
    Bool × BufferedRotatingFileSink State :=
  let opened := RotatingFileSink.openFileLocked platform
    options.toRotatingFileSinkOptions fails s.toRotatingFileSink
  (opened.1, { toRotatingFileSink := opened.2 })

def closeFileLocked (s : BufferedRotatingFileSink State) :
    BufferedRotatingFileSink State where
  toRotatingFileSink := RotatingFileSink.closeFileLocked s.toRotatingFileSink

def ensureOpen (fails : Bool) (s : BufferedRotatingFileSink State) :
    Bool × BufferedRotatingFileSink State :=
  if s.fileOpen then (true, s) else openFileLocked platform options fails s

def rotateLocked (faults : Faults) (s : BufferedRotatingFileSink State) :
    Bool × BufferedRotatingFileSink State :=
  let rotated := RotatingFileSink.rotateLocked platform
    options.toRotatingFileSinkOptions faults s.toRotatingFileSink
  (rotated.1, { toRotatingFileSink := rotated.2 })

def detectExternalRotationLocked (fails : Bool)
    (s : BufferedRotatingFileSink State) :
    Bool × BufferedRotatingFileSink State :=
  let pathIdentity := readPathIdentity s.disk options.path
  if s.identity.valid = false ∨ pathIdentity.valid = false then
    (false, s)
  else if s.identity.device = pathIdentity.device ∧
      s.identity.inode = pathIdentity.inode then
    (false, s)
  else
    openFileLocked platform options fails (closeFileLocked s)

def flush (s : BufferedRotatingFileSink State) :
    BufferedRotatingFileSink State :=
  if s.fileOpen then s.fflush else s

def reopen (faults : Faults) (s : BufferedRotatingFileSink State) :
    Bool × BufferedRotatingFileSink State :=
  openFileLocked platform options (faults.opening OpenSite.first)
    (closeFileLocked s)

def forceRotate (faults : Faults) (s : BufferedRotatingFileSink State) :
    Bool × BufferedRotatingFileSink State :=
  rotateLocked platform options faults s

end

variable (formatter : RecordFormatter)

def prepare (faults : Faults) (record : LogRecordView)
    (s : BufferedRotatingFileSink formatter.State) :
    Bool × BufferedRotatingFileSink formatter.State :=
  let formatted := formatter.format s.formatter record s.scratch
  let s := { s with scratch := formatted.1, formatter := formatted.2 }
  match ensureOpen platform options (faults.opening OpenSite.first) s with
  | (false, s) => (false, s)
  | (true, s) =>
      if options.detectExternalRotation then
        (true, (detectExternalRotationLocked platform options
          (faults.opening OpenSite.external) s).2)
      else
        (true, s)

def write (kept : Nat) (faults : Faults) (record : LogRecordView)
    (s : BufferedRotatingFileSink formatter.State) :
    BufferedRotatingFileSink formatter.State :=
  match prepare platform options formatter faults record s with
  | (false, s) => s
  | (true, s) =>
      let due := RotatingFileSink.rotationDue platform
        options.toRotatingFileSinkOptions record s.toRotatingFileSink
      let s := { s with toRotatingFileSink := due.2 }
      let s := if due.1 then (rotateLocked platform options faults s).2 else s
      match ensureOpen platform options (faults.opening OpenSite.last) s with
      | (false, s) => s
      | (true, s) =>
          let s := fwrite options kept s
          if options.autoFlush then s.fflush else s

end BufferedRotatingFileSink

/-!
## Rotations, operation by operation
-/

def renameOperations (path : Bytes) (count : Nat) : List (Disk -> Disk) :=
  (List.range count).reverse.map fun k disk =>
    RotatingFileSink.renameUp path (fun _ => false) disk k

def rotationOperations (options : RotatingFileSinkOptions) :
    List (Disk -> Disk) :=
  if options.maxFiles > 0 then
    (fun disk => disk.remove (slotName options.path options.maxFiles)) ::
      renameOperations options.path options.maxFiles
  else
    [fun disk => disk.remove options.path]

/-- The disk after the first `done` operations of a rotation. -/
def rotateUntil (options : RotatingFileSinkOptions) (done : Nat)
    (disk : Disk) : Disk :=
  ((rotationOperations options).take done).foldl
    (fun disk operation => operation disk) disk

/-!
## Processes
-/

inductive RotatingProcess (State : Type) where
  | stopped (disk : Disk)
  | running (sink : BufferedRotatingFileSink State)

def RotatingProcess.phase {State : Type} :
    RotatingProcess State -> Phase State
  | stopped disk => Phase.stopped disk
  | running sink => Phase.running sink.toRotatingFileSink

def RotatingProcess.unwritten {State : Type} : RotatingProcess State -> Nat
  | stopped _ => 0
  | running sink => sink.unwritten

def loseBytes (path : Bytes) (lost : Nat) (disk : Disk) : Disk :=
  match disk path with
  | some file =>
      disk.store path
        { file with contents := file.contents.take (file.contents.length - lost) }
  | none => disk

/-- What the disk would hold if the process were killed now. -/
def RotatingProcess.onDisk {State : Type} (path : Bytes) :
    RotatingProcess State -> Disk
  | stopped disk => disk
  | running sink => loseBytes path sink.unwritten sink.disk

inductive RotatingProcessCall (State : Type) where
  /-- A call that comes to its end; `kept` bounds what `std::fwrite` keeps. -/
  | call (kept : Nat) (call : Call State)
  /-- The process is killed between two calls. -/
  | kill
  /-- It is killed in a rotation, after `done` of the file operations. -/
  | killInRotation (done : Nat)

open BufferedRotatingFileSink in
def rotatingProcesses (platform : Platform)
    (options : BufferedRotatingFileSinkOptions) (formatter : RecordFormatter)
    (disk : Disk) :
    Machine (RotatingProcess formatter.State)
      (RotatingProcessCall formatter.State) where
  init := RotatingProcess.stopped disk
  step := fun process call =>
    match process, call with
    | RotatingProcess.stopped disk,
        RotatingProcessCall.call _ (Call.construct faults state) =>
        some (RotatingProcess.running
          { toRotatingFileSink := RotatingFileSink.construct platform
              options.toRotatingFileSinkOptions faults state disk })
    | RotatingProcess.stopped disk, RotatingProcessCall.killInRotation done =>
        -- The constructor has opened the file before.
        if options.rotateAtStartup then
          some (RotatingProcess.stopped
            (rotateUntil options.toRotatingFileSinkOptions done
              (RotatingFileSink.openFile platform
                options.toRotatingFileSinkOptions disk)))
        else
          none
    | RotatingProcess.running s, RotatingProcessCall.call _ Call.destroy =>
        some (RotatingProcess.stopped (closeFileLocked s).disk)
    | RotatingProcess.running s,
        RotatingProcessCall.call kept (Call.write faults record) =>
        some (RotatingProcess.running
          (write platform options formatter kept faults record s))
    | RotatingProcess.running s, RotatingProcessCall.call _ Call.flush =>
        some (RotatingProcess.running s.flush)
    | RotatingProcess.running s,
        RotatingProcessCall.call _ (Call.forceRotate faults) =>
        some (RotatingProcess.running
          (forceRotate platform options faults s).2)
    | RotatingProcess.running s,
        RotatingProcessCall.call _ (Call.reopen faults) =>
        some (RotatingProcess.running (reopen platform options faults s).2)
    | RotatingProcess.running s, RotatingProcessCall.kill =>
        some (RotatingProcess.stopped
          ((RotatingProcess.running s).onDisk options.path))
    | RotatingProcess.running s, RotatingProcessCall.killInRotation done =>
        some (RotatingProcess.stopped
          (rotateUntil options.toRotatingFileSinkOptions done
            (closeFileLocked s).disk))
    | _, _ => none

/-!
## What the operations do to the series
-/

theorem renameOperations_succ (path : Bytes) (count : Nat) :
    renameOperations path (count + 1) =
      (fun disk =>
        RotatingFileSink.renameUp path (fun _ => false) disk count) ::
        renameOperations path count := by
  unfold renameOperations
  rw [List.range_succ, List.reverse_append, List.reverse_singleton,
    List.singleton_append, List.map_cons]

theorem renameOperations_all (path : Bytes) (index : Nat) (disk : Disk) :
    (renameOperations path (index + 1)).foldl
        (fun disk operation => operation disk) disk =
      RotatingFileSink.renameUp path (fun _ => false)
        (RotatingFileSink.renameLoop path (fun _ => false) (index + 1) disk)
        0 := by
  induction index generalizing disk with
  | zero => rfl
  | succ index ih =>
      rw [renameOperations_succ, List.foldl_cons, ih]
      rfl

theorem contents_renameOperations (path : Bytes) (count done : Nat)
    (disk : Disk) :
    contents path (((renameOperations path count).take done).foldl
        (fun disk operation => operation disk) disk) =
      Directory.shiftPart done count (contents path disk) := by
  induction count generalizing done disk with
  | zero => cases done <;> rfl
  | succ count ih =>
      cases done with
      | zero => rfl
      | succ done =>
          rw [renameOperations_succ, List.take_succ_cons, List.foldl_cons, ih,
            RotatingFileSink.contents_renameUp]
          rfl

section

variable (options : RotatingFileSinkOptions)

theorem rotateUntil_all {done : Nat} (hdone : options.maxFiles < done)
    (disk : Disk) :
    rotateUntil options done disk =
      RotatingFileSink.rotateFiles options {} disk := by
  have hlength : (rotationOperations options).length ≤ options.maxFiles + 1 := by
    unfold rotationOperations renameOperations
    split
    · simp
    · simp
  unfold rotateUntil
  rw [List.take_of_length_le (Nat.le_trans hlength hdone)]
  unfold rotationOperations RotatingFileSink.rotateFiles
  rcases Nat.eq_zero_or_pos options.maxFiles with hzero | hpos
  · rw [if_neg (by omega), if_neg (by omega)]
    rfl
  · rw [if_pos hpos, if_pos hpos]
    rcases Nat.exists_eq_succ_of_ne_zero (Nat.ne_of_gt hpos) with
      ⟨index, hindex⟩
    rw [hindex, List.foldl_cons, renameOperations_all]
    rfl

theorem contents_rotateUntil (done : Nat) (disk : Disk) :
    contents options.path (rotateUntil options done disk) =
      (contents options.path disk).rotatePart options.maxFiles done := by
  cases done with
  | zero => rfl
  | succ done =>
      unfold rotateUntil rotationOperations Series.rotatePart
      rcases Nat.eq_zero_or_pos options.maxFiles with hzero | hpos
      · have hremove := contents_remove options.path disk 0
        rw [if_neg (by omega), List.take_succ_cons, List.foldl_cons,
          List.take_nil, List.foldl_nil, hzero]
        cases done with
        | zero => exact hremove
        | succ done => exact hremove
      · rw [if_pos hpos, List.take_succ_cons, List.foldl_cons,
          contents_renameOperations, contents_remove]

end

theorem contents_loseBytes (path : Bytes) (lost : Nat) (disk : Disk)
    {text : Bytes} (htext : contents path disk 0 = some text) :
    contents path (loseBytes path lost disk) =
      (contents path disk).store 0 (text.take (text.length - lost)) := by
  rw [contents_path] at htext
  rcases Option.map_eq_some_iff.mp htext with ⟨file, hfile, rfl⟩
  unfold loseBytes
  simp only [hfile]
  exact contents_store path disk 0 _

/-!
## The stream only delays
-/

namespace BufferedRotatingFileSink

open RotatingFileSink (Live formatted rotates rotatedIfDue)

section

variable {platform : Platform} {options : BufferedRotatingFileSinkOptions}
  {formatter : RecordFormatter} {s : BufferedRotatingFileSink formatter.State}

theorem prepare_of_live
    (h : Live options.toRotatingFileSinkOptions s.toRotatingFileSink)
    (faults : Faults) (record : LogRecordView) :
    prepare platform options formatter faults record s =
      (true,
        { toRotatingFileSink := formatted formatter record
            s.toRotatingFileSink,
          unwritten := s.unwritten }) := by
  have hopen : s.fileOpen = true := h.fileOpen
  have hidentity : s.identity = readPathIdentity s.disk options.path :=
    h.identity
  unfold prepare ensureOpen detectExternalRotationLocked formatted
  dsimp only
  rw [if_pos hopen]
  simp [hidentity]

theorem write_of_live {faults : Faults}
    (hopening : faults.opening OpenSite.rotation = false)
    (h : Live options.toRotatingFileSinkOptions s.toRotatingFileSink)
    (kept : Nat) (record : LogRecordView) :
    write platform options formatter kept faults record s =
      let written := fwrite options kept
        { toRotatingFileSink := rotatedIfDue platform
            options.toRotatingFileSinkOptions faults record
            s.toRotatingFileSink,
          unwritten := if rotates formatter platform
              options.toRotatingFileSinkOptions record s.toRotatingFileSink then
            0
          else
            s.unwritten }
      if options.autoFlush then written.fflush else written := by
  have hopen := (RotatingFileSink.live_rotatedIfDue platform hopening h
    record).fileOpen
  unfold rotatedIfDue at hopen
  unfold write rotatedIfDue rotates ensureOpen rotateLocked
  rw [prepare_of_live h]
  dsimp only at hopen ⊢
  generalize RotatingFileSink.rotationDue platform
    options.toRotatingFileSinkOptions record
    (formatted formatter record s.toRotatingFileSink) = due at hopen ⊢
  rcases due with ⟨due, s'⟩
  cases due with
  | true =>
      have hrotated : (RotatingFileSink.rotateLocked platform
          options.toRotatingFileSinkOptions faults s').2.fileOpen = true :=
        hopen
      simp only [if_true, hrotated]
  | false =>
      have hstill : s'.fileOpen = true := hopen
      simp only [Bool.false_eq_true, if_false, hstill, if_true]

end

end BufferedRotatingFileSink

/-!
## Entries that lost their end
-/

def entryBytes (entries : List Entry) : Bytes :=
  entries.flatMap Entry.line

def keepBytes : Nat -> List Entry -> List Entry
  | _, [] => []
  | kept, entry :: rest =>
      if entry.line.length ≤ kept then
        entry :: keepBytes (kept - entry.line.length) rest
      else if kept = 0 then
        []
      else
        [{ line := entry.line.take kept }]

/-- Some of the entries, from the first on, and perhaps a piece of the next. -/
def CutShort (entries cut : List Entry) : Prop :=
  exists done, done <+: entries ∧
    (cut = done ∨
      exists next piece, done ++ [next] <+: entries ∧ piece <+: next.line ∧
        cut = done ++ [{ line := piece }])

@[simp] theorem entryBytes_nil : entryBytes [] = [] := rfl

@[simp] theorem entryBytes_cons (entry : Entry) (entries : List Entry) :
    entryBytes (entry :: entries) = entry.line ++ entryBytes entries := rfl

@[simp] theorem entryBytes_append (entries entries' : List Entry) :
    entryBytes (entries ++ entries') =
      entryBytes entries ++ entryBytes entries' :=
  List.flatMap_append

theorem entryBytes_keepBytes (kept : Nat) (entries : List Entry) :
    entryBytes (keepBytes kept entries) = (entryBytes entries).take kept := by
  induction entries generalizing kept with
  | nil => simp [keepBytes]
  | cons entry rest ih =>
      rw [keepBytes, entryBytes_cons, List.take_append]
      split
      · rename_i hwhole
        rw [entryBytes_cons, ih, List.take_of_length_le hwhole]
      · rename_i hpiece
        have hrest : kept - entry.line.length = 0 := by omega
        split
        · rename_i hnone
          simp [hnone]
        · simp [hrest]

theorem keepBytes_append {kept : Nat} {entries : List Entry}
    (hkept : (entryBytes entries).length ≤ kept) (rest : List Entry) :
    keepBytes kept (entries ++ rest) =
      entries ++ keepBytes (kept - (entryBytes entries).length) rest := by
  induction entries generalizing kept with
  | nil => rfl
  | cons entry entries ih =>
      rw [entryBytes_cons, List.length_append] at hkept
      rw [List.cons_append, keepBytes, if_pos (by omega), ih (by omega),
        entryBytes_cons, List.length_append, Nat.sub_sub, List.cons_append]

theorem cutShort_keepBytes (kept : Nat) (entries : List Entry) :
    CutShort entries (keepBytes kept entries) := by
  induction entries generalizing kept with
  | nil => exact ⟨[], List.nil_prefix, Or.inl rfl⟩
  | cons entry rest ih =>
      rw [keepBytes]
      split
      · rcases ih (kept - entry.line.length) with ⟨done, hdone, hcut⟩
        refine ⟨entry :: done, List.cons_prefix_cons.mpr ⟨rfl, hdone⟩, ?_⟩
        rcases hcut with hcut | ⟨next, piece, hnext, hpiece, hcut⟩
        · exact Or.inl (congrArg _ hcut)
        · exact Or.inr ⟨next, piece, List.cons_prefix_cons.mpr ⟨rfl, hnext⟩,
            hpiece, congrArg _ hcut⟩
      · split
        · exact ⟨[], List.nil_prefix, Or.inl rfl⟩
        · exact ⟨[], List.nil_prefix, Or.inr ⟨entry, _,
            List.prefix_append [entry] rest, List.take_prefix _ _, rfl⟩⟩

/-!
## The history of the processes
-/

/-- What was written, by how safe it is, and where it has come to. -/
structure RotationHistory where
  /-- What the files held at first, and what no crash can take any more. -/
  settled : List Entry
  /-- What was written since then. -/
  pending : List Entry := []
  /-- What the rotations have dropped. -/
  dropped : List Entry := []
  files : Series Entry

namespace RotationHistory

def settle (history : RotationHistory) : RotationHistory :=
  { history with settled := history.settled ++ history.pending, pending := [] }

def lose (lost : Nat) (history : RotationHistory) : RotationHistory where
  settled := history.settled ++
    keepBytes ((entryBytes history.pending).length - lost) history.pending
  dropped := history.dropped
  files :=
    let active := (history.files 0).getD []
    Directory.store history.files 0
      (keepBytes ((entryBytes active).length - lost) active)

def rotatePart (limit done : Nat) (history : RotationHistory) :
    RotationHistory :=
  { history with
    dropped := history.dropped ++ Series.droppedPart limit history.files done
    files := history.files.rotatePart limit done }

end RotationHistory

section

variable (platform : Platform) (options : BufferedRotatingFileSinkOptions)

def Phase.startsRotation {formatter : RecordFormatter}
    (phase : Phase formatter.State) : Call formatter.State -> Bool
  | Call.construct _ _ => options.rotateAtStartup
  | Call.forceRotate _ => true
  | call => phase.rotates platform options.toRotatingFileSinkOptions call

def Phase.emptiesStream {formatter : RecordFormatter}
    (phase : Phase formatter.State) : Call formatter.State -> Bool
  | Call.write faults record =>
      phase.rotates platform options.toRotatingFileSinkOptions
        (Call.write faults record)
  | _ => true

/-- What a call writes and drops, before `autoFlush`. -/
def RotationHistory.written {formatter : RecordFormatter}
    (history : RotationHistory) (phase : Phase formatter.State)
    (call : Call formatter.State) : RotationHistory :=
  let earlier :=
    if phase.emptiesStream platform options call then
      history.settle
    else
      history
  { settled := earlier.settled
    pending := earlier.pending ++ phase.entries call
    dropped := history.dropped ++
      if phase.startsRotation platform options call then
        (history.files options.maxFiles).getD []
      else
        []
    files := call.effect options.toRotatingFileSinkOptions
      (phase.rotates platform options.toRotatingFileSinkOptions call)
      (phase.entries call) history.files }

def noteCompleteCall {formatter : RecordFormatter}
    (phase : Phase formatter.State) (call : Call formatter.State)
    (history : RotationHistory) : RotationHistory :=
  let history := history.written platform options phase call
  if options.autoFlush then history.settle else history

def noteRotatingCall {formatter : RecordFormatter}
    (process : RotatingProcess formatter.State)
    (call : RotatingProcessCall formatter.State)
    (_ : RotatingProcess formatter.State) (history : RotationHistory) :
    RotationHistory :=
  match process, call with
  | process, RotatingProcessCall.call _ call =>
      noteCompleteCall platform options process.phase call history
  | process, RotatingProcessCall.kill => history.lose process.unwritten
  | RotatingProcess.stopped _, RotatingProcessCall.killInRotation done =>
      RotationHistory.rotatePart options.maxFiles done
        { history.settle with files := history.files.activate options.append }
  | RotatingProcess.running _, RotatingProcessCall.killInRotation done =>
      history.settle.rotatePart options.maxFiles done

/-- The processes on a disk, with what becomes of what they write. -/
def rotationHistory (formatter : RecordFormatter) (disk : Disk) :
    Machine (RotatingProcess formatter.State × RotationHistory)
      (RotatingProcessCall formatter.State) :=
  (rotatingProcesses platform options formatter disk).recording
    { settled := Series.trail (initialFiles options.path disk) options.maxFiles,
      files := initialFiles options.path disk }
    (noteRotatingCall platform options)

def NoFileFaults {state State : Type} (_ : state) :
    RotatingProcessCall State -> Prop
  | RotatingProcessCall.call _ call => call.faults = {}
  | _ => True

end

/-!
## What each step keeps

Apart from its stream, a process does what the sink does.  A call drops the last
file if it rotates, and nothing else.
-/

/-- The history accounts for every entry, file by file. -/
structure Accounted {formatter : RecordFormatter}
    (options : RotatingFileSinkOptions)
    (process : RotatingProcess formatter.State) (history : RotationHistory) :
    Prop where
  live : LivePhase options process.phase
  files : contents options.path process.phase.disk =
    history.files.project Entry.line
  order : history.dropped ++ Series.trail history.files options.maxFiles =
    history.settled ++ history.pending
  active : exists before,
    (history.files 0).getD [] = before ++ history.pending
  unwritten : process.unwritten ≤ (entryBytes history.pending).length

theorem RotationHistory.settle_order (history : RotationHistory) :
    history.settle.settled ++ history.settle.pending =
      history.settled ++ history.pending :=
  List.append_nil _

theorem RotationHistory.order_written (platform : Platform)
    (options : BufferedRotatingFileSinkOptions) {formatter : RecordFormatter}
    (history : RotationHistory) (phase : Phase formatter.State)
    (call : Call formatter.State) :
    (history.written platform options phase call).settled ++
        (history.written platform options phase call).pending =
      history.settled ++ history.pending ++ phase.entries call := by
  unfold RotationHistory.written
  dsimp only
  rw [← List.append_assoc]
  congr 1
  split
  · exact history.settle_order
  · rfl

theorem RotationHistory.active_written {platform : Platform}
    {options : BufferedRotatingFileSinkOptions} {formatter : RecordFormatter}
    {history : RotationHistory}
    (hactive : exists before,
      (history.files 0).getD [] = before ++ history.pending)
    (phase : Phase formatter.State) (call : Call formatter.State) :
    exists before,
      ((history.written platform options phase call).files 0).getD [] =
        before ++ (history.written platform options phase call).pending := by
  have hempty : phase.emptiesStream platform options call = true ->
      phase.entries call = [] -> exists before,
      ((history.written platform options phase call).files 0).getD [] =
        before ++ (history.written platform options phase call).pending := by
    intro hempties hnone
    have hpending :
        (history.written platform options phase call).pending = [] := by
      unfold RotationHistory.written
      dsimp only
      rw [if_pos hempties, hnone]
      rfl
    rw [hpending]
    exact ⟨_, (List.append_nil _).symm⟩
  cases call with
  | write faults record =>
      rcases hactive with ⟨before, hactive⟩
      unfold RotationHistory.written Phase.emptiesStream Call.effect
        Series.extend
      dsimp only
      rw [Directory.store_self, Option.getD_some]
      split
      · exact ⟨_, rfl⟩
      · exact ⟨before, by rw [hactive, List.append_assoc]⟩
  | _ =>
      refine hempty rfl ?_
      cases phase <;> rfl

theorem Accounted.settle {formatter : RecordFormatter}
    {options : RotatingFileSinkOptions}
    {process : RotatingProcess formatter.State} {history : RotationHistory}
    (h : Accounted options process history) (hempty : process.unwritten = 0) :
    Accounted options process history.settle where
  live := h.live
  files := h.files
  order := h.order.trans history.settle_order.symm
  active := ⟨_, (List.append_nil _).symm⟩
  unwritten := hempty ▸ Nat.zero_le _

section

variable {platform : Platform} {options : BufferedRotatingFileSinkOptions}
  {formatter : RecordFormatter} {start : Disk}

theorem sinkStep_of_call {process process' : RotatingProcess formatter.State}
    {kept : Nat} {call : Call formatter.State}
    (hlive : LivePhase options.toRotatingFileSinkOptions process.phase)
    (hfaults : call.faults = {})
    (hstep : (rotatingProcesses platform options formatter start).step process
      (RotatingProcessCall.call kept call) = some process') :
    SinkStep platform options.toRotatingFileSinkOptions formatter
      process.phase call process'.phase := by
  cases process with
  | stopped disk =>
      cases call with
      | construct faults state =>
          cases hstep
          exact SinkStep.construct disk faults state
      | _ => cases hstep
  | running s =>
      have hs := hlive s.toRotatingFileSink rfl
      cases call with
      | construct faults state => cases hstep
      | destroy =>
          cases hstep
          exact SinkStep.destroy s.toRotatingFileSink
      | write faults record =>
          cases hstep
          cases hfaults
          have hwrite : (s.write platform options formatter kept {}
              record).toRotatingFileSink =
              RotatingFileSink.write platform options.toRotatingFileSinkOptions
                formatter {} record s.toRotatingFileSink := by
            rw [BufferedRotatingFileSink.write_of_live rfl hs,
              hs.write platform rfl]
            dsimp only
            split <;> rfl
          show SinkStep _ _ _ _ _ (Phase.running _)
          rw [hwrite]
          exact SinkStep.write s.toRotatingFileSink {} record
      | flush =>
          cases hstep
          have hflush : (RotatingProcess.running s.flush).phase =
              Phase.running s.toRotatingFileSink := by
            unfold BufferedRotatingFileSink.flush
            split <;> rfl
          rw [hflush]
          exact SinkStep.flush s.toRotatingFileSink
      | forceRotate faults =>
          cases hstep
          exact SinkStep.forceRotate s.toRotatingFileSink faults
      | reopen faults =>
          cases hstep
          exact SinkStep.reopen s.toRotatingFileSink faults

theorem trail_call (happend : options.append = true)
    {phase phase' : Phase formatter.State} {call : Call formatter.State}
    (hstep : SinkStep platform options.toRotatingFileSinkOptions formatter phase
      call phase') (files : Series Entry) :
    Series.trail files options.maxFiles ++ phase.entries call =
      (if phase.startsRotation platform options call then
        (files options.maxFiles).getD []
      else
        []) ++
        Series.trail
          (call.effect options.toRotatingFileSinkOptions
            (phase.rotates platform options.toRotatingFileSinkOptions call)
            (phase.entries call) files)
          options.maxFiles := by
  have hactivate : forall files : Series Entry,
      Series.trail (files.activate options.append) options.maxFiles =
        Series.trail files options.maxFiles := by
    rw [happend]
    exact fun files => Series.trail_activate files _
  have hlast : (files.activate options.append options.maxFiles).getD [] =
      (files options.maxFiles).getD [] := by
    unfold Series.activate
    rw [happend]
    by_cases hzero : options.maxFiles = 0
    · rw [hzero, Directory.store_self]
      rfl
    · rw [Directory.store_of_ne _ _ hzero]
  have hnone : forall files : List Entry, files ++ [] = [] ++ files :=
    fun files => (List.append_nil files)
  cases hstep with
  | construct disk faults state =>
      unfold Phase.startsRotation Call.effect Phase.entries
      dsimp only
      rw [List.append_nil]
      split
      · rw [← hlast, ← trail_rotateSeries, hactivate]
      · rw [hactivate, List.nil_append]
  | destroy s => exact hnone _
  | write s faults record =>
      have hrotates : (Phase.running s).startsRotation platform options
          (Call.write faults record) = (Phase.running s).rotates platform
            options.toRotatingFileSinkOptions (Call.write faults record) := rfl
      rw [hrotates]
      unfold Call.effect
      dsimp only
      rw [Series.trail_extend, ← List.append_assoc]
      congr 1
      split
      · exact trail_rotateSeries files
      · rw [List.nil_append]
  | flush s => exact hnone _
  | forceRotate s faults =>
      show Series.trail files _ ++ [] = (files options.maxFiles).getD [] ++ _
      rw [List.append_nil]
      exact trail_rotateSeries files
  | reopen s faults =>
      show Series.trail files _ ++ [] =
        [] ++ Series.trail (files.activate options.append) _
      rw [hactivate, List.append_nil, List.nil_append]

theorem unwritten_call {process process' : RotatingProcess formatter.State}
    {kept : Nat} {call : Call formatter.State}
    (hlive : LivePhase options.toRotatingFileSinkOptions process.phase)
    (hfaults : call.faults = {})
    (hstep : (rotatingProcesses platform options formatter start).step process
      (RotatingProcessCall.call kept call) = some process') :
    (options.autoFlush = true -> process'.unwritten = 0) ∧
      process'.unwritten ≤
        (if process.phase.emptiesStream platform options call then
          0
        else
          process.unwritten) +
          (entryBytes (process.phase.entries call)).length := by
  have hnothing : process'.unwritten = 0 -> forall bound,
      (options.autoFlush = true -> process'.unwritten = 0) ∧
        process'.unwritten ≤ bound := fun hempty bound =>
    ⟨fun _ => hempty, hempty ▸ Nat.zero_le bound⟩
  cases process with
  | stopped disk =>
      cases call with
      | construct faults state =>
          cases hstep
          exact hnothing rfl _
      | _ => cases hstep
  | running s =>
      have hs := hlive s.toRotatingFileSink rfl
      cases call with
      | construct faults state => cases hstep
      | destroy | forceRotate faults | reopen faults =>
          cases hstep
          exact hnothing rfl _
      | flush =>
          cases hstep
          refine hnothing ?_ _
          have hopen : s.fileOpen = true := hs.fileOpen
          show s.flush.unwritten = 0
          rw [BufferedRotatingFileSink.flush, if_pos hopen]
          rfl
      | write faults record =>
          cases hstep
          cases hfaults
          have hwrite := @BufferedRotatingFileSink.write_of_live platform options
            _ s {} rfl hs kept record
          have hline : (entryBytes ((RotatingProcess.running s).phase.entries
              (Call.write {} record))).length =
              (formatter.format s.formatter record s.scratch).1.length := by
            simp [RotatingProcess.phase, Phase.entries, entryBytes]
          show (_ -> (s.write platform options formatter kept {}
            record).unwritten = 0) ∧ (s.write platform options formatter kept {}
              record).unwritten ≤ _
          rw [hwrite, hline]
          constructor
          · intro hflush
            rw [if_pos hflush]
            rfl
          · have hscratch := @RotatingFileSink.scratch_rotatedIfDue platform
              options.toRotatingFileSinkOptions _ {} record
              s.toRotatingFileSink
            dsimp only
            split
            · exact Nat.zero_le _
            · show min kept (_ + (RotatingFileSink.rotatedIfDue platform
                options.toRotatingFileSinkOptions {} record
                s.toRotatingFileSink).scratch.length) ≤ _
              rw [hscratch]
              exact Nat.min_le_right _ _

theorem accounted_call (happend : options.append = true)
    {process process' : RotatingProcess formatter.State}
    {history : RotationHistory} {kept : Nat} {call : Call formatter.State}
    (h : Accounted options.toRotatingFileSinkOptions process history)
    (hfaults : call.faults = {})
    (hstep : (rotatingProcesses platform options formatter start).step process
      (RotatingProcessCall.call kept call) = some process') :
    Accounted options.toRotatingFileSinkOptions process'
      (noteCompleteCall platform options process.phase call history) := by
  have hsink := sinkStep_of_call h.live hfaults hstep
  have htrail := trail_call happend hsink history.files
  rcases unwritten_call h.live hfaults hstep with ⟨hflushed, hunwritten⟩
  have hfiles := contents_step h.live hfaults hsink
  rw [h.files] at hfiles
  have hproject := @project_effect options.toRotatingFileSinkOptions _ _ _
    Entry.line call (process.phase.rotates platform
      options.toRotatingFileSinkOptions call) (process.phase.entries call)
    history.files
  -- Both before and after `autoFlush`, which only settles what is pending.
  suffices hwritten : Accounted options.toRotatingFileSinkOptions process'
      (history.written platform options process.phase call) by
    unfold noteCompleteCall
    split
    · rename_i hflush
      exact hwritten.settle (hflushed hflush)
    · exact hwritten
  refine ⟨livePhase_step h.live hfaults hsink, hfiles.trans hproject.symm, ?_,
    ?_, ?_⟩
  · calc history.dropped ++ _ ++ Series.trail _ options.maxFiles
        = history.dropped ++ (Series.trail history.files options.maxFiles ++
            process.phase.entries call) := by
          rw [htrail, List.append_assoc]
          rfl
      _ = history.settled ++ history.pending ++
            process.phase.entries call := by
          rw [← List.append_assoc, h.order]
      _ = _ := by
          rw [← history.order_written platform options process.phase call]
  · exact RotationHistory.active_written h.active process.phase call
  · refine Nat.le_trans hunwritten ?_
    unfold RotationHistory.written
    dsimp only
    rw [entryBytes_append, List.length_append]
    refine Nat.add_le_add_right ?_ _
    split
    · exact Nat.zero_le _
    · exact h.unwritten

end

/-!
## What a kill leaves
-/

section

variable {options : RotatingFileSinkOptions} {formatter : RecordFormatter}
  {history : RotationHistory}

theorem order_lose {lost : Nat}
    (horder : history.dropped ++ Series.trail history.files options.maxFiles =
      history.settled ++ history.pending)
    (hactive : exists before,
      (history.files 0).getD [] = before ++ history.pending)
    (hlost : lost ≤ (entryBytes history.pending).length) :
    history.dropped ++
        Series.trail (history.lose lost).files options.maxFiles =
      (history.lose lost).settled := by
  rcases hactive with ⟨before, hactive⟩
  rcases Series.trail_store_active history.files options.maxFiles with
    ⟨upper, htrail, hstore⟩
  have hlength : (entryBytes (before ++ history.pending)).length =
      (entryBytes before).length + (entryBytes history.pending).length := by
    rw [entryBytes_append, List.length_append]
  have hkept : keepBytes ((entryBytes (before ++ history.pending)).length -
      lost) (before ++ history.pending) = before ++
        keepBytes ((entryBytes history.pending).length - lost)
          history.pending := by
    rw [keepBytes_append (by omega), hlength]
    congr 2
    omega
  have hsettled : history.dropped ++ (upper ++ before) = history.settled := by
    rw [htrail, hactive, ← List.append_assoc, ← List.append_assoc] at horder
    rw [← List.append_assoc]
    exact List.append_cancel_right horder
  unfold RotationHistory.lose
  dsimp only
  rw [hactive, hstore, hkept, ← hsettled]
  simp only [List.append_assoc]

theorem contents_onDisk {sink : BufferedRotatingFileSink formatter.State}
    (h : Accounted options (RotatingProcess.running sink) history) :
    contents options.path
        ((RotatingProcess.running sink).onDisk options.path) =
      (history.lose sink.unwritten).files.project Entry.line := by
  rcases (h.live sink.toRotatingFileSink rfl).active with ⟨text, htext, _⟩
  have hfiles : contents options.path sink.disk =
      history.files.project Entry.line := h.files
  have hbytes : entryBytes ((history.files 0).getD []) = text := by
    rw [entryBytes, ← Series.getD_project, ← hfiles, htext]
    rfl
  unfold RotatingProcess.onDisk RotationHistory.lose Series.project
  dsimp only
  rw [contents_loseBytes options.path sink.unwritten sink.disk htext,
    Directory.map_store, hfiles, hbytes]
  congr 1
  rw [← hbytes]
  exact (entryBytes_keepBytes _ _).symm

theorem Accounted.kill {sink : BufferedRotatingFileSink formatter.State}
    (h : Accounted options (RotatingProcess.running sink) history) :
    @Accounted formatter options
      (RotatingProcess.stopped
        ((RotatingProcess.running sink).onDisk options.path))
      (history.lose sink.unwritten) where
  live := by
    intro s hs
    cases hs
  files := contents_onDisk h
  order := (order_lose h.order h.active h.unwritten).trans
    (List.append_nil _).symm
  active := ⟨_, (List.append_nil _).symm⟩
  unwritten := Nat.zero_le _

theorem Accounted.stopped {disk : Disk}
    (hfiles : contents options.path disk = history.files.project Entry.line)
    (horder : history.dropped ++ Series.trail history.files options.maxFiles =
      history.settled ++ history.pending) :
    @Accounted formatter options (RotatingProcess.stopped disk)
      history.settle where
  live := by
    intro s hs
    cases hs
  files := hfiles
  order := horder.trans history.settle_order.symm
  active := ⟨_, (List.append_nil _).symm⟩
  unwritten := Nat.zero_le _

theorem Accounted.rotatePart {disk : Disk} (done : Nat)
    (h : @Accounted formatter options (RotatingProcess.stopped disk)
      history.settle) :
    @Accounted formatter options
      (RotatingProcess.stopped (rotateUntil options done disk))
      (history.settle.rotatePart options.maxFiles done) where
  live := by
    intro s hs
    cases hs
  files := by
    have hfiles : contents options.path disk = _ := h.files
    show contents options.path (rotateUntil options done disk) = _
    rw [contents_rotateUntil, hfiles, ← Series.project_rotatePart]
    rfl
  order := by
    have horder := h.order
    rw [Series.trail_rotatePart _ _ done, ← List.append_assoc] at horder
    exact horder
  active := ⟨_, (List.append_nil _).symm⟩
  unwritten := Nat.zero_le _

end

section

variable {platform : Platform} {options : BufferedRotatingFileSinkOptions}
  {formatter : RecordFormatter} {start : Disk}

theorem accounted_step (happend : options.append = true)
    {process process' : RotatingProcess formatter.State}
    {history : RotationHistory} {call : RotatingProcessCall formatter.State}
    (h : Accounted options.toRotatingFileSinkOptions process history)
    (hfaults : NoFileFaults process call)
    (hstep : (rotatingProcesses platform options formatter start).step process
      call = some process') :
    Accounted options.toRotatingFileSinkOptions process'
      (noteRotatingCall platform options process call process' history) := by
  cases call with
  | call kept call => exact accounted_call happend h hfaults hstep
  | kill =>
      cases process with
      | stopped disk => cases hstep
      | running sink =>
          cases hstep
          exact h.kill
  | killInRotation done =>
      cases process with
      | stopped disk =>
          have hstartup : options.rotateAtStartup = true := by
            by_contra hnot
            have hnone := hstep
            simp only [rotatingProcesses, if_neg hnot] at hnone
            cases hnone
          simp only [rotatingProcesses, if_pos hstartup,
            Option.some.injEq] at hstep
          subst hstep
          have hopened := RotatingFileSink.contents_openFile platform
            options.toRotatingFileSinkOptions disk
          have hfiles : contents options.path disk = _ := h.files
          rw [hfiles, ← Series.project_activate] at hopened
          have horder := h.order
          rw [← Series.trail_activate, ← happend] at horder
          exact (@Accounted.stopped _ _
          { history with files := history.files.activate options.append } _
          hopened horder).rotatePart done
      | running sink =>
          cases hstep
          exact (Accounted.stopped h.files h.order).rotatePart done

theorem reachable_accounted (happend : options.append = true)
    {s : RotatingProcess formatter.State × RotationHistory}
    (h : (rotationHistory platform options formatter start).ReachableUnder
      NoFileFaults s) :
    Accounted options.toRotatingFileSinkOptions s.1 s.2 := by
  refine @Machine.recordingInvariantUnder _ _ _ _ _ _ NoFileFaults
    (Accounted options.toRotatingFileSinkOptions) ?_ ?_ s h
  · refine ⟨fun s hs => ?_, (project_initialFiles _ _).symm, ?_,
      ⟨_, (List.append_nil _).symm⟩, Nat.zero_le _⟩
    · cases hs
    · exact (List.append_nil _).symm
  · intro process history call process' _ hpast hfaults hstep
    exact accounted_step happend hpast hfaults hstep

end

/-!
## Every run
-/

/-- What is safe stays safe, and what was dropped stays dropped. -/
structure Grows (history later : RotationHistory) : Prop where
  settled : history.settled <+: later.settled
  dropped : history.dropped <+: later.dropped

/--
If the process is killed now, the dropped entries and the files, the oldest one
first, are all the entries that were safe and those whose bytes got away.
-/
def LeavesInOrder {formatter : RecordFormatter}
    (options : RotatingFileSinkOptions)
    (process : RotatingProcess formatter.State) (history : RotationHistory) :
    Prop :=
  exists files cut, CutShort history.pending cut ∧
    contents options.path (process.onDisk options.path) =
      files.project Entry.line ∧
    history.dropped ++ Series.trail files options.maxFiles =
      history.settled ++ cut

section

variable {platform : Platform} {options : BufferedRotatingFileSinkOptions}
  {formatter : RecordFormatter} {start : Disk}

theorem Accounted.leavesInOrder {options : RotatingFileSinkOptions}
    {process : RotatingProcess formatter.State} {history : RotationHistory}
    (h : Accounted options process history) :
    LeavesInOrder options process history := by
  cases process with
  | stopped disk =>
      exact ⟨history.files, history.pending,
        ⟨history.pending, List.prefix_rfl, Or.inl rfl⟩, h.files, h.order⟩
  | running sink =>
      exact ⟨(history.lose sink.unwritten).files, _, cutShort_keepBytes _ _,
        contents_onDisk h, order_lose h.order h.active h.unwritten⟩

theorem grows_noteRotatingCall (process process' :
      RotatingProcess formatter.State)
    (call : RotatingProcessCall formatter.State) (history : RotationHistory) :
    Grows history
      (noteRotatingCall platform options process call process' history) := by
  have hsettle : forall history : RotationHistory,
      history.settled <+: history.settle.settled := fun history =>
    List.prefix_append _ _
  cases call with
  | call kept call =>
      have hearlier : history.settled <+: (history.written platform options
          process.phase call).settled := by
        unfold RotationHistory.written
        dsimp only
        split
        · exact hsettle history
        · exact List.prefix_rfl
      show Grows history (noteCompleteCall platform options process.phase call
        history)
      unfold noteCompleteCall
      dsimp only
      split
      · exact ⟨hearlier.trans (hsettle _), List.prefix_append _ _⟩
      · exact ⟨hearlier, List.prefix_append _ _⟩
  | kill => exact ⟨List.prefix_append _ _, List.prefix_rfl⟩
  | killInRotation done =>
      cases process with
      | stopped disk => exact ⟨hsettle history, List.prefix_append _ _⟩
      | running sink => exact ⟨hsettle history, List.prefix_append _ _⟩

end

/--
Killed at whatever point, also between two renames of a rotation, the processes
lose what their streams held, and what rotations drop from the last file.
-/
theorem crash_keeps_settled_entries (platform : Platform)
    (options : BufferedRotatingFileSinkOptions) (formatter : RecordFormatter)
    (start : Disk) (happend : options.append = true) :
    (forall s, (rotationHistory platform options formatter start).ReachableUnder
        NoFileFaults s ->
      LeavesInOrder options.toRotatingFileSinkOptions s.1 s.2) ∧
    forall s s' calls, (rotationHistory platform options formatter
        start).runFrom s calls = some s' ->
      Grows s.2 s'.2 := by
  constructor
  · intro s hs
    exact (reachable_accounted happend hs).leavesInOrder
  · intro s s' calls hrun
    refine Machine.related_of_runFrom (R := fun s s' => Grows s.2 s'.2)
      (fun s => ⟨List.prefix_rfl, List.prefix_rfl⟩)
      (fun s s' s'' h h' => ⟨h.settled.trans h'.settled,
        h.dropped.trans h'.dropped⟩) ?_ hrun
    intro s call s' hstep
    rcases Option.map_eq_some_iff.mp hstep with ⟨process', _, rfl⟩
    exact grows_noteRotatingCall s.1 process' call s.2

def twoNumbered : BufferedRotatingFileSinkOptions where
  path := ascii "a"
  maxFiles := 2

/--
One process is killed between the two renames of a rotation, the next one while
its stream holds two bytes of a record.
-/
def killedTwice : List (RotatingProcessCall messageFormatter.State) :=
  [ RotatingProcessCall.call 0 (Call.construct {} ()),
    RotatingProcessCall.call 0 (Call.forceRotate {}),
    RotatingProcessCall.call 9 (Call.write {} { message := ascii "one" }),
    RotatingProcessCall.killInRotation 2,
    RotatingProcessCall.call 0 (Call.construct {} ()),
    RotatingProcessCall.call 2 (Call.write {} { message := ascii "two" }),
    RotatingProcessCall.kill ]

theorem killedTwice_leaves :
    exists s, (rotationHistory smallPlatform twoNumbered messageFormatter
        oldLog).ReachableUnder NoFileFaults s ∧
      s.2.settled.map Entry.line = [ascii "old", ascii "one", ascii "t"] ∧
      s.2.dropped = [] ∧
      LeavesInOrder twoNumbered.toRotatingFileSinkOptions s.1 s.2 := by
  have hrun : (rotationHistory smallPlatform twoNumbered messageFormatter
      oldLog).run killedTwice = some _ := rfl
  have hnone : forall call, call ∈ killedTwice ->
      NoFileFaults (RotatingProcess.stopped oldLog :
        RotatingProcess messageFormatter.State) call := by
    intro call hcall
    simp only [killedTwice, List.mem_cons, List.not_mem_nil, or_false] at hcall
    rcases hcall with rfl | rfl | rfl | rfl | rfl | rfl | rfl <;>
      first
        | exact rfl
        | exact trivial
  have hreachable := Machine.reachableUnder_of_run hnone hrun
  exact ⟨_, hreachable, rfl, rfl, (crash_keeps_settled_entries smallPlatform
    twoNumbered messageFormatter oldLog rfl).1 _ hreachable⟩

end Sinks
end NginLog
