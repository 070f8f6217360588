import NginLog.Foundation.Directory
import NginLog.Foundation.Transition
import NginLog.Formatting.RecordFormatter

/-!
# The rotating file sink

`RotatingFileSink` over a disk that only it writes to: a directory from paths to
files.  Buffered bytes count as written, so a flush changes nothing here and
`autoFlush` is left out.

The calls that open, rename and remove files may fail, and leave the files as
they are then.  Sizes are natural numbers: no file is as long as a 64-bit sum of
two sizes that wraps around.
-/

namespace NginLog
namespace Sinks

open Foundation Record Formatting

/-!
## The disk
-/

structure FileIdentity where
  valid : Bool := false
  device : UInt64 := 0
  inode : UInt64 := 0
deriving DecidableEq

structure File where
  device : UInt64 := 0
  inode : UInt64 := 0
  contents : Bytes := []

abbrev Disk := Directory Bytes File

/-- What `localtime_r` says about a day; `tm_yday` is at most 365. -/
structure LocalDate where
  year : Int := 1900
  yearDay : Fin 366 := 0
deriving DecidableEq

/-- What the sink uses of the system. -/
structure Platform where
  /-- `localtime_r`, which fails without filling its result in. -/
  localtime : Int64 -> Option LocalDate
  /-- The device and the inode that a new file gets. -/
  newFile : Disk -> Bytes -> UInt64 × UInt64

/-- `ReadPathIdentity`, and `ReadFileIdentity` of the file just opened. -/
def readPathIdentity (disk : Disk) (path : Bytes) : FileIdentity :=
  match disk path with
  | none => {}
  | some file =>
      { valid := true, device := file.device, inode := file.inode }

/-!
## Options and failures
-/

structure RotatingFileSinkOptions where
  path : Bytes := []
  append : Bool := true
  maxFileBytes : Nat := 0
  maxFiles : Nat := 5
  rotateAtStartup : Bool := false
  rotateDailyLocal : Bool := false
  detectExternalRotation : Bool := false

/-- Where a call may open the file. -/
inductive OpenSite where
  | first
  | external
  | rotation
  | last
deriving DecidableEq

/-- Which operations fail during a call; a rename is told by its source. -/
structure Faults where
  remove : Bool := false
  rename : Nat -> Bool := fun _ => false
  opening : OpenSite -> Bool := fun _ => false

/-- The path itself, and its numbered retention files. -/
def slotName (path : Bytes) : Nat -> Bytes
  | 0 => path
  | k + 1 => path ++ ascii "." ++ decimal (k + 1)

/-!
## The sink

The functions have the names that they have in the source.  The constructor has
put a formatter in place.
-/

/-- The sink with its formatter's state and the disk. -/
structure RotatingFileSink (State : Type) where
  disk : Disk
  formatter : State
  fileOpen : Bool := false
  scratch : Bytes := []
  currentFileBytes : Nat := 0
  lastLocalDateKey : Int := -1
  identity : FileIdentity := {}

namespace RotatingFileSink

variable (platform : Platform) (options : RotatingFileSinkOptions)

def openFile (disk : Disk) : Disk :=
  match disk options.path with
  | some file =>
      if options.append then
        disk
      else
        disk.store options.path { file with contents := [] }
  | none =>
      disk.store options.path
        { device := (platform.newFile disk options.path).1,
          inode := (platform.newFile disk options.path).2 }

section

variable {State : Type}

def openFileLocked (fails : Bool) (s : RotatingFileSink State) :
    Bool × RotatingFileSink State :=
  if fails then
    (false, { s with fileOpen := false })
  else
    let disk := openFile platform options s.disk
    (true,
      { s with
        disk := disk
        fileOpen := true
        currentFileBytes :=
          ((disk options.path).map fun file => file.contents.length).getD 0
        identity := readPathIdentity disk options.path })

def closeFileLocked (s : RotatingFileSink State) : RotatingFileSink State :=
  { s with fileOpen := false, identity := {} }

def ensureOpen (fails : Bool) (s : RotatingFileSink State) :
    Bool × RotatingFileSink State :=
  if s.fileOpen then (true, s) else openFileLocked platform options fails s

end

def renameUp (path : Bytes) (fails : Nat -> Bool) (disk : Disk) (k : Nat) :
    Disk :=
  if (disk (slotName path k)).isSome then
    if fails k then
      disk
    else
      disk.rename (slotName path k) (slotName path (k + 1))
  else
    disk

def renameLoop (path : Bytes) (fails : Nat -> Bool) : Nat -> Disk -> Disk
  | index + 2, disk =>
      renameLoop path fails (index + 1) (renameUp path fails disk (index + 1))
  | _, disk => disk

def rotateFiles (faults : Faults) (disk : Disk) : Disk :=
  if options.maxFiles > 0 then
    let oldest := slotName options.path options.maxFiles
    let disk := if faults.remove then disk else disk.remove oldest
    let disk := renameLoop options.path faults.rename options.maxFiles disk
    renameUp options.path faults.rename disk 0
  else
    if faults.remove then disk else disk.remove options.path

variable {State : Type}

def rotateLocked (faults : Faults) (s : RotatingFileSink State) :
    Bool × RotatingFileSink State :=
  let s := closeFileLocked s
  let s := { s with disk := rotateFiles options faults s.disk }
  let s := { s with currentFileBytes := 0 }
  openFileLocked platform options (faults.opening OpenSite.rotation) s

def localDay (timestampEpochNanoseconds : UInt64) : LocalDate :=
  (platform.localtime (timestampEpochNanoseconds / 1000000000).toInt64).getD {}

def makeLocalDateKey (timestampEpochNanoseconds : UInt64) : Int :=
  let timeInfo := localDay platform timestampEpochNanoseconds
  timeInfo.year * 1000 + (timeInfo.yearDay.val : Int)

def shouldRotateByDateLocked (record : LogRecordView)
    (s : RotatingFileSink State) : Bool × RotatingFileSink State :=
  if options.rotateDailyLocal then
    let dateKey := makeLocalDateKey platform record.timestampEpochNanoseconds
    if s.lastLocalDateKey = -1 then
      (false, { s with lastLocalDateKey := dateKey })
    else if dateKey ≠ s.lastLocalDateKey then
      (true, { s with lastLocalDateKey := dateKey })
    else
      (false, s)
  else
    (false, s)

def detectExternalRotationLocked (fails : Bool) (s : RotatingFileSink State) :
    Bool × RotatingFileSink State :=
  let pathIdentity := readPathIdentity s.disk options.path
  if s.identity.valid = false ∨ pathIdentity.valid = false then
    (false, s)
  else if s.identity.device = pathIdentity.device ∧
      s.identity.inode = pathIdentity.inode then
    (false, s)
  else
    openFileLocked platform options fails (closeFileLocked s)

def exceedsMaxFileBytes (s : RotatingFileSink State) : Bool :=
  decide (options.maxFileBytes > 0 ∧
    s.currentFileBytes + s.scratch.length > options.maxFileBytes)

/-- The condition under which `Write` rotates; the date is tested second. -/
def rotationDue (record : LogRecordView) (s : RotatingFileSink State) :
    Bool × RotatingFileSink State :=
  if exceedsMaxFileBytes options s then
    (true, s)
  else
    shouldRotateByDateLocked platform options record s

def writeScratch (s : RotatingFileSink State) : RotatingFileSink State :=
  { s with
    disk := match s.disk options.path with
      | some file =>
          s.disk.store options.path
            { file with contents := file.contents ++ s.scratch }
      | none => s.disk
    currentFileBytes := s.currentFileBytes + s.scratch.length }

variable (formatter : RecordFormatter)

/-- `Write` up to the rotation, and whether it goes on. -/
def prepare (faults : Faults) (record : LogRecordView)
    (s : RotatingFileSink formatter.State) :
    Bool × RotatingFileSink formatter.State :=
  let formatted := formatter.format s.formatter record s.scratch
  let s := { s with scratch := formatted.1, formatter := formatted.2 }
  match ensureOpen platform options (faults.opening OpenSite.first) s with
  | (false, s) => (false, s)
  | (true, s) =>
      if options.detectExternalRotation then
        (true, (detectExternalRotationLocked platform options
          (faults.opening OpenSite.external) s).2)
      else
        (true, s)

def write (faults : Faults) (record : LogRecordView)
    (s : RotatingFileSink formatter.State) :
    RotatingFileSink formatter.State :=
  match prepare platform options formatter faults record s with
  | (false, s) => s
  | (true, s) =>
      let due := rotationDue platform options record s
      let s :=
        if due.1 then (rotateLocked platform options faults due.2).2 else due.2
      match ensureOpen platform options (faults.opening OpenSite.last) s with
      | (false, s) => s
      | (true, s) => writeScratch options s

def reopen (faults : Faults) (s : RotatingFileSink State) :
    Bool × RotatingFileSink State :=
  openFileLocked platform options (faults.opening OpenSite.first)
    (closeFileLocked s)

def forceRotate (faults : Faults) (s : RotatingFileSink State) :
    Bool × RotatingFileSink State :=
  rotateLocked platform options faults s

/-- The constructor, on a disk and with the state that its formatter is in. -/
def construct (faults : Faults) (state : State) (disk : Disk) :
    RotatingFileSink State :=
  let s := (openFileLocked platform options (faults.opening OpenSite.first)
    { disk := disk, formatter := state }).2
  if options.rotateAtStartup then
    (rotateLocked platform options faults s).2
  else
    s

end RotatingFileSink

/-!
## Runs

One sink at a time is constructed on the disk, used and destroyed.
-/

inductive Phase (State : Type) where
  | stopped (disk : Disk)
  | running (sink : RotatingFileSink State)

def Phase.disk {State : Type} : Phase State -> Disk
  | stopped disk => disk
  | running sink => sink.disk

/-- A call on the sink, with the failures during it. -/
inductive Call (State : Type) where
  | construct (faults : Faults) (formatter : State)
  | destroy
  | write (faults : Faults) (record : LogRecordView)
  | flush
  | forceRotate (faults : Faults)
  | reopen (faults : Faults)

def Call.faults {State : Type} : Call State -> Faults
  | construct faults _ => faults
  | write faults _ => faults
  | forceRotate faults => faults
  | reopen faults => faults
  | destroy => {}
  | flush => {}

open RotatingFileSink in
def rotatingFileSink (platform : Platform) (options : RotatingFileSinkOptions)
    (formatter : RecordFormatter) (disk : Disk) :
    Machine (Phase formatter.State) (Call formatter.State) where
  init := Phase.stopped disk
  step := fun phase call =>
    match phase, call with
    | Phase.stopped disk, Call.construct faults state =>
        some (Phase.running (construct platform options faults state disk))
    | Phase.running s, Call.destroy =>
        some (Phase.stopped (closeFileLocked s).disk)
    | Phase.running s, Call.write faults record =>
        some (Phase.running (write platform options formatter faults record s))
    | Phase.running s, Call.flush => some (Phase.running s)
    | Phase.running s, Call.forceRotate faults =>
        some (Phase.running (forceRotate platform options faults s).2)
    | Phase.running s, Call.reopen faults =>
        some (Phase.running (reopen platform options faults s).2)
    | _, _ => none

end Sinks
end NginLog
