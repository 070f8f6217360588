import NginLog.Foundation.Transition
import NginLog.Formatting.RecordFormatter

/-!
# The file sink

`FileSink` writes formatted records to one file.  The mode it opens the file in
is that of its options, whoever opens it: the constructor, a write that finds no
file open, or `Reopen`.  Buffered bytes count as written, so a flush changes
nothing here and `autoFlush` is left out.

A null formatter is replaced by a new one before a record is formatted, unless
making it fails.
-/

namespace NginLog
namespace Sinks

open Foundation Record Formatting

/-- Whether to append to what the file holds. -/
structure FileSinkOptions where
  append : Bool := true

/-- The sink with the file at its path, and its formatter unless that is null. -/
structure FileSink (State : Type) where
  file : Option Bytes
  formatter : Option State
  fileOpen : Bool := false
  scratch : Bytes := []

namespace FileSink

variable (options : FileSinkOptions) {State : Type}

def openFileLocked (fails : Bool) (s : FileSink State) :
    Bool × FileSink State :=
  if fails then
    (false, { s with fileOpen := false })
  else
    (true,
      { s with
        file := some (if options.append then s.file.getD [] else [])
        fileOpen := true })

def closeFileLocked (s : FileSink State) : FileSink State :=
  { s with fileOpen := false }

def construct (fails : Bool) (formatter : Option State)
    (file : Option Bytes) : FileSink State :=
  (openFileLocked options fails { file := file, formatter := formatter }).2

def reopen (fails : Bool) (s : FileSink State) : Bool × FileSink State :=
  openFileLocked options fails (closeFileLocked s)

variable (formatter : RecordFormatter)

def formatRecordLocked (creationFails : Bool) (record : LogRecordView)
    (s : FileSink formatter.State) : FileSink formatter.State :=
  match s.formatter, creationFails with
  | some state, _ =>
      let formatted := formatter.format state record s.scratch
      { s with scratch := formatted.1, formatter := some formatted.2 }
  | none, false =>
      let formatted := formatter.format formatter.init record s.scratch
      { s with scratch := formatted.1, formatter := some formatted.2 }
  | none, true => { s with scratch := [] }

def write (fails creationFails : Bool) (record : LogRecordView)
    (s : FileSink formatter.State) : FileSink formatter.State :=
  let s := formatRecordLocked formatter creationFails record s
  let opened := if s.fileOpen then (true, s) else openFileLocked options fails s
  if opened.1 then
    { opened.2 with
      file := opened.2.file.map fun content => content ++ opened.2.scratch }
  else
    opened.2

def flush (s : FileSink State) : FileSink State := s

end FileSink

/-!
## Runs
-/

/-- A call on the sink; making a default formatter may fail during a write. -/
inductive FileCall where
  | write (creationFails : Bool) (record : LogRecordView)
  | flush
  | reopen

section

variable (options : FileSinkOptions) (formatter : RecordFormatter)

open FileSink in
def fileSink (state : Option formatter.State) (file : Option Bytes) :
    Machine (FileSink formatter.State) FileCall where
  init := construct options false state file
  step := fun s call =>
    match call with
    | FileCall.write creationFails record =>
        some (write options formatter false creationFails record s)
    | FileCall.flush => some (flush s)
    | FileCall.reopen => some (reopen options false s).2

def noteText (s : FileSink formatter.State) (call : FileCall)
    (_ : FileSink formatter.State) (written : List Bytes) : List Bytes :=
  match call with
  | FileCall.write creationFails record =>
      written ++
        [(s.formatRecordLocked formatter creationFails record).scratch]
  | _ => written

def fileSinkHistory (state : Option formatter.State) (file : Option Bytes) :
    Machine (FileSink formatter.State × List Bytes) FileCall :=
  (fileSink options formatter state file).recording [] (noteText formatter)

end

/-!
## The content of the file
-/

/-- The file holds what it is to begin with, and then every record. -/
def ContentLaw (options : FileSinkOptions) (file : Option Bytes)
    {State : Type} (s : FileSink State × List Bytes) : Prop :=
  s.1.file.getD [] =
    (if options.append then file.getD [] else []) ++ s.2.flatten

/-- A sink that does not append is reopened only before it has written text. -/
def ReopensInTime (options : FileSinkOptions) {State : Type}
    (s : FileSink State × List Bytes) (call : FileCall)
    (_ : FileSink State × List Bytes) : Prop :=
  call = FileCall.reopen -> options.append = true ∨ s.2.flatten = []

section

variable {options : FileSinkOptions} {formatter : RecordFormatter}
  {state : Option formatter.State} {file : Option Bytes}
  {s s' : FileSink formatter.State × List Bytes}

theorem formatRecordLocked_file (creationFails : Bool) (record : LogRecordView)
    (s : FileSink formatter.State) :
    (s.formatRecordLocked formatter creationFails record).file = s.file ∧
      (s.formatRecordLocked formatter creationFails record).fileOpen =
        s.fileOpen := by
  unfold FileSink.formatRecordLocked
  split <;> exact ⟨rfl, rfl⟩

theorem write_open {s : FileSink formatter.State} {content : Bytes}
    (hopen : s.fileOpen = true) (hfile : s.file = some content)
    (creationFails : Bool) (record : LogRecordView) :
    (s.write options formatter false creationFails record).file =
        some (content ++
          (s.formatRecordLocked formatter creationFails record).scratch) ∧
      (s.write options formatter false creationFails record).fileOpen =
        true := by
  rcases formatRecordLocked_file creationFails record s with
    ⟨hsame, hstill⟩
  rw [hopen] at hstill
  rw [hfile] at hsame
  unfold FileSink.write
  simp [hstill, hsame]

/-- The file is open, and its content is right. -/
structure Writes (options : FileSinkOptions) (file : Option Bytes)
    {State : Type} (s : FileSink State × List Bytes) : Prop where
  fileOpen : s.1.fileOpen = true
  content : s.1.file = some
    ((if options.append then file.getD [] else []) ++ s.2.flatten)

theorem writes_init :
    Writes options file (fileSinkHistory options formatter state file).init := by
  refine ⟨rfl, ?_⟩
  rw [show (fileSinkHistory options formatter state file).init.2.flatten =
    [] from rfl, List.append_nil]
  rfl

theorem reopen_content {call : FileCall}
    (hcall : call = FileCall.reopen)
    (hstep : (fileSinkHistory options formatter state file).step s call =
      some s') :
    s'.1.fileOpen = true ∧ s'.2 = s.2 ∧
      s'.1.file =
        some (if options.append then s.1.file.getD [] else []) := by
  subst hcall
  cases hstep
  exact ⟨rfl, rfl, rfl⟩

theorem writes_step {call : FileCall} (hs : Writes options file s)
    (hstep : (fileSinkHistory options formatter state file).step s call =
      some s')
    (hguard : ReopensInTime options s call s') :
    Writes options file s' := by
  rcases hs with ⟨hopen, hcontent⟩
  cases call with
  | write creationFails record =>
      cases hstep
      rcases @write_open options formatter _ _ hopen hcontent creationFails
        record with ⟨hfile, hstill⟩
      refine ⟨hstill, ?_⟩
      rw [hfile, List.append_assoc]
      show _ = some (_ ++ (s.2 ++ [_]).flatten)
      rw [List.flatten_append, List.flatten_singleton]
  | flush =>
      cases hstep
      exact ⟨hopen, hcontent⟩
  | reopen =>
      rcases reopen_content rfl hstep with ⟨hstill, hwritten, hfile⟩
      refine ⟨hstill, ?_⟩
      rw [hfile, hwritten, hcontent]
      rcases hguard rfl with happend | hnothing
      · simp [happend]
      · cases happend : options.append <;> simp [hnothing]

theorem reopensInTime_of_contentLaw {call : FileCall}
    (hstep : (fileSinkHistory options formatter state file).step s call =
      some s')
    (hs' : ContentLaw options file s') :
    ReopensInTime options s call s' := by
  intro hcall
  rcases reopen_content hcall hstep with ⟨_, hwritten, hfile⟩
  by_cases happend : options.append = true
  · exact Or.inl happend
  · unfold ContentLaw at hs'
    rw [hfile, hwritten] at hs'
    simp only [happend] at hs'
    exact Or.inr hs'.symm

end

/--
The content law holds throughout a run just if the sink appends or is reopened
only before it has written any text.
-/
theorem file_content_law_iff (options : FileSinkOptions)
    (formatter : RecordFormatter) (state : Option formatter.State)
    (file : Option Bytes) (calls : List FileCall) :
    (fileSinkHistory options formatter state file).Throughout
        (ContentLaw options file)
        (fileSinkHistory options formatter state file).init calls <->
      (fileSinkHistory options formatter state file).EachStep
        (ReopensInTime options)
        (fileSinkHistory options formatter state file).init calls :=
  Machine.throughout_iff_eachStep
    (fun s hs => by rw [ContentLaw, hs.content]; rfl)
    (fun _ _ _ hs hstep hguard => writes_step hs hstep hguard)
    (fun _ _ _ _ hstep hs' => reopensInTime_of_contentLaw hstep hs')
    writes_init

def lineFormatter : RecordFormatter where
  State := Unit
  init := ()
  format := fun _ record _ => (record.message ++ ascii "\n", ())

/-- Without append, the sink loses its own record when it is reopened. -/
theorem reopen_discards_record :
    ¬ (fileSinkHistory { append := false } lineFormatter (some ())
        none).Throughout (ContentLaw { append := false } none)
      (fileSinkHistory { append := false } lineFormatter (some ()) none).init
      [FileCall.write false { message := ascii "line" }, FileCall.reopen] := by
  intro h
  have hlaw : ([] : Bytes) = ascii "line\n" := (h.2 _ rfl).2 _ rfl
  exact absurd hlaw (by decide)

end Sinks
end NginLog
