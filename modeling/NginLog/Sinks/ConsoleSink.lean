import NginLog.Sinks.LogReading

/-!
# The console sink

`ConsoleSink` writes formatted records to the standard streams, and those that
report a problem to `stderr` if it is told so.  Both streams may hold the last
bytes back, each on its own, so the two may show the records in another order
than they were written in.  What a stream shows is always the beginning of the
records that go to it.

The sink is locked during each call, so threads take turns.  Nothing else is
written to the streams here.

After an `fwrite` a stream keeps at most `kept` bytes.  A null formatter is
replaced by a new one, unless making it fails; a record is written unless there
is no formatter even then.
-/

namespace NginLog
namespace Sinks

open Foundation Record Formatting

inductive StandardStream where
  | stdout
  | stderr
deriving DecidableEq

structure ConsoleSinkOptions where
  useStderrForErrors : Bool := true
  includeSource : Bool := true
  autoFlush : Bool := false

namespace ConsoleSinkOptions

variable (options : ConsoleSinkOptions)

def createDefaultFormatter : BuiltInFormatter :=
  BuiltInFormatter.text
    { includeSource := options.includeSource
      timestampStyle := TimestampStyle.iso8601Local }

def stream (level : LogLevel) : StandardStream :=
  if options.useStderrForErrors = true ∧
      (level = LogLevel.warn ∨ level = LogLevel.error ∨
        level = LogLevel.fatal) then
    StandardStream.stderr
  else
    StandardStream.stdout

end ConsoleSinkOptions

/-- What was written to a stream, and how many of the last bytes it holds. -/
structure OutputStream where
  content : Bytes := []
  unwritten : Nat := 0

/-- The sink, its formatter unless that is null, and the streams. -/
structure ConsoleSink (State : Type) where
  formatter : Option State
  scratch : Bytes := []
  streams : StandardStream -> OutputStream := fun _ => {}

namespace ConsoleSink

variable (options : ConsoleSinkOptions) {State : Type}

/-- What is seen of a stream if the process is killed now. -/
def shown (s : ConsoleSink State) (stream : StandardStream) : Bytes :=
  (s.streams stream).content.take
    ((s.streams stream).content.length - (s.streams stream).unwritten)

def fflush (stream : StandardStream) (s : ConsoleSink State) :
    ConsoleSink State :=
  { s with
    streams := Function.update s.streams stream
      { s.streams stream with unwritten := 0 } }

def fwrite (kept : Nat) (stream : StandardStream) (s : ConsoleSink State) :
    ConsoleSink State :=
  { s with
    streams := Function.update s.streams stream
      { content := (s.streams stream).content ++ s.scratch
        unwritten :=
          min kept ((s.streams stream).unwritten + s.scratch.length) } }

def emit (kept : Nat) (stream : StandardStream) (s : ConsoleSink State) :
    ConsoleSink State :=
  let s := s.fwrite kept stream
  if options.autoFlush then s.fflush stream else s

def flush (s : ConsoleSink State) : ConsoleSink State :=
  (s.fflush StandardStream.stdout).fflush StandardStream.stderr

variable (formatter : RecordFormatter)

def ensureFormatter (creationFails : Bool) :
    Option formatter.State -> Option formatter.State
  | some state => some state
  | none => if creationFails then none else some formatter.init

def construct (creationFails : Bool) (given : Option formatter.State) :
    ConsoleSink formatter.State :=
  { formatter := ensureFormatter formatter creationFails given }

def write (kept : Nat) (creationFails : Bool) (record : LogRecordView)
    (s : ConsoleSink formatter.State) : ConsoleSink formatter.State :=
  match ensureFormatter formatter creationFails s.formatter with
  | none => s
  | some state =>
      let formatted := formatter.format state record s.scratch
      let s := { s with scratch := formatted.1, formatter := some formatted.2 }
      s.emit options kept (options.stream record.level)

end ConsoleSink

/-!
## Runs
-/

inductive ConsoleCall where
  | write (kept : Nat) (creationFails : Bool) (record : LogRecordView)
  | flush

/-- The records that were formatted, and what each stream was given of them. -/
structure ConsoleHistory where
  records : List LogRecordView := []
  streams : StandardStream -> FileHistory := fun _ => {}

section

variable (options : ConsoleSinkOptions) (formatter : RecordFormatter)
  (creationFails : Bool) (given : Option formatter.State)

def consoleSink : Machine (ConsoleSink formatter.State) ConsoleCall where
  init := ConsoleSink.construct formatter creationFails given
  step := fun s call =>
    match call with
    | ConsoleCall.write kept fails record =>
        some (s.write options formatter kept fails record)
    | ConsoleCall.flush => some s.flush

def noteConsoleCall (_ : ConsoleSink formatter.State) (call : ConsoleCall)
    (s' : ConsoleSink formatter.State) (history : ConsoleHistory) :
    ConsoleHistory :=
  match call with
  | ConsoleCall.write _ _ record =>
      if s'.formatter.isSome then
        let stream := options.stream record.level
        let written := (history.streams stream).write record s'.scratch
        { records := history.records ++ [record]
          streams := Function.update history.streams stream
            (if options.autoFlush then written.flush else written) }
      else
        history
  | ConsoleCall.flush =>
      { history with streams := fun stream => (history.streams stream).flush }

def consoleHistory :
    Machine (ConsoleSink formatter.State × ConsoleHistory) ConsoleCall :=
  (consoleSink options formatter creationFails given).recording {}
    (noteConsoleCall options formatter)

end

/-!
## Each stream by itself

A stream is written to as a file is that is never closed.  It is given the
records that go to it, in their order, and a call on one stream leaves the other
one alone.
-/

def ConsoleSink.asFile {State : Type} (s : ConsoleSink State)
    (stream : StandardStream) : BufferedFileSink State where
  file := some (s.streams stream).content
  formatter := s.formatter
  fileOpen := true
  scratch := s.scratch
  unwritten := (s.streams stream).unwritten

namespace ConsoleSink

variable {State : Type} (s : ConsoleSink State)

theorem onDisk_asFile (stream : StandardStream) :
    (s.asFile stream).onDisk = s.shown stream := rfl

theorem asFile_fwrite (kept : Nat) (stream : StandardStream) :
    (s.fwrite kept stream).asFile stream = (s.asFile stream).fwrite kept := by
  simp [asFile, fwrite, BufferedFileSink.fwrite]

theorem asFile_fflush (stream : StandardStream) :
    (s.fflush stream).asFile stream = (s.asFile stream).fflush := by
  simp [asFile, fflush, BufferedFileSink.fflush]

theorem asFile_other {stream other : StandardStream} (h : other ≠ stream)
    (kept : Nat) :
    (s.fwrite kept stream).asFile other = s.asFile other ∧
      (s.fflush stream).asFile other = s.asFile other := by
  simp [asFile, fwrite, fflush, h]

theorem emit_eq (options : ConsoleSinkOptions) (kept : Nat)
    (stream : StandardStream) :
    (s.emit options kept stream).formatter = s.formatter ∧
      (s.emit options kept stream).scratch = s.scratch := by
  unfold emit
  split <;> exact ⟨rfl, rfl⟩

theorem asFile_flush (stream : StandardStream) :
    s.flush.asFile stream = (s.asFile stream).fflush := by
  cases stream <;> simp [flush, asFile, fflush, BufferedFileSink.fflush]

end ConsoleSink

structure StreamKeeps (options : ConsoleSinkOptions)
    (Text : LogRecordView -> Bytes -> Prop) (records : List LogRecordView)
    (stream : StandardStream) (history : FileHistory) : Prop where
  before : history.before = []
  records : history.records =
    records.filter fun record => options.stream record.level = stream
  texts : forall p, p ∈ history.written -> Text p.1 p.2
  autoFlush : options.autoFlush = true ->
    history.flushed = history.written.length

section

variable {options : ConsoleSinkOptions}
  {Text : LogRecordView -> Bytes -> Prop} {records : List LogRecordView}
  {stream : StandardStream} {history : FileHistory}

theorem StreamKeeps.flush
    (h : StreamKeeps options Text records stream history) :
    StreamKeeps options Text records stream history.flush :=
  ⟨h.before, h.records, h.texts, fun _ => rfl⟩

theorem StreamKeeps.skip
    (h : StreamKeeps options Text records stream history)
    {record : LogRecordView} (hother : options.stream record.level ≠ stream) :
    StreamKeeps options Text (records ++ [record]) stream history where
  before := h.before
  records := by simp [h.records, hother]
  texts := h.texts
  autoFlush := h.autoFlush

theorem StreamKeeps.write
    (h : StreamKeeps options Text records stream history)
    {record : LogRecordView} (hstream : options.stream record.level = stream)
    {text : Bytes} (htext : Text record text) :
    StreamKeeps options Text (records ++ [record]) stream
      (if options.autoFlush then (history.write record text).flush
        else history.write record text) := by
  have hrecords : (history.write record text).records =
      (records ++ [record]).filter fun record =>
        options.stream record.level = stream := by
    have hold := h.records
    simp only [FileHistory.records] at hold
    simp [FileHistory.records, FileHistory.write, hold, hstream]
  have htexts : forall p, p ∈ (history.write record text).written ->
      Text p.1 p.2 := by
    intro p hp
    rcases List.mem_append.mp hp with hp | hp
    · exact h.texts p hp
    · cases List.mem_singleton.mp hp
      exact htext
  cases hflush : options.autoFlush with
  | true => exact ⟨h.before, hrecords, htexts, fun _ => rfl⟩
  | false => exact ⟨h.before, hrecords, htexts, by simp [hflush]⟩

end

/-!
## Every run
-/

structure ConsoleKeeps (options : ConsoleSinkOptions) {State : Type}
    (Good : State -> Prop) (Text : LogRecordView -> Bytes -> Prop)
    (s : ConsoleSink State) (history : ConsoleHistory) : Prop where
  good : forall state, s.formatter = some state -> Good state
  inStep : forall stream, InStep (s.asFile stream) (history.streams stream)
  streams : forall stream,
    StreamKeeps options Text history.records stream (history.streams stream)

section

variable {options : ConsoleSinkOptions} {formatter : RecordFormatter}
  {Good : formatter.State -> Prop} {Text : LogRecordView -> Bytes -> Prop}
  {s : ConsoleSink formatter.State} {history : ConsoleHistory}

theorem good_ensureFormatter (hinit : Good formatter.init)
    (creationFails : Bool) {given : Option formatter.State}
    (hgiven : forall state, given = some state -> Good state) :
    forall state, ConsoleSink.ensureFormatter formatter creationFails given =
      some state -> Good state := by
  intro state hstate
  cases given with
  | some old => exact hgiven state hstate
  | none =>
      cases creationFails with
      | true => cases hstate
      | false =>
          cases hstate
          exact hinit

theorem inStep_emit {streams : StandardStream -> FileHistory}
    (h : forall stream, InStep (s.asFile stream) (streams stream))
    (kept : Nat) (record : LogRecordView) (stream other : StandardStream) :
    let written := (streams stream).write record s.scratch
    InStep ((s.emit options kept stream).asFile other)
      (Function.update streams stream
        (if options.autoFlush then written.flush else written) other) := by
  intro written
  unfold ConsoleSink.emit
  by_cases hsame : other = stream
  · subst hsame
    have hwritten : InStep ((s.fwrite kept other).asFile other) written := by
      rw [ConsoleSink.asFile_fwrite]
      exact (h other).fwrite rfl kept record
    rw [Function.update_self]
    cases options.autoFlush with
    | true =>
        show InStep (((s.fwrite kept other).fflush other).asFile other)
          written.flush
        rw [ConsoleSink.asFile_fflush]
        exact hwritten.flush rfl rfl fun _ => rfl
    | false => exact hwritten
  · have hfwrite := (s.asFile_other hsame kept).1
    have hfflush := ((s.fwrite kept stream).asFile_other hsame kept).2
    rw [Function.update_of_ne hsame]
    cases options.autoFlush with
    | true =>
        show InStep (((s.fwrite kept stream).fflush stream).asFile other) _
        rw [hfflush, hfwrite]
        exact h other
    | false =>
        show InStep ((s.fwrite kept stream).asFile other) _
        rw [hfwrite]
        exact h other

theorem consoleKeeps_write (hinit : Good formatter.init)
    (hformat : forall state record output, Good state ->
      Text record (formatter.format state record output).1 ∧
        Good (formatter.format state record output).2)
    (h : ConsoleKeeps options Good Text s history) (kept : Nat)
    (creationFails : Bool) (record : LogRecordView) :
    let s' := s.write options formatter kept creationFails record
    ConsoleKeeps options Good Text s'
      (noteConsoleCall options formatter s
        (ConsoleCall.write kept creationFails record) s' history) := by
  have hgood := good_ensureFormatter hinit creationFails h.good
  simp only [ConsoleSink.write]
  cases hstate : ConsoleSink.ensureFormatter formatter creationFails
      s.formatter with
  | none =>
      have hnone : s.formatter = none := by
        cases hs : s.formatter with
        | none => rfl
        | some state =>
            rw [hs] at hstate
            cases hstate
      simpa [noteConsoleCall, hnone] using h
  | some state =>
      rcases hformat state record s.scratch (hgood state hstate) with
        ⟨htext, hnext⟩
      dsimp only
      generalize formatter.format state record s.scratch = formatted at *
      -- Formatting changes nothing that the streams depend on.
      have hformatted : forall stream, InStep
          (({ s with scratch := formatted.1, formatter := some formatted.2 } :
            ConsoleSink formatter.State).asFile stream)
          (history.streams stream) := fun stream =>
        ⟨(h.inStep stream).flushed_le, (h.inStep stream).content,
          (h.inStep stream).unwritten, fun _ => rfl⟩
      generalize hs0 : ({ s with
          scratch := formatted.1
          formatter := some formatted.2 } : ConsoleSink formatter.State) = s0
        at hformatted ⊢
      have hscratch : s0.scratch = formatted.1 := by rw [← hs0]
      have hformatter : s0.formatter = some formatted.2 := by rw [← hs0]
      rcases s0.emit_eq options kept (options.stream record.level) with
        ⟨hsame, hkept⟩
      simp only [noteConsoleCall, hsame, hkept, hformatter, Option.isSome_some,
        if_true]
      refine ⟨?_, inStep_emit hformatted kept record _, fun stream => ?_⟩
      · rw [hsame, hformatter]
        rintro _ ⟨⟩
        exact hnext
      · dsimp only
        by_cases hstream : options.stream record.level = stream
        · subst hstream
          rw [Function.update_self]
          exact (h.streams _).write rfl (hscratch ▸ htext)
        · rw [Function.update_of_ne (Ne.symm hstream)]
          exact (h.streams stream).skip hstream

theorem reachable_consoleKeeps (hinit : Good formatter.init)
    (hformat : forall state record output, Good state ->
      Text record (formatter.format state record output).1 ∧
        Good (formatter.format state record output).2)
    {creationFails : Bool} {given : Option formatter.State}
    (hgiven : forall state, given = some state -> Good state)
    {s : ConsoleSink formatter.State × ConsoleHistory}
    (h : (consoleHistory options formatter creationFails given).Reachable s) :
    ConsoleKeeps options Good Text s.1 s.2 := by
  refine Machine.recordingInvariant (P := ConsoleKeeps options Good Text)
    ?_ ?_ h
  · refine ⟨good_ensureFormatter hinit creationFails hgiven, ?_, ?_⟩
    · exact fun stream => ⟨Nat.le_refl _, rfl, Nat.le_refl _, fun _ => rfl⟩
    · exact fun stream => ⟨rfl, rfl, nofun, fun _ => rfl⟩
  · intro s history call s' _ hkeeps hstep
    cases call with
    | write kept fails record =>
        cases hstep
        exact consoleKeeps_write hinit hformat hkeeps kept fails record
    | flush =>
        cases hstep
        refine ⟨hkeeps.good, fun stream => ?_, fun stream =>
          (hkeeps.streams stream).flush⟩
        rw [ConsoleSink.asFile_flush]
        exact (hkeeps.inStep stream).flush rfl rfl fun _ => rfl

end

/-!
## Lines on the console
-/

/--
The first attempt to make a formatter fails, and the process is killed while
both streams hold the end of a record.
-/
def killedConsole : List ConsoleCall :=
  [ ConsoleCall.write 0 false { message := ascii "a" },
    ConsoleCall.flush,
    ConsoleCall.write 4 false
      { level := LogLevel.error, message := ascii "b" },
    ConsoleCall.write 4 false { message := ascii "c" } ]

end Sinks
end NginLog
