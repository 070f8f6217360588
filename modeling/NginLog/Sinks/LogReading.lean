import NginLog.Foundation.Lines
import NginLog.Formatting.JsonRoundTrip
import NginLog.Formatting.PhysicalLine
import NginLog.Sinks.BufferedFile

/-!
# Reading a log file after a crash

The built-in formatters write one line for each record, so what a crash leaves
of the file is some of the lines, from the first on, and part of the next.  A
process that is started on such a file goes on with the part.  Its first record
is then joined to it, and all others stand on lines of their own.
-/

namespace NginLog
namespace Sinks

open Foundation Record Formatting

/-!
## The texts of a history
-/

def ProcessCall.Allowed {State : Type} (Good : State -> Prop)
    (Loggable : LogRecordView -> Prop) : ProcessCall State -> Prop
  | ProcessCall.construct _ formatter =>
      forall state, formatter = some state -> Good state
  | ProcessCall.write _ _ creationFails record =>
      creationFails = false ∧ Loggable record
  | _ => True

structure WellWritten {State : Type} (Good : State -> Prop)
    (Text : LogRecordView -> Bytes -> Prop) (process : FileProcess State)
    (history : FileHistory) : Prop where
  good : forall s state, process = FileProcess.running s ->
    s.formatter = some state -> Good state
  texts : forall p, p ∈ history.written -> Text p.1 p.2

section

variable {options : BufferedFileSinkOptions} {formatter : RecordFormatter}
  {Good : formatter.State -> Prop} {Loggable : LogRecordView -> Prop}
  {Text : LogRecordView -> Bytes -> Prop}

theorem write_formatter (kept : Nat) (fails creationFails : Bool)
    (record : LogRecordView) (s : BufferedFileSink formatter.State) :
    let s' := s.write options formatter kept fails creationFails record
    let formatted := s.formatRecordLocked formatter creationFails record
    s'.formatter = formatted.formatter ∧ s'.scratch = formatted.scratch := by
  simp only [write_toFileSink, FileSink.write]
  generalize s.formatRecordLocked formatter creationFails record = formatted
  cases hopen : formatted.fileOpen with
  | true => exact ⟨rfl, rfl⟩
  | false => cases fails <;> exact ⟨rfl, rfl⟩

theorem formatRecordLocked_text (hinit : Good formatter.init)
    (hformat : forall state record output, Good state -> Loggable record ->
      Text record (formatter.format state record output).1 ∧
        Good (formatter.format state record output).2)
    {s : FileSink formatter.State} {record : LogRecordView}
    (hgood : forall state, s.formatter = some state -> Good state)
    (hrecord : Loggable record) :
    let formatted := s.formatRecordLocked formatter false record
    Text record formatted.scratch ∧
      forall state, formatted.formatter = some state -> Good state := by
  unfold FileSink.formatRecordLocked
  cases hstate : s.formatter with
  | some state =>
      have hnext := hformat state record s.scratch (hgood state hstate) hrecord
      refine ⟨hnext.1, ?_⟩
      rintro _ ⟨⟩
      exact hnext.2
  | none =>
      have hnext := hformat formatter.init record s.scratch hinit hrecord
      refine ⟨hnext.1, ?_⟩
      rintro _ ⟨⟩
      exact hnext.2

theorem noteCall_write_text {process : FileProcess formatter.State}
    {kept : Nat} {fails creationFails : Bool} {record : LogRecordView}
    {s' : BufferedFileSink formatter.State} {history : FileHistory}
    (hold : forall p, p ∈ history.written -> Text p.1 p.2)
    (hnew : Text record s'.scratch) :
    forall p, p ∈ (noteCall options formatter process
      (ProcessCall.write kept fails creationFails record)
      (FileProcess.running s') history).written -> Text p.1 p.2 := by
  have hboth : forall p, p ∈ (history.write record s'.scratch).written ->
      Text p.1 p.2 := by
    intro p hp
    rcases List.mem_append.mp hp with hp | hp
    · exact hold p hp
    · cases List.mem_singleton.mp hp
      exact hnew
  cases process <;> simp only [noteCall] <;> (repeat' split) <;>
    first
      | exact hold
      | exact hboth

theorem wellWritten_step (hinit : Good formatter.init)
    (hformat : forall state record output, Good state -> Loggable record ->
      Text record (formatter.format state record output).1 ∧
        Good (formatter.format state record output).2)
    {process process' : FileProcess formatter.State} {history : FileHistory}
    {call : ProcessCall formatter.State} {file : Option Bytes}
    (h : WellWritten Good Text process history)
    (hcall : call.Allowed Good Loggable)
    (hstep : (loggingProcesses options formatter file).step process call =
      some process') :
    WellWritten Good Text process'
      (noteCall options formatter process call process' history) := by
  cases process with
  | stopped content =>
      cases call with
      | construct fails state =>
          cases hstep
          refine ⟨?_, fun _ hp => by cases hp⟩
          rintro s state' ⟨⟩ hstate
          refine hcall state' ?_
          cases fails <;> exact hstate
      | _ => cases hstep
  | running s =>
      have hgood := fun state => h.good s state rfl
      cases call with
      | construct fails state => cases hstep
      | write kept fails creationFails record =>
          cases hstep
          rcases hcall with ⟨rfl, hrecord⟩
          rcases @write_formatter options _ kept fails false record s
            with ⟨hstate, hscratch⟩
          rcases formatRecordLocked_text hinit hformat hgood hrecord with
            ⟨htext, hnext⟩
          refine ⟨?_, noteCall_write_text h.texts (hscratch ▸ htext)⟩
          rintro s' state ⟨⟩ hstate'
          exact hnext state (hstate ▸ hstate')
      | flush =>
          cases hstep
          refine ⟨?_, ?_⟩
          · rintro s' state ⟨⟩ hstate
            refine hgood state ?_
            unfold BufferedFileSink.flush at hstate
            split at hstate <;> exact hstate
          · simp only [noteCall]
            split <;> exact h.texts
      | reopen fails =>
          cases hstep
          refine ⟨?_, h.texts⟩
          rintro s' state ⟨⟩ hstate
          refine hgood state ?_
          unfold BufferedFileSink.reopen BufferedFileSink.closeFileLocked
            at hstate
          cases fails <;> split at hstate <;> exact hstate
      | destroy | crash =>
          cases hstep
          refine ⟨?_, h.texts⟩
          rintro s' state ⟨⟩

theorem reachable_wellWritten (hinit : Good formatter.init)
    (hformat : forall state record output, Good state -> Loggable record ->
      Text record (formatter.format state record output).1 ∧
        Good (formatter.format state record output).2)
    {file : Option Bytes} {s : FileProcess formatter.State × FileHistory}
    (h : (fileHistory options formatter file).ReachableUnder
      (fun _ call => call.Allowed Good Loggable) s) :
    WellWritten Good Text s.1 s.2 := by
  refine @Machine.recordingInvariantUnder _ _ _
    (loggingProcesses options formatter file) _ _
    (fun _ call => call.Allowed Good Loggable) (WellWritten Good Text) ?_ ?_ s h
  · constructor
    · rintro s' state ⟨⟩
    · rintro p ⟨⟩
  · intro process history call process' _ hs hcall hstep
    exact wellWritten_step hinit hformat hs hcall hstep

end

/-!
## Lines
-/

/-- The lines of the records, without their ends. -/
def FileHistory.lines (history : FileHistory) : List Bytes :=
  history.texts.map List.dropLast

theorem flatten_eq_unlines {texts : List Bytes}
    (h : forall text, text ∈ texts -> IsPhysicalLine text) :
    texts.flatten = unlines 10 (texts.map List.dropLast) := by
  induction texts with
  | nil => rfl
  | cons text texts ih =>
      rcases h text List.mem_cons_self with ⟨line, _, rfl⟩
      have hrest := ih fun t ht => h t (List.mem_cons_of_mem _ ht)
      rw [List.flatten_cons, hrest, List.map_cons, unlines_cons,
        List.dropLast_concat]
      simp

theorem newline_not_mem_dropLast {text : Bytes} (h : IsPhysicalLine text) :
    (10 : UInt8) ∉ text.dropLast := by
  rcases h with ⟨line, hline, rfl⟩
  rw [List.dropLast_concat]
  intro hmem
  exact absurd (printable_iff.mp hline 10 hmem) (by decide)

theorem Survives.completeLines {disk : Bytes} {history : FileHistory}
    (h : Survives disk history)
    (htexts : forall text, text ∈ history.texts -> IsPhysicalLine text) :
    exists done, history.lines.take history.flushed <+: done ∧
      done <+: history.lines ∧
      Foundation.completeLines 10 disk =
        Foundation.completeLines 10 history.before ++
          joinTorn (tornLine 10 history.before) done := by
  have hclean : forall line, line ∈ history.lines -> (10 : UInt8) ∉ line := by
    intro line hline
    rcases List.mem_map.mp hline with ⟨text, htext, rfl⟩
    exact newline_not_mem_dropLast (htexts text htext)
  have hflushed : forall text,
      text ∈ history.texts.take history.flushed -> IsPhysicalLine text :=
    fun text htext => htexts text (List.mem_of_mem_take htext)
  rcases (List.prefix_append _ _).trans h.flushed with ⟨more, hmore⟩
  have hlow := h.flushed
  have hhigh := h.written
  rw [← hmore, List.prefix_append_right_inj] at hlow hhigh
  rw [flatten_eq_unlines hflushed, List.map_take] at hlow
  rw [flatten_eq_unlines htexts] at hhigh
  refine ⟨Foundation.completeLines 10 more, ?_,
    (completeLines_of_unlines hclean hhigh).1, ?_⟩
  · exact prefix_completeLines hclean (List.take_prefix _ _) hlow
  · rw [← hmore]
    exact completeLines_append history.before hclean hhigh

/-- A call with a formatter in a printable state; making one never fails. -/
def ProcessCall.Printable (runtime : Runtime) (kind : BuiltInFormatter) :
    ProcessCall (kind.toRecordFormatter runtime).State -> Prop :=
  ProcessCall.Allowed (kind.PrintableState runtime) (fun _ => True)

/--
Two records are written behind a torn line, and the process is killed while the
stream holds the end of the second one.
-/
def killedProcess (State : Type) (formatter : State) :
    List (ProcessCall State) :=
  [ ProcessCall.construct false (some formatter),
    ProcessCall.write 0 false false { message := ascii "a" },
    ProcessCall.flush,
    ProcessCall.write 4 false false { message := ascii "b" },
    ProcessCall.crash ]

theorem killedProcess_allowed {State : Type} {Good : State -> Prop}
    {Loggable : LogRecordView -> Prop} {formatter : State}
    (hgood : Good formatter)
    (hrecord : forall message : Bytes, Loggable { message := message }) :
    forall call, call ∈ killedProcess State formatter ->
      call.Allowed Good Loggable := by
  intro call hcall
  simp only [killedProcess, List.mem_cons, List.not_mem_nil, or_false] at hcall
  rcases hcall with rfl | rfl | rfl | rfl | rfl
  · rintro state ⟨⟩
    exact hgood
  · exact ⟨rfl, hrecord _⟩
  · trivial
  · exact ⟨rfl, hrecord _⟩
  · trivial

/-- What a reader makes of one line. -/
def readLine (line : Bytes) : Option ObservedRecord :=
  (Json.read (line ++ [10])).bind ObservedRecord.ofDocument

/-- What a reader makes of a file, line by line. -/
def readLog (disk : Bytes) : List (Option ObservedRecord) :=
  (completeLines 10 disk).map readLine

def FileHistory.records (history : FileHistory) : List LogRecordView :=
  history.written.map Prod.fst

/-- A call on records without doubles; making a formatter never fails. -/
def ProcessCall.Readable {State : Type} : ProcessCall State -> Prop :=
  ProcessCall.Allowed (fun _ => True) DoubleFree

section

variable {runtime : Runtime} {jsonOptions : JsonRecordFormatterOptions}

theorem readLine_formatJson
    (hstyle : jsonOptions.timestampStyle = TimestampStyle.epochNanoseconds ∨
      jsonOptions.timestampStyle = TimestampStyle.epochMilliseconds)
    {record : LogRecordView} (hdouble : DoubleFree record)
    (hline : IsPhysicalLine (formatJson runtime jsonOptions record)) :
    readLine (formatJson runtime jsonOptions record).dropLast =
      some (observed jsonOptions.timestampStyle record) := by
  have hread := read_formatJson runtime hstyle hdouble
  rcases hline with ⟨line, _, hline⟩
  rw [hline] at hread ⊢
  rw [List.dropLast_concat]
  exact hread

theorem Survives.readLog (hruntime : PrintsDoubles runtime)
    (hstyle : jsonOptions.timestampStyle = TimestampStyle.epochNanoseconds ∨
      jsonOptions.timestampStyle = TimestampStyle.epochMilliseconds)
    {disk : Bytes} {history : FileHistory} (h : Survives disk history)
    (htexts : forall p, p ∈ history.written ->
      DoubleFree p.1 ∧ p.2 = formatJson runtime jsonOptions p.1) :
    exists done, history.records.take history.flushed <+: done ∧
      done <+: history.records ∧
      (tornLine 10 history.before = [] ->
        Sinks.readLog disk = Sinks.readLog history.before ++
          done.map fun record =>
            some (observed jsonOptions.timestampStyle record)) ∧
      (Sinks.readLog disk).drop ((Sinks.readLog history.before).length + 1) =
        done.tail.map fun record =>
          some (observed jsonOptions.timestampStyle record) := by
  have hline := formatJson_isPhysicalLine hruntime jsonOptions
  have hwritten : history.texts =
      history.records.map (formatJson runtime jsonOptions) := by
    unfold FileHistory.texts FileHistory.records
    rw [List.map_map]
    exact List.map_congr_left fun p hp => (htexts p hp).2
  have hphysical : forall text, text ∈ history.texts -> IsPhysicalLine text := by
    rw [hwritten]
    intro text htext
    rcases List.mem_map.mp htext with ⟨record, _, rfl⟩
    exact hline record
  rcases h.completeLines hphysical with ⟨lines, hflushed, hlines, hdisk⟩
  have hhistory : history.lines = history.records.map fun record =>
      (formatJson runtime jsonOptions record).dropLast := by
    simp only [FileHistory.lines, hwritten, List.map_map, Function.comp_def]
  rw [hhistory] at hflushed hlines
  rcases List.prefix_map_iff.mp hlines with ⟨done, hdone, rfl⟩
  have hread : forall record, record ∈ done ->
      readLine (formatJson runtime jsonOptions record).dropLast =
        some (observed jsonOptions.timestampStyle record) := by
    intro record hrecord
    have hdouble : DoubleFree record := by
      rcases List.mem_map.mp (hdone.subset hrecord) with ⟨p, hp, rfl⟩
      exact (htexts p hp).1
    exact readLine_formatJson hstyle hdouble (hline record)
  refine ⟨done, ?_, hdone, ?_, ?_⟩
  · have hlength := hflushed.length_le
    rw [List.length_take, List.length_map, List.length_map] at hlength
    exact List.prefix_of_prefix_length_le (List.take_prefix _ _) hdone
      (by rw [List.length_take]; exact hlength)
  · intro hwhole
    have hlines := List.map_congr_left hread
    rw [Sinks.readLog, hdisk, hwhole, joinTorn_nil, List.map_append,
      List.map_map, Function.comp_def, hlines, Sinks.readLog]
  · rw [Sinks.readLog, Sinks.readLog, hdisk, List.map_append, List.drop_append]
    cases done with
    | nil => simp [joinTorn]
    | cons first rest =>
        have hrest := List.map_congr_left fun record hrecord =>
          hread record (List.mem_cons_of_mem first hrecord)
        simp only [joinTorn, List.map_cons, List.map_map, Function.comp_def,
          hrest, List.length_map, List.tail_cons]
        simp

end

end Sinks
end NginLog
