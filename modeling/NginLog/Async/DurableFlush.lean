import Mathlib.Data.List.Forall2
import NginLog.Async.DropAccounting
import NginLog.Sinks.BufferedFile

/-!
# A flush makes records durable

An `AsyncSink` around a `FileSink`.  The sink makes its calls of the file sink
one at a time, since it holds the delivery mutex for each, so the file sink runs
through the calls of `Shared.sink` in order.  When `Flush` has returned, every
record whose `Write` had returned before is on the disk, or was dropped; and if
drops are reported, so is the report.  A process that is killed afterwards
leaves them there.
-/

namespace NginLog
namespace Async

open Foundation Record Formatting Sinks

variable {Thread : Type} {C : AsyncSinkConfig}

/-!
## The calls of the file sink
-/

def dropReport (now : UInt64) (source : SourceLocation)
    (threadIdHash : UInt64) (message : Bytes) : LogRecordView where
  timestampEpochNanoseconds := now
  level := LogLevel.warn
  loggerName := ascii "AsyncSink"
  message := message
  source := source
  threadIdHash := threadIdHash

/-- The record that an event hands to `Write` of the wrapped sink. -/
inductive Writes : SinkEvent Thread -> LogRecordView -> Prop where
  | deliver (ticket : Ticket) :
      Writes (SinkEvent.deliver ticket) (deliveredView ticket.record)
  | fallback (t : Thread) (ticket : Ticket) :
      Writes (SinkEvent.fallback t ticket) (deliveredView ticket.record)
  | report (dropped : Nat) (message : Bytes) (calls : List Nat) (now : UInt64)
      (source : SourceLocation) (threadIdHash : UInt64) :
      Writes (SinkEvent.report dropped message calls)
        (dropReport now source threadIdHash message)

/-- Only `FlushWrappedSink` hands no record over. -/
def SinkEvent.writes : SinkEvent Thread -> Bool
  | SinkEvent.flush _ => false
  | _ => true

/-- The call of the file sink that an event stands for. -/
inductive WrappedCall {State : Type} : SinkEvent Thread -> ProcessCall State ->
    Prop where
  | write {event : SinkEvent Thread} {record : LogRecordView}
      (hwrites : Writes event record) (kept : Nat)
      (fails creationFails : Bool) :
      WrappedCall event (ProcessCall.write kept fails creationFails record)
  | flush (agent : Agent Thread) :
      WrappedCall (SinkEvent.flush agent) ProcessCall.flush

/-- The text is what the formatter makes of the record. -/
def FormattedAs (formatter : RecordFormatter) (record : LogRecordView)
    (text : Bytes) : Prop :=
  exists state output, (formatter.format state record output).1 = text

/-- The record is in the file, and no longer in the stream. -/
def OnFile (formatter : RecordFormatter) (history : FileHistory)
    (record : LogRecordView) : Prop :=
  exists text, FormattedAs formatter record text ∧
    (record, text) ∈ history.written.take history.flushed

/-!
## What the file sink makes of them

What has been written before a flush is on file from then on.
-/

structure Ahead (history later : FileHistory) : Prop where
  written : history.written <+: later.written
  flushed : history.flushed ≤ later.flushed

theorem Ahead.refl (history : FileHistory) : Ahead history history :=
  ⟨List.prefix_rfl, Nat.le_refl _⟩

theorem Ahead.trans {first second third : FileHistory} (h : Ahead first second)
    (h' : Ahead second third) :
    Ahead first third :=
  ⟨h.written.trans h'.written, Nat.le_trans h.flushed h'.flushed⟩

theorem Ahead.onFile {history later : FileHistory} (h : Ahead history later)
    (hflushed : history.flushed = history.written.length)
    {formatter : RecordFormatter} {record : LogRecordView} {text : Bytes}
    (hformatted : FormattedAs formatter record text)
    (hwritten : (record, text) ∈ history.written) :
    OnFile formatter later record := by
  have hbegins : history.written <+: later.written.take later.flushed := by
    have hlength : history.written.length ≤ later.flushed :=
      hflushed ▸ h.flushed
    have hboth := h.written.length_le
    refine List.prefix_of_prefix_length_le h.written (List.take_prefix _ _) ?_
    rw [List.length_take]
    omega
  exact ⟨text, hformatted, hbegins.subset hwritten⟩

structure Ready {State : Type} (s : BufferedFileSink State)
    (history : FileHistory) : Prop where
  fileOpen : s.fileOpen = true
  formatter : s.formatter.isSome = true
  flushed : history.flushed ≤ history.written.length

theorem exists_partner {α β : Type} {R : α -> β -> Prop} {xs : List α}
    {ys : List β} (h : List.Forall₂ R xs ys) {x : α} (hx : x ∈ xs) :
    exists y, y ∈ ys ∧ R x y := by
  induction h with
  | nil => cases hx
  | cons hhead _ ih =>
      rcases List.mem_cons.mp hx with rfl | hx
      · exact ⟨_, List.mem_cons_self, hhead⟩
      · rcases ih hx with ⟨y, hy, hrelated⟩
        exact ⟨y, List.mem_cons_of_mem _ hy, hrelated⟩

structure WrittenEntry (formatter : RecordFormatter) (event : SinkEvent Thread)
    (entry : LogRecordView × Bytes) : Prop where
  writes : Writes event entry.1
  formatted : FormattedAs formatter entry.1 entry.2

section

variable {options : BufferedFileSinkOptions} {formatter : RecordFormatter}
  {file : Option Bytes} {s : BufferedFileSink formatter.State}
  {history : FileHistory}

theorem write_step (h : Ready s history) (kept : Nat)
    (fails creationFails : Bool) (record : LogRecordView) :
    exists s' later text, (fileHistory options formatter file).step
        (FileProcess.running s, history)
        (ProcessCall.write kept fails creationFails record) =
          some (FileProcess.running s', later) ∧
      Ready s' later ∧ history.flushed ≤ later.flushed ∧
      FormattedAs formatter record text ∧ later.before = history.before ∧
      later.written = history.written ++ [(record, text)] := by
  rcases Option.isSome_iff_exists.mp h.formatter with ⟨state, hstate⟩
  have hopen : s.toFileSink.fileOpen = true := h.fileOpen
  have hsink : (s.write options formatter kept fails creationFails
      record).toFileSink =
      { s.toFileSink with
        file := s.file.map fun content => content ++
          (formatter.format state record s.scratch).1
        scratch := (formatter.format state record s.scratch).1
        formatter := some (formatter.format state record s.scratch).2 } := by
    rw [write_toFileSink]
    simp [FileSink.write, FileSink.formatRecordLocked, hstate, hopen]
  generalize hafter : s.write options formatter kept fails creationFails record =
    s' at hsink
  have hopen' : s'.fileOpen = true := by rw [hsink]; exact hopen
  have hscratch : s'.scratch = (formatter.format state record s.scratch).1 := by
    rw [hsink]
  have hready : forall later : FileHistory,
      later.flushed ≤ later.written.length -> Ready s' later := fun later =>
    Ready.mk hopen' (by rw [hsink]; rfl)
  have hnote : noteCall options formatter (FileProcess.running s)
      (ProcessCall.write kept fails creationFails record)
      (FileProcess.running s') history =
        if options.autoFlush then
          (history.write record s'.scratch).flush
        else
          history.write record s'.scratch := by
    simp [noteCall, hopen']
  have hlater : forall later, (later = history.write record s'.scratch ∨
      later = (history.write record s'.scratch).flush) ->
      Ready s' later ∧ history.flushed ≤ later.flushed ∧
        later.before = history.before ∧
        later.written = history.written ++ [(record, s'.scratch)] := by
    have hflushed := h.flushed
    have hlength : (history.write record s'.scratch).written.length =
        history.written.length + 1 := List.length_append
    rintro later (rfl | rfl)
    · refine ⟨hready _ ?_, Nat.le_refl _, rfl, rfl⟩
      show history.flushed ≤ _
      omega
    · refine ⟨hready _ (Nat.le_refl _), ?_, rfl, rfl⟩
      show history.flushed ≤ (history.write record s'.scratch).written.length
      omega
  have hstep : (fileHistory options formatter file).step
      (FileProcess.running s, history)
      (ProcessCall.write kept fails creationFails record) =
        some (FileProcess.running s',
          noteCall options formatter (FileProcess.running s)
            (ProcessCall.write kept fails creationFails record)
            (FileProcess.running s') history) := by
    rw [← hafter]
    rfl
  rw [hnote] at hstep
  rcases hlater (if options.autoFlush then
      (history.write record s'.scratch).flush
    else
      history.write record s'.scratch) (by split <;> simp) with
    ⟨hafterwards, hflushed, hbefore, hwritten⟩
  exact ⟨s', _, s'.scratch, hstep, hafterwards, hflushed,
    ⟨state, s.scratch, hscratch.symm⟩, hbefore, hwritten⟩

/-- The file sink goes on with its file, and adds what the events write. -/
structure Adds (formatter : RecordFormatter) (events : List (SinkEvent Thread))
    (history later : FileHistory) (added : List (LogRecordView × Bytes)) :
    Prop where
  before : later.before = history.before
  written : later.written = history.written ++ added
  flushed : history.flushed ≤ later.flushed
  entries : List.Forall₂ (WrittenEntry formatter) (events.filter SinkEvent.writes) added

theorem Adds.ahead {events : List (SinkEvent Thread)} {later : FileHistory}
    {added : List (LogRecordView × Bytes)}
    (h : Adds formatter events history later added) :
    Ahead history later :=
  ⟨h.written ▸ List.prefix_append _ _, h.flushed⟩

theorem wrappedCall_step (h : Ready s history) {event : SinkEvent Thread}
    {call : ProcessCall formatter.State} (hcall : WrappedCall event call) :
    exists s' later added, (fileHistory options formatter file).step
        (FileProcess.running s, history) call =
          some (FileProcess.running s', later) ∧
      Ready s' later ∧ Adds formatter [event] history later added ∧
      (event.writes = false -> later.flushed = later.written.length) := by
  cases hcall with
  | write hwrites kept fails creationFails =>
      rcases @write_step options formatter file s history h kept fails
          creationFails _ with
        ⟨s', later, text, hstep, hready, hflushed, hformatted, hbefore,
          hwritten⟩
      have hkind : event.writes = true := by cases hwrites <;> rfl
      refine ⟨s', later, [(_, text)], hstep, hready,
        ⟨hbefore, hwritten, hflushed, ?_⟩,
        fun hnone => by rw [hkind] at hnone; cases hnone⟩
      rw [List.filter_cons_of_pos hkind]
      exact List.Forall₂.cons ⟨hwrites, hformatted⟩ List.Forall₂.nil
  | flush agent =>
      have hopen : s.fileOpen = true := h.fileOpen
      refine ⟨s.fflush, history.flush, [], ?_,
        ⟨hopen, h.formatter, Nat.le_refl _⟩,
        ⟨rfl, (List.append_nil _).symm, h.flushed, List.Forall₂.nil⟩,
        fun _ => rfl⟩
      show some (_, _) = some (_, _)
      simp [BufferedFileSink.flush, noteCall, hopen]

theorem wrappedCalls_run (h : Ready s history)
    {events : List (SinkEvent Thread)}
    {calls : List (ProcessCall formatter.State)}
    (hcalls : List.Forall₂ WrappedCall events calls) :
    exists s' later added, (fileHistory options formatter file).runFrom
        (FileProcess.running s, history) calls =
          some (FileProcess.running s', later) ∧
      Ready s' later ∧ Adds formatter events history later added := by
  induction hcalls generalizing s history with
  | nil =>
      exact ⟨s, history, [], rfl, h, rfl,
        (List.append_nil _).symm, Nat.le_refl _, List.Forall₂.nil⟩
  | cons hcall hrest ih =>
      rename_i event call events calls
      rcases @wrappedCall_step _ options _ file _ _ h _ _ hcall with
        ⟨mid, between, first, hstep, hready, hfirst, _⟩
      rcases ih hready with ⟨s', later, rest, hrun, hready', hlater⟩
      refine ⟨s', later, first ++ rest, ?_, hready',
        hlater.before.trans hfirst.before, ?_,
        Nat.le_trans hfirst.flushed hlater.flushed, ?_⟩
      · rw [Machine.runFrom_cons, hstep]
        exact hrun
      · rw [hlater.written, hfirst.written, List.append_assoc]
      · rw [← List.singleton_append, List.filter_append]
        exact List.rel_append hfirst.entries hlater.entries

theorem onFile_of_flush (h : Ready s history)
    {pre post : List (SinkEvent Thread)} {agent : Agent Thread}
    {calls : List (ProcessCall formatter.State)}
    (hcalls : List.Forall₂ WrappedCall
      (pre ++ SinkEvent.flush agent :: post) calls)
    {process : FileProcess formatter.State} {later : FileHistory}
    (hrun : (fileHistory options formatter file).runFrom
      (FileProcess.running s, history) calls = some (process, later))
    {event : SinkEvent Thread} (hevent : event ∈ pre)
    (hwrites : event.writes = true) :
    exists record, Writes event record ∧ OnFile formatter later record := by
  have hbefore := List.forall₂_take pre.length hcalls
  have hafter := List.forall₂_drop pre.length hcalls
  rw [List.take_left] at hbefore
  rw [List.drop_left] at hafter
  rw [← List.take_append_drop pre.length calls, Machine.runFrom_append] at hrun
  rcases @wrappedCalls_run _ options _ file _ _ h _ _ hbefore with
    ⟨mid, between, added, hfirst, hready, hadded⟩
  rw [hfirst, Option.bind_some] at hrun
  rcases exists_partner hadded.entries
    (List.mem_filter.mpr ⟨hevent, hwrites⟩) with ⟨⟨record, text⟩, hmem, hentry⟩
  have hwritten : (record, text) ∈ between.written := by
    rw [hadded.written]
    exact List.mem_append_right _ hmem
  generalize calls.drop pre.length = rest at hafter hrun
  cases hafter with
  | cons hflush hrest =>
      rcases @wrappedCall_step _ options _ file _ _ hready _ _ hflush with
        ⟨next, flushed, _, hstep, hready', hnext, hall⟩
      rcases @wrappedCalls_run _ options _ file _ _ hready' _ _ hrest with
        ⟨last, final, _, hlast, _, hlater⟩
      rw [Machine.runFrom_cons, hstep, Option.bind_some, hlast] at hrun
      cases hrun
      exact ⟨record, hentry.writes, hlater.ahead.onFile (hall rfl)
        hentry.formatted (hnext.ahead.written.subset hwritten)⟩

end

/-!
## Every run of the asynchronous sink
-/

/-- The record of the call is on file, as the sink has copied it. -/
def CallOnFile (formatter : RecordFormatter) (history : FileHistory)
    (s : Shared Thread C) (call : Nat) : Prop :=
  exists begun, s.history.calls[call]? = some begun ∧
    OnFile formatter history (deliveredView (toOwned begun.record))

/-- A report that states the drop, with others perhaps, is on file. -/
def DropOnFile (formatter : RecordFormatter) (history : FileHistory) : Prop :=
  exists now source threadIdHash dropped, dropped ≠ 0 ∧
    OnFile formatter history
      (dropReport now source threadIdHash (dropReportMessage dropped))

section

variable [DecidableEq Thread]

theorem exists_event_of_handed {s : State Thread C}
    (hsink : C.sinkPresent = true) (h : (asyncSink Thread C).Reachable s)
    {pre post : List (SinkEvent Thread)} (hsplit : s.shared.sink = pre ++ post)
    {call : Nat} (hcall : Handed pre call) :
    exists event ticket begun, event ∈ pre ∧
      s.shared.history.calls[call]? = some begun ∧
      ticket.record = toOwned begun.record ∧
      (event = SinkEvent.deliver ticket ∨
        exists t, event = SinkEvent.fallback t ticket) := by
  have hledger := reachable_ledger hsink h
  have hmade : forall t ticket, s.shared.books.Made t ticket ->
      ticket.call = call -> exists begun,
        s.shared.history.calls[call]? = some begun ∧
          ticket.record = toOwned begun.record := by
    rintro t ticket ⟨record, hbegun, hrecord⟩ rfl
    exact ⟨_, hbegun, hrecord⟩
  rcases hcall with hdelivered | hfell
  · rcases List.mem_map.mp hdelivered with ⟨ticket, hmem, hnumber⟩
    rcases List.mem_filterMap.mp hmem with ⟨event, hevent, hticket⟩
    have haccepted : ticket ∈ s.shared.books.accepted := by
      show ticket ∈ s.shared.history.accepted
      rw [← reachable_pipeline hsink h, pipeline, hsplit, delivered_append]
      simp [hmem]
    rcases hledger.accepted ticket haccepted with ⟨t, hmine⟩
    rcases hmade t ticket hmine hnumber with ⟨begun, hbegun, hrecord⟩
    refine ⟨event, ticket, begun, hevent, hbegun, hrecord, Or.inl ?_⟩
    cases event <;> cases hticket
    rfl
  · rcases List.mem_map.mp hfell with ⟨⟨t, ticket⟩, hmem, hnumber⟩
    rcases List.mem_filterMap.mp hmem with ⟨event, hevent, hticket⟩
    have hbooks : (t, ticket) ∈ s.shared.books.fellBack := by
      show (t, ticket) ∈ fellBack s.shared.sink
      rw [hsplit, fellBack_append]
      exact List.mem_append_left _ hmem
    rcases hmade t ticket (hledger.fellBack t ticket hbooks) hnumber with
      ⟨begun, hbegun, hrecord⟩
    refine ⟨event, ticket, begun, hevent, hbegun, hrecord, Or.inr ⟨t, ?_⟩⟩
    cases event <;> cases hticket
    rfl

theorem exists_fileRun [Fintype Thread] {s : State Thread C}
    (hsink : C.sinkPresent = true) (h : (asyncSink Thread C).Reachable s)
    (options : BufferedFileSinkOptions) (formatter : RecordFormatter)
    (state : formatter.State) (file : Option Bytes)
    {calls : List (ProcessCall formatter.State)}
    (hcalls : List.Forall₂ WrappedCall s.shared.sink calls) :
    exists process history added,
      (fileHistory options formatter file).run
          (ProcessCall.construct false (some state) :: calls) =
        some (process, history) ∧
      Adds formatter s.shared.sink { before := file.getD [] } history added ∧
      forall t before, (t, before) ∈ s.shared.history.flushed ->
        forall call, call ∈ before ->
          CallOnFile formatter history s.shared call ∨
            (call ∈ s.shared.history.dropped ∧
              (C.emitDropReports = true -> DropOnFile formatter history)) := by
  have hready : Ready (BufferedFileSink.construct options false (some state)
      file) { before := file.getD [] } :=
    ⟨rfl, rfl, Nat.zero_le _⟩
  rcases @wrappedCalls_run _ options _ file _ _ hready _ _ hcalls with
    ⟨s', history, added, hrun, _, hadded⟩
  refine ⟨FileProcess.running s', history, added, hrun, hadded, ?_⟩
  intro t before hflushed call hcall
  rcases (reachable_flushInvariant hsink h).complete t before hflushed with
    ⟨pre, post, hsplit, hconcluded⟩
  rw [hsplit] at hcalls
  rcases hconcluded call hcall with hhanded | ⟨hdropped, hannounced⟩
  · rcases exists_event_of_handed hsink h hsplit hhanded with
      ⟨event, ticket, begun, hevent, hbegun, hrecord, hkind⟩
    rcases onFile_of_flush hready hcalls hrun hevent (by
      rcases hkind with rfl | ⟨t', rfl⟩ <;> rfl) with
      ⟨record, hwrites, honFile⟩
    refine Or.inl ⟨begun, hbegun, ?_⟩
    rw [← hrecord]
    rcases hkind with rfl | ⟨t', rfl⟩
    · cases hwrites
      exact honFile
    · cases hwrites
      exact honFile
  · refine Or.inr ⟨hdropped, fun hemit => ?_⟩
    have hlisted : call ∈ announced pre := by
      rcases hannounced hemit with hlisted | hnone
      · exact hlisted
      · cases hnone
    rcases List.mem_flatMap.mp hlisted with ⟨event, hevent, hmine⟩
    have hexact := (reachable_dropBalance hsink h).reports event (by
      rw [hsplit]
      exact List.mem_append_left _ hevent)
    cases event with
    | report dropped message calls' =>
        rcases hexact with ⟨hcounts, rfl⟩
        rcases onFile_of_flush hready hcalls hrun hevent rfl with
          ⟨record, hwrites, honFile⟩
        cases hwrites with
        | report _ _ _ now source threadIdHash =>
            exact ⟨now, source, threadIdHash, dropped, hcounts.1, honFile⟩
    | deliver ticket | fallback t' ticket | flush agent => cases hmine

end

theorem exists_wrappedCalls (State : Type) (events : List (SinkEvent Thread)) :
    exists calls : List (ProcessCall State),
      List.Forall₂ WrappedCall events calls := by
  induction events with
  | nil => exact ⟨[], List.Forall₂.nil⟩
  | cons event rest ih =>
      rcases ih with ⟨calls, hcalls⟩
      cases event with
      | deliver ticket =>
          exact ⟨_, List.Forall₂.cons
            (WrappedCall.write (Writes.deliver ticket) 0 false false) hcalls⟩
      | fallback t ticket =>
          exact ⟨_, List.Forall₂.cons
            (WrappedCall.write (Writes.fallback t ticket) 0 false false) hcalls⟩
      | report dropped message stated =>
          exact ⟨_, List.Forall₂.cons (WrappedCall.write
            (Writes.report dropped message stated 0 {} 0) 0 false false) hcalls⟩
      | flush agent =>
          exact ⟨_, List.Forall₂.cons (WrappedCall.flush agent) hcalls⟩

end Async
end NginLog
