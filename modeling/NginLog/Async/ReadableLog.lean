import NginLog.Async.DurableFlush
import NginLog.Async.Transparency
import NginLog.Sinks.LogReading

/-!
# A flushed record is read back

Logger threads, the asynchronous sink, the file sink and the JSON formatter
together.  Whenever the process is killed, what a reader finds in the file are
the records that were readable before and then records that the worker and the
producers have handed over, in order and without a gap.  Those that a `Flush`
found written are among them.
-/

namespace NginLog
namespace Async

open Foundation Record Formatting Sinks

variable {Thread : Type} {C : AsyncSinkConfig}

theorem doubleFree_deliveredView {record : LogRecordView}
    (h : DoubleFree record) :
    DoubleFree (deliveredView (toOwned record)) := by
  rw [deliveredView_toOwned_eq_ownedCopy]
  intro a v ha hvalue
  rcases List.mem_map.mp ha with ⟨original, horiginal, rfl⟩
  have hdouble := h original v (List.mem_of_mem_take horiginal)
  cases hkind : original.value with
  | double w =>
      simp only [inlineAttribute, hkind] at hvalue
      cases hvalue
      exact hdouble hkind
  | _ =>
      simp only [inlineAttribute, hkind] at hvalue
      cases hvalue

section

variable [DecidableEq Thread]

theorem doubleFree_writes {s : State Thread C} (hsink : C.sinkPresent = true)
    (h : (asyncSink Thread C).Reachable s)
    (hcalls : forall begun, begun ∈ s.shared.history.calls ->
      DoubleFree begun.record)
    {event : SinkEvent Thread} (hevent : event ∈ s.shared.sink)
    {record : LogRecordView} (hwrites : Writes event record) :
    DoubleFree record := by
  cases hwrites with
  | deliver ticket =>
      have hfifo := reachable_fifoDelivery hsink h
      have haccepted : ticket ∈ s.shared.history.accepted := by
        rw [← hfifo.order, List.append_assoc]
        exact List.mem_append_left _ (List.mem_filterMap.mpr ⟨_, hevent, rfl⟩)
      rcases hfifo.unaltered ticket haccepted with ⟨begun, hbegun, hrecord⟩
      rw [hrecord]
      exact doubleFree_deliveredView
        (hcalls begun (List.mem_of_getElem? hbegun))
  | fallback t ticket =>
      rcases (reachable_fallbackDelivery hsink h).ownProducer t ticket
        (List.mem_filterMap.mpr ⟨_, hevent, rfl⟩) with ⟨given, hbegun, hrecord⟩
      rw [hrecord]
      exact doubleFree_deliveredView
        (hcalls _ (List.mem_of_getElem? hbegun))
  | report dropped message calls now source threadIdHash =>
      intro a v ha
      cases ha

theorem Adds.jsonTexts {runtime : Runtime}
    {jsonOptions : JsonRecordFormatterOptions} {s : State Thread C}
    (hsink : C.sinkPresent = true) (h : (asyncSink Thread C).Reachable s)
    (hcalls : forall begun, begun ∈ s.shared.history.calls ->
      DoubleFree begun.record)
    {before history : FileHistory} {added : List (LogRecordView × Bytes)}
    (hadds : Adds (jsonRecordFormatter runtime jsonOptions) s.shared.sink before
      history added) :
    forall p, p ∈ added ->
      DoubleFree p.1 ∧ p.2 = formatJson runtime jsonOptions p.1 := by
  intro p hp
  rcases exists_partner hadds.entries.flip hp with ⟨event, hevent, hentry⟩
  rcases hentry.formatted with ⟨state, output, htext⟩
  exact ⟨doubleFree_writes hsink h hcalls (List.mem_filter.mp hevent).1
    hentry.writes, htext.symm⟩

end

/-- The record of the call is among those that were read. -/
def CallRead (read : List LogRecordView) (s : Shared Thread C) (call : Nat) :
    Prop :=
  exists begun, s.history.calls[call]? = some begun ∧
    deliveredView (toOwned begun.record) ∈ read

/-- A report that states the drop, with others perhaps, is among them. -/
def DropRead (read : List LogRecordView) : Prop :=
  exists now source threadIdHash dropped, dropped ≠ 0 ∧
    dropReport now source threadIdHash (dropReportMessage dropped) ∈ read

theorem mem_of_onFile {formatter : RecordFormatter} {history : FileHistory}
    {read : List LogRecordView} {record : LogRecordView}
    (hread : history.records.take history.flushed <+: read)
    (h : OnFile formatter history record) :
    record ∈ read := by
  rcases h with ⟨text, _, hmem⟩
  refine hread.subset ?_
  rw [FileHistory.records, ← List.map_take]
  exact List.mem_map_of_mem hmem

end Async
end NginLog
