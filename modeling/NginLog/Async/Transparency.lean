import NginLog.Async.Delivery
import NginLog.Async.RoundTrip
import NginLog.Record.Dispatch

/-!
# The record that arrives

The queue holds records in inline texts.  A record that the logger dispatches
fits into them, except for the texts of the context: the logger copies up to
twice as much of them as an inline text holds.  What does not fit is cut and
counted.
-/

namespace NginLog
namespace Async

open Foundation Record

/-!
## Through the queue
-/

theorem attributes_deliveredView {record : LogRecordView}
    (hcount : record.attributes.length ≤ Config.MaxAttributes) :
    (deliveredView (toOwned record)).attributes =
      record.attributes.map inlineAttribute := by
  rw [deliveredView_toOwned_eq_ownedCopy, ownedCopy,
    List.take_of_length_le hcount]

theorem deliveredView_toOwned {record : LogRecordView}
    (hname : record.loggerName.length ≤ Config.MaxMessageBytes)
    (hmessage : record.message.length ≤ Config.MaxMessageBytes)
    (hcount : record.attributes.length ≤ Config.MaxAttributes) :
    deliveredView (toOwned record) = inlineRecord record := by
  rw [deliveredView_toOwned_eq_ownedCopy,
    ownedCopy_eq_inlineRecord hname hmessage hcount]

/-!
## Records that the logger dispatches
-/

theorem builderCopies_fitInline (requested : List (LogAttribute Bytes)) :
    forall a, a ∈ builderCopies requested -> FitsInline a := by
  apply Clip.forall_mem_clip
  intro room a hroom
  constructor
  · show (a.key.take (room - a.value.textLength)).length ≤ _
    rw [List.length_take]
    omega
  · cases hvalue : a.value with
    | text v =>
        show ((a.value.map (List.take room)).textLength) ≤ _
        rw [hvalue]
        show (v.take room).length ≤ _
        rw [List.length_take]
        omega
    | _ =>
        show ((a.value.map (List.take room)).textLength) ≤ _
        rw [hvalue]
        exact Nat.zero_le _

variable {site : CallSite} {context : List ContextAttribute}
  {callback : Callback}

theorem loggedRecord_fitsInline_or (site : CallSite)
    (context : List ContextAttribute) (callback : Callback) :
    forall a, a ∈ (loggedRecord site context callback).attributes ->
      FitsInline a ∨ a ∈ contextCopies context := by
  intro a ha
  rw [(loggedRecord_merged site context callback).1] at ha
  have hmem := (KeyedMerge.lastWith_some (KeyedMerge.mem_merge_iff.mp ha).2).1
  rcases List.mem_append.mp hmem with hcontext | hbuilder
  · exact Or.inr hcontext
  · exact Or.inl (builderCopies_fitInline _ a hbuilder)

theorem deliveredView_loggedRecord (context : List ContextAttribute)
    (callback : Callback)
    (hname : site.loggerName.length ≤ Config.MaxMessageBytes) :
    deliveredView (toOwned (loggedRecord site context callback)) =
      inlineRecord (loggedRecord site context callback) :=
  deliveredView_toOwned hname callback.build.message.fits
    (loggedRecord_attributes_length_le site context callback)

/-!
## Records that arrive
-/

/-- The wrapped sink is called with the record, by the worker or a producer. -/
def Arrives {Thread : Type} {C : AsyncSinkConfig} (s : State Thread C)
    (ticket : Ticket) : Prop :=
  ticket ∈ delivered s.shared.sink ∨
    exists t, (t, ticket) ∈ fellBack s.shared.sink

section

variable {Thread : Type} [DecidableEq Thread] {C : AsyncSinkConfig}
  {s : State Thread C} {ticket : Ticket} {call : Call Thread}

theorem arrives_record (hsink : C.sinkPresent = true)
    (h : (asyncSink Thread C).Reachable s) (harrives : Arrives s ticket)
    (hcall : s.shared.history.calls[ticket.call]? = some call) :
    ticket.record = toOwned call.record := by
  rcases harrives with hdelivered | ⟨t, hfellBack⟩
  · have hfifo := reachable_fifoDelivery hsink h
    have haccepted : ticket ∈ s.shared.history.accepted := by
      rw [← hfifo.order, List.append_assoc]
      exact List.mem_append_left _ hdelivered
    rcases hfifo.unaltered ticket haccepted with ⟨call', hcall', hrecord⟩
    rw [hcall, Option.some.injEq] at hcall'
    exact hcall' ▸ hrecord
  · rcases (reachable_fallbackDelivery hsink h).ownProducer t ticket hfellBack
      with ⟨record, hcall', hrecord⟩
    rw [hcall, Option.some.injEq] at hcall'
    exact hcall' ▸ hrecord

end

/-- What a `Log` call shows to a wrapped sink, next to what it dispatched. -/
structure ShowsDispatched (context : List ContextAttribute)
    (record view : LogRecordView) : Prop where
  inline : view = inlineRecord record
  same : view = record <-> forall a, a ∈ record.attributes -> FitsInline a
  fromContext : forall a, a ∈ record.attributes ->
    FitsInline a ∨ a ∈ contextCopies context

/--
Every record that arrives at the wrapped sink is the one that the logger
dispatched, with each attribute text cut to an inline text and the bytes that
were cut counted; it is the same record when no text is cut.
-/
theorem async_sink_shows_dispatched (Thread : Type) [DecidableEq Thread]
    (C : AsyncSinkConfig) (hsink : C.sinkPresent = true)
    (s : State Thread C) (hs : (asyncSink Thread C).Reachable s)
    (ticket : Ticket) (harrives : Arrives s ticket) (call : Call Thread)
    (hcall : s.shared.history.calls[ticket.call]? = some call)
    (site : CallSite) (context : List ContextAttribute) (callback : Callback)
    (hrecord : call.record = loggedRecord site context callback)
    (hname : site.loggerName.length ≤ Config.MaxMessageBytes) :
    ShowsDispatched context call.record (deliveredView ticket.record) := by
  have hview : deliveredView ticket.record = inlineRecord call.record := by
    rw [arrives_record hsink hs harrives hcall, hrecord]
    exact deliveredView_loggedRecord context callback hname
  refine ⟨hview, ?_, ?_⟩
  · rw [hview]
    exact inlineRecord_eq_self_iff call.record
  · rw [hrecord]
    exact loggedRecord_fitsInline_or site context callback

def deliveredWrite (record : LogRecordView) : List (Action Unit) :=
  Action.write () record ::
    (List.replicate 3 (Action.client () Choice.plain) ++
      List.replicate 5 (Action.worker Choice.plain))

theorem exists_arrives (record : LogRecordView) :
    exists s, (asyncSink Unit
        (smallSink AsyncOverflowPolicy.dropNewest)).Reachable s ∧
      s.shared.history.calls[0]? = some { thread := (), record := record } ∧
      Arrives s { call := 0, record := toOwned record } := by
  have hrun : (asyncSink Unit (smallSink AsyncOverflowPolicy.dropNewest)).run
      (deliveredWrite record) = some _ := rfl
  exact ⟨_, Machine.reachable_of_run hrun, rfl,
    Or.inl List.mem_cons_self⟩

def contextRecord (text : Bytes) : LogRecordView :=
  loggedRecord {} [{ key := ascii "k", value := AttributeValue.text text }]
    { calls := [] }

theorem contextRecord_attributes {text : Bytes} (h : text.length < 512) :
    (contextRecord text).attributes =
      [{ key := ascii "k", value := AttributeValue.text text }] := by
  have hcopy : LogAttribute.cutKeyFirst 512
      { key := ascii "k", value := AttributeValue.text text } = _ :=
    LogAttribute.cutKeyFirst_eq_self 512 _ (by
      show 1 + text.length ≤ 512
      omega)
  rw [contextRecord, (loggedRecord_merged _ _ _).1]
  show (KeyedMerge.merge LogAttribute.key Config.MaxAttributes
    [LogAttribute.cutKeyFirst 512 _]).1 = _
  rw [ContextAttribute.toLogAttribute, hcopy]
  rfl

theorem short_text_arrives :
    exists s, (asyncSink Unit
        (smallSink AsyncOverflowPolicy.dropNewest)).Reachable s ∧
      ShowsDispatched
        [{ key := ascii "k", value := AttributeValue.text (ascii "v") }]
        (contextRecord (ascii "v"))
        (deliveredView (toOwned (contextRecord (ascii "v")))) := by
  rcases exists_arrives (contextRecord (ascii "v")) with
    ⟨s, hs, hcall, harrives⟩
  exact ⟨s, hs, async_sink_shows_dispatched Unit _ rfl s hs _ harrives _ hcall
    {} _ { calls := [] } rfl (Nat.zero_le _)⟩

def longText : Bytes := List.replicate 300 97

theorem longText_length : longText.length = 300 :=
  List.length_replicate

/-- A context text of 300 bytes reaches other sinks whole. -/
theorem long_text_is_cut :
    exists s ticket, (asyncSink Unit
        (smallSink AsyncOverflowPolicy.dropNewest)).Reachable s ∧
      Arrives s ticket ∧
      s.shared.history.calls[ticket.call]? =
        some { thread := (), record := contextRecord longText } ∧
      deliveredView ticket.record ≠ contextRecord longText := by
  rcases exists_arrives (contextRecord longText) with
    ⟨s, hs, hcall, harrives⟩
  refine ⟨s, _, hs, harrives, hcall, fun hsame => ?_⟩
  have hinline : deliveredView (toOwned (contextRecord longText)) =
      inlineRecord (contextRecord longText) :=
    deliveredView_loggedRecord _ _ (Nat.zero_le _)
  have hfits := (inlineRecord_eq_self_iff _).mp (hinline.symm.trans hsame)
  rw [contextRecord_attributes (by rw [longText_length]; decide)] at hfits
  have hlong : longText.length ≤ Config.MaxAttrTextBytes :=
    (hfits _ List.mem_cons_self).2
  rw [longText_length] at hlong
  exact absurd hlong (by decide)

end Async
end NginLog
