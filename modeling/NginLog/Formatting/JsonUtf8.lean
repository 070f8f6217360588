import NginLog.Async.Transparency
import NginLog.Formatting.BareText
import NginLog.Foundation.Utf8
import NginLog.Record.CutTexts

/-!
# UTF-8 in a JSON line

The JSON formatter passes bytes above ASCII through, so its line is valid UTF-8
exactly when the texts of the record are.  Texts are cut by their number of
bytes on the way to a sink, and a cut may fall inside a character.
-/

namespace NginLog
namespace Formatting

open Foundation Record Async

/-!
## The texts of a record
-/

def ValidText : AttributeValue Bytes -> Prop
  | AttributeValue.text v => Utf8.Valid v
  | _ => True

def ValidTexts (a : LogAttribute Bytes) : Prop :=
  Utf8.Valid a.key ∧ ValidText a.value

structure ValidRecord (record : LogRecordView) : Prop where
  loggerName : Utf8.Valid record.loggerName
  message : Utf8.Valid record.message
  fileName : Utf8.Valid record.source.fileName
  attributes : forall a, a ∈ record.attributes -> ValidTexts a

/-- The library writes doubles in ASCII, also what it has written on a throw. -/
def AsciiDoubles (runtime : Runtime) : Prop :=
  forall v text, runtime.formatDouble v = Except.ok text ∨
    runtime.formatDouble v = Except.error text -> Utf8.Ascii text

/-!
## The line
-/

theorem ascii_of_bare {t : Bytes} (h : Bare t) : Utf8.Ascii t := by
  unfold Utf8.Ascii
  rw [List.all_eq_true]
  intro b hb
  exact decide_eq_true (isBare_range (bare_iff.mp h b hb)).2

theorem valid_of_bare {t : Bytes} (h : Bare t) : Utf8.Valid t :=
  (ascii_of_bare h).valid

theorem ascii_jsonEscaped {ch : UInt8} (hch : ch < 128) :
    Utf8.Ascii (jsonEscaped ch) := by
  unfold jsonEscaped
  split_ifs
  · decide
  · decide
  · decide
  · decide
  · decide
  · decide
  · decide
  · have hhex := ascii_of_bare (bare_appendHexByte ch)
    unfold Utf8.Ascii at hhex ⊢
    rw [List.all_append, hhex]
    decide
  · exact Utf8.ascii_cons.mpr ⟨hch, rfl⟩

theorem jsonEscaped_ne_nil (ch : UInt8) : jsonEscaped ch ≠ [] := by
  unfold jsonEscaped
  split_ifs <;> exact List.cons_ne_nil _ _

theorem jsonEscaped_other {ch : UInt8} (hch : ¬ ch < 128) :
    jsonEscaped ch = [ch] := by
  have hne : forall b : UInt8, b < 128 -> ch ≠ b :=
    fun b hb heq => hch (heq ▸ hb)
  unfold jsonEscaped
  rw [if_neg (hne 92 (by decide)), if_neg (hne 34 (by decide)),
    if_neg (hne 8 (by decide)), if_neg (hne 12 (by decide)),
    if_neg (hne 10 (by decide)), if_neg (hne 13 (by decide)),
    if_neg (hne 9 (by decide)),
    if_neg fun hcontrol => hch (UInt8.lt_trans hcontrol (by decide))]

theorem valid_appendJsonEscapedText_iff (text : Bytes) :
    Utf8.Valid (appendJsonEscapedText text) <-> Utf8.Valid text :=
  Utf8.valid_flatMap_iff
    (fun ch hch => ⟨jsonEscaped_ne_nil ch, ascii_jsonEscaped hch⟩)
    (fun _ hch => jsonEscaped_other hch) text

theorem valid_quoted_iff (t : Bytes) :
    Utf8.Valid (Json.quoted t) <-> Utf8.Valid t := by
  unfold Json.quoted
  rw [Utf8.valid_cons_ascii (by decide), Utf8.valid_append_ascii (by decide)]
  exact and_iff_left Utf8.valid_nil

theorem valid_member_iff (key value : Bytes) :
    Utf8.Valid (Json.member key value) <->
      Utf8.Valid key ∧ Utf8.Valid value := by
  unfold Json.member
  rw [Utf8.valid_append_ascii (by decide), valid_quoted_iff]

theorem valid_member_ascii_iff {name : String} {value : Bytes}
    (hname : Utf8.Ascii (ascii name)) :
    Utf8.Valid (Json.member (ascii name) value) <-> Utf8.Valid value := by
  rw [valid_member_iff, and_iff_right hname.valid]

theorem ascii_appendDouble {runtime : Runtime} (hdoubles : AsciiDoubles runtime)
    (value : Double) :
    Utf8.Ascii (appendDouble runtime value) := by
  unfold appendDouble
  split
  · rename_i text heq
    exact hdoubles value text (Or.inl heq)
  · rename_i appended heq
    have happended := hdoubles value appended (Or.inr heq)
    unfold Utf8.Ascii at happended ⊢
    rw [List.all_append, happended]
    decide

theorem valid_appendJsonAttributeValue_iff {runtime : Runtime}
    (hdoubles : AsciiDoubles runtime) (value : AttributeValue Bytes) :
    Utf8.Valid (appendJsonAttributeValue runtime value) <->
      ValidText value := by
  cases value with
  | int64 v => exact iff_of_true (valid_of_bare (bare_appendSigned v)) trivial
  | uint64 v =>
      exact iff_of_true (valid_of_bare (bare_appendUnsigned v)) trivial
  | double v =>
      exact iff_of_true (ascii_appendDouble hdoubles v).valid trivial
  | bool v => exact iff_of_true (valid_of_bare (bare_bool v)) trivial
  | text v =>
      exact (valid_quoted_iff _).trans (valid_appendJsonEscapedText_iff v)

theorem valid_appendJsonAttribute_iff {runtime : Runtime}
    (hdoubles : AsciiDoubles runtime) (a : LogAttribute Bytes) :
    Utf8.Valid (appendJsonAttribute runtime a) <-> ValidTexts a := by
  rw [appendJsonAttribute_eq, valid_member_iff,
    valid_appendJsonEscapedText_iff, valid_appendJsonAttributeValue_iff hdoubles]
  exact Iff.rfl

theorem valid_appendJsonAttributes_iff {runtime : Runtime}
    (hdoubles : AsciiDoubles runtime)
    (attributes : List (LogAttribute Bytes)) :
    Utf8.Valid (appendJsonAttributes runtime attributes) <->
      forall a, a ∈ attributes -> ValidTexts a := by
  cases attributes with
  | nil => exact iff_of_true Utf8.valid_nil fun _ h => absurd h List.not_mem_nil
  | cons first rest =>
      have hrest := Utf8.valid_append_flatMap (show (44 : UInt8) < 128 by decide)
        (appendJsonAttribute runtime) (appendJsonAttribute runtime first) rest
      refine hrest.trans ?_
      simp only [valid_appendJsonAttribute_iff hdoubles, List.forall_mem_cons]

theorem valid_memberTail_iff {runtime : Runtime}
    (hdoubles : AsciiDoubles runtime) (record : LogRecordView) :
    (forall t, t ∈ memberTail runtime record -> Utf8.Valid t) <->
      ValidRecord record := by
  have hunsigned : forall value, Utf8.Valid (appendUnsigned value) :=
    fun value => valid_of_bare (bare_appendUnsigned value)
  have hsource : Utf8.Valid (Json.quoted
      (appendJsonEscapedText record.source.fileName ++
        58 :: appendUnsigned record.source.line.toUInt64)) <->
      Utf8.Valid record.source.fileName := by
    rw [valid_quoted_iff, Utf8.valid_append_ascii (by decide),
      valid_appendJsonEscapedText_iff]
    exact and_iff_left (hunsigned _)
  have hattributes : Utf8.Valid
      (123 :: (appendJsonAttributes runtime record.attributes ++ [125])) <->
      forall a, a ∈ record.attributes -> ValidTexts a := by
    rw [Utf8.valid_cons_ascii (by decide), Utf8.valid_append_ascii (by decide),
      valid_appendJsonAttributes_iff hdoubles]
    exact and_iff_left Utf8.valid_nil
  have hlevel : Utf8.Valid record.level.name :=
    valid_of_bare (bare_levelName _)
  simp (disch := decide) only [memberTail, List.forall_mem_cons,
    valid_member_ascii_iff, hsource, hattributes, valid_quoted_iff,
    valid_appendJsonEscapedText_iff, hlevel, hunsigned, true_and]
  constructor
  · rintro ⟨hname, hmessage, hfile, hattribute, _⟩
    exact ⟨hname, hmessage, hfile, hattribute⟩
  · rintro ⟨hname, hmessage, hfile, hattribute⟩
    exact ⟨hname, hmessage, hfile, hattribute, fun _ h => by cases h⟩

theorem valid_formatJson_iff {runtime : Runtime}
    (hdoubles : AsciiDoubles runtime) (options : JsonRecordFormatterOptions)
    (record : LogRecordView) :
    Utf8.Valid (formatJson runtime options record) <-> ValidRecord record := by
  have htimestamp := valid_of_bare (bare_appendTimestamp runtime
    record.timestampEpochNanoseconds options.timestampStyle bareParts_nil)
  have hmembers : Utf8.Valid (Json.member (ascii "timestamp")
      (appendTimestamp runtime record.timestampEpochNanoseconds
        options.timestampStyle) ++
      (memberTail runtime record).flatMap (44 :: ·)) <->
        ValidRecord record := by
    rw [← valid_memberTail_iff hdoubles]
    refine (Utf8.valid_append_flatMap (by decide) (fun t => t) _ _).trans ?_
    rw [valid_member_ascii_iff (by decide)]
    exact and_iff_right htimestamp
  rw [formatJson_eq, Utf8.valid_append_ascii (by decide),
    Utf8.valid_cons_ascii (by decide), Utf8.valid_append_ascii (by decide),
    hmembers]
  simp only [Utf8.valid_nil, and_true]

/-!
## What a sink receives
-/

/-- A dispatched record reaches a sink directly or through the queue. -/
inductive Received (record : LogRecordView) : LogRecordView -> Prop where
  | direct : Received record record
  | queued : Received record (deliveredView (toOwned record))

theorem received_of_arrives {Thread : Type} [DecidableEq Thread]
    {C : AsyncSinkConfig} {s : Async.State Thread C} {ticket : Ticket}
    {call : Async.Call Thread} (hsink : C.sinkPresent = true)
    (h : (asyncSink Thread C).Reachable s) (harrives : Arrives s ticket)
    (hcall : s.shared.history.calls[ticket.call]? = some call) :
    Received call.record (deliveredView ticket.record) := by
  rw [arrives_record hsink h harrives hcall]
  exact Received.queued

structure CutRecord (site : CallSite) (context : List ContextAttribute)
    (callback : Callback) (received : LogRecordView) : Prop where
  loggerName : received.loggerName <+: site.loggerName
  message : received.message <+: callback.message
  source : received.source = site.source
  attributes : List.Forall₂ LogAttribute.CutFrom received.attributes
    (slotSources context callback.requested)

theorem cutFrom_inlineAttribute {a given : LogAttribute Bytes}
    (h : LogAttribute.CutFrom a given) :
    LogAttribute.CutFrom (inlineAttribute a) given := by
  rcases h with ⟨keyRoom, valueRoom, rfl⟩
  refine ⟨min Config.MaxAttrTextBytes keyRoom,
    min Config.MaxAttrTextBytes valueRoom, ?_⟩
  unfold inlineAttribute
  rw [List.take_take]
  congr 1
  cases given.value with
  | text v => exact congrArg AttributeValue.text List.take_take
  | _ => rfl

theorem cutRecord_of_received {site : CallSite}
    {context : List ContextAttribute} {callback : Callback}
    {received : LogRecordView}
    (h : Received (loggedRecord site context callback) received) :
    CutRecord site context callback received := by
  have hmessage : (loggedRecord site context callback).message <+:
      callback.message := by
    show callback.build.message.bytes <+: _
    rw [callback.build_message]
    exact List.take_prefix ..
  have hattributes := forall₂_slotSources site context callback
  cases h with
  | direct => exact ⟨List.prefix_rfl, hmessage, rfl, hattributes⟩
  | queued =>
      refine ⟨List.take_prefix .., (List.take_prefix ..).trans hmessage, rfl, ?_⟩
      rw [attributes_deliveredView
          (loggedRecord_attributes_length_le site context callback),
        List.forall₂_map_left_iff]
      exact hattributes.imp fun _ _ => cutFrom_inlineAttribute

/-!
## Cuts between characters
-/

def ValueAtBoundary : AttributeValue Bytes -> AttributeValue Bytes -> Prop
  | AttributeValue.text cut, AttributeValue.text given =>
      Utf8.AtBoundary cut given
  | _, _ => True

def AttributeAtBoundary (a given : LogAttribute Bytes) : Prop :=
  Utf8.AtBoundary a.key given.key ∧ ValueAtBoundary a.value given.value

/-- No text that is received ends inside a character of the given one. -/
structure CutsBetweenCharacters (site : CallSite)
    (context : List ContextAttribute) (callback : Callback)
    (received : LogRecordView) : Prop where
  loggerName : Utf8.AtBoundary received.loggerName site.loggerName
  message : Utf8.AtBoundary received.message callback.message
  attributes : List.Forall₂ AttributeAtBoundary received.attributes
    (slotSources context callback.requested)

/-!
The texts that a call gives.
-/

def ValidArg : ArgValue -> Prop
  | ArgValue.attributeValue value => ValidText value
  | ArgValue.text value => Utf8.Valid value
  | ArgValue.cString value => forall text, value = some text -> Utf8.Valid text
  | ArgValue.errorCode description =>
      forall text, description = some text -> Utf8.Valid text
  | _ => True

def ValidBuilderCall : BuilderCall -> Prop
  | BuilderCall.message text => Utf8.Valid text
  | BuilderCall.attr key value _ => Utf8.Valid key ∧ ValidArg value

/-- All texts that a call of `Log` gives, and those of the context. -/
structure ValidCall (site : CallSite) (context : List ContextAttribute)
    (callback : Callback) : Prop where
  loggerName : Utf8.Valid site.loggerName
  context : forall a, a ∈ context -> ValidTexts a.toLogAttribute
  calls : forall call, call ∈ callback.calls -> ValidBuilderCall call

theorem validText_normalize {value : ArgValue} (h : ValidArg value) :
    ValidText value.normalize := by
  cases value with
  | attributeValue value => exact h
  | text value => exact h
  | cString value =>
      cases value with
      | none => exact Utf8.valid_nil
      | some text => exact h text rfl
  | errorCode description =>
      cases description with
      | none =>
          have hascii : Utf8.Ascii (ascii "[error-code-format-error]") := by
            decide
          exact hascii.valid
      | some text => exact h text rfl
  | pointer address =>
      have hbare : Bare (ascii "0x" ++ hexadecimal address.toNat) :=
        bare_append.mpr ⟨by decide, bare_hexadecimal _⟩
      exact valid_of_bare hbare
  | bool value => trivial
  | signed value => trivial
  | unsigned value => trivial
  | floating value => trivial
  | duration nanoseconds => trivial

namespace ValidCall

variable {site : CallSite} {context : List ContextAttribute}
  {callback : Callback}

theorem message (h : ValidCall site context callback) :
    Utf8.Valid callback.message := by
  unfold Callback.message
  split
  · have hascii : Utf8.Ascii (ascii "[log-builder-threw]") := by decide
    exact hascii.valid
  · cases hlast : (callback.calls.filterMap BuilderCall.message?).getLast? with
    | none => exact Utf8.valid_nil
    | some text =>
        have hmem := List.mem_of_getLast? hlast
        rcases List.mem_filterMap.mp hmem with ⟨call, hcall, htext⟩
        cases call with
        | message text' =>
            cases htext
            exact h.calls _ hcall
        | attr key value kind => cases htext

theorem requested (h : ValidCall site context callback) :
    forall a, a ∈ callback.requested -> ValidTexts a := by
  intro a ha
  rcases List.mem_filterMap.mp ha with ⟨call, hcall, hattribute⟩
  cases call with
  | message text => cases hattribute
  | attr key value kind =>
      cases hattribute
      rcases h.calls _ hcall with ⟨hkey, hvalue⟩
      exact ⟨hkey, validText_normalize hvalue⟩

theorem slotSources (h : ValidCall site context callback) :
    forall a, a ∈ slotSources context callback.requested -> ValidTexts a := by
  intro a ha
  rcases List.mem_map.mp ha with ⟨pair, hpair, rfl⟩
  have hlast := (KeyedMerge.mem_merge_iff.mp hpair).2
  have hgiven := (List.of_mem_zip (KeyedMerge.lastWith_some hlast).1).2
  rcases List.mem_append.mp hgiven with hcontext | hrequested
  · rcases List.mem_map.mp hcontext with ⟨c, hc, heq⟩
    exact heq ▸ h.context c hc
  · exact h.requested _ (List.mem_of_mem_take hrequested)

end ValidCall

theorem validTexts_iff {a given : LogAttribute Bytes} (hgiven : ValidTexts given)
    (hcut : LogAttribute.CutFrom a given) :
    ValidTexts a <-> AttributeAtBoundary a given := by
  rcases hcut with ⟨keyRoom, valueRoom, rfl⟩
  rcases given with ⟨key, value, kind⟩
  refine and_congr
    (Utf8.valid_iff_atBoundary hgiven.1 (List.take_prefix ..)) ?_
  cases value with
  | text v => exact Utf8.valid_iff_atBoundary hgiven.2 (List.take_prefix ..)
  | int64 v => exact Iff.rfl
  | uint64 v => exact Iff.rfl
  | double v => exact Iff.rfl
  | bool v => exact Iff.rfl

theorem forall_validTexts_iff {attributes given : List (LogAttribute Bytes)}
    (hgiven : forall g, g ∈ given -> ValidTexts g)
    (hcut : List.Forall₂ LogAttribute.CutFrom attributes given) :
    (forall a, a ∈ attributes -> ValidTexts a) <->
      List.Forall₂ AttributeAtBoundary attributes given := by
  induction hcut with
  | nil => simp
  | cons hfirst _ ih =>
      rw [List.forall_mem_cons] at hgiven ⊢
      rw [List.forall₂_cons, ← ih hgiven.2, validTexts_iff hgiven.1 hfirst]

/-- The line is valid UTF-8 unless a character was cut on the way. -/
theorem json_line_valid_iff {runtime : Runtime}
    (hdoubles : AsciiDoubles runtime) (options : JsonRecordFormatterOptions)
    {site : CallSite} {context : List ContextAttribute} {callback : Callback}
    (hvalid : ValidCall site context callback) {received : LogRecordView}
    (hreceived : Received (loggedRecord site context callback) received) :
    Utf8.Valid (formatJson runtime options received) <->
      Utf8.Valid site.source.fileName ∧
        CutsBetweenCharacters site context callback received := by
  have hcut := cutRecord_of_received hreceived
  have hname := Utf8.valid_iff_atBoundary hvalid.loggerName hcut.loggerName
  have hmessage := Utf8.valid_iff_atBoundary hvalid.message hcut.message
  have hattributes := forall_validTexts_iff hvalid.slotSources hcut.attributes
  rw [valid_formatJson_iff hdoubles]
  constructor
  · rintro ⟨hlogger, htext, hfile, hvalues⟩
    exact ⟨hcut.source ▸ hfile, hname.mp hlogger, hmessage.mp htext,
      hattributes.mp hvalues⟩
  · rintro ⟨hfile, hlogger, htext, hvalues⟩
    exact ⟨hname.mpr hlogger, hmessage.mpr htext, hcut.source ▸ hfile,
      hattributes.mpr hvalues⟩

/-!
## A character on the limit
-/

theorem smallRuntime_asciiDoubles : AsciiDoubles smallRuntime := by
  intro v text h
  rcases h with h | h
  · cases h
    split <;> decide
  · cases h

def accented : Bytes := [0xC3, 0xA9]

theorem valid_accented : Utf8.Valid accented :=
  Utf8.valid_char (Char.ofNat 0xE9)

def accentedSite : CallSite where
  loggerName := accented

def accentedContext : List ContextAttribute :=
  [{ key := accented, value := AttributeValue.text accented }]

def accentedCall (letters : Nat) : Callback where
  calls := [BuilderCall.message (List.replicate letters 97 ++ accented)]

theorem accentedCall_valid (letters : Nat) :
    ValidCall accentedSite accentedContext (accentedCall letters) where
  loggerName := valid_accented
  context := by
    intro a ha
    rw [List.mem_singleton.mp ha]
    exact ⟨valid_accented, valid_accented⟩
  calls := by
    intro call hcall
    rw [List.mem_singleton.mp hcall]
    have hletters : Utf8.Ascii (List.replicate letters 97) := by
      simp [Utf8.Ascii]
    exact hletters.valid.append valid_accented

theorem short_message_stays_valid :
    Utf8.Valid (formatJson smallRuntime {}
      (deliveredView (toOwned
        (loggedRecord accentedSite accentedContext (accentedCall 3))))) := by
  refine (json_line_valid_iff smallRuntime_asciiDoubles {}
    (accentedCall_valid 3) Received.queued).mpr ⟨Utf8.valid_nil, ?_⟩
  exact ⟨Utf8.atBoundary_self accented, Utf8.atBoundary_self _,
    List.Forall₂.cons
      ⟨Utf8.atBoundary_self accented, Utf8.atBoundary_self accented⟩
      List.Forall₂.nil⟩

/-- The limit of the message falls between the two bytes of the last letter. -/
theorem long_message_is_cut :
    AsciiDoubles smallRuntime ∧ Utf8.Valid accentedSite.source.fileName ∧
      ValidCall accentedSite accentedContext (accentedCall 511) ∧
      ¬ Utf8.Valid (formatJson smallRuntime {}
        (loggedRecord accentedSite accentedContext (accentedCall 511))) := by
  have hvalid := accentedCall_valid 511
  refine ⟨smallRuntime_asciiDoubles, Utf8.valid_nil, hvalid, fun h => ?_⟩
  have hcut := ((valid_formatJson_iff smallRuntime_asciiDoubles {} _).mp
    h).message
  rw [show (loggedRecord accentedSite accentedContext
    (accentedCall 511)).message = _ from
      Callback.build_message (accentedCall 511)] at hcut
  have hnext : (accentedCall 511).message[Config.MaxMessageBytes]? =
      some 0xA9 := by
    have hlength : (List.replicate 511 (97 : UInt8)).length ≤
        Config.MaxMessageBytes := by
      rw [List.length_replicate]
      decide
    refine (List.getElem?_append_right hlength).trans ?_
    rw [List.length_replicate]
    rfl
  have hfirst := (Utf8.valid_take_iff hvalid.message
    Config.MaxMessageBytes).mp hcut 0xA9 hnext
  exact absurd hfirst (by decide)

end Formatting
end NginLog
