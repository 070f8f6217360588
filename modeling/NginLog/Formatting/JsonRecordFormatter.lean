import NginLog.Foundation.Json
import NginLog.Formatting.Utilities

/-!
# The JSON formatter

`JsonRecordFormatter` writes a record as one JSON object on a line.  Every part
of it is JSON for every record, except the timestamp: the ISO styles write text
without quotes, which is not a JSON value.
-/

namespace NginLog
namespace Formatting

open Foundation Record

structure JsonRecordFormatterOptions where
  timestampStyle : TimestampStyle := TimestampStyle.epochNanoseconds

def appendJsonAttribute (runtime : Runtime) (a : LogAttribute Bytes) : Bytes :=
  ascii "\"" ++ appendJsonEscapedText a.key ++ ascii "\":" ++
    appendJsonAttributeValue runtime a.value

def appendJsonAttributes (runtime : Runtime) :
    List (LogAttribute Bytes) -> Bytes
  | [] => []
  | first :: rest =>
      appendJsonAttribute runtime first ++
        rest.flatMap fun a => ascii "," ++ appendJsonAttribute runtime a

def formatJson (runtime : Runtime) (options : JsonRecordFormatterOptions)
    (record : LogRecordView) : Bytes :=
  ascii "\x7b\"timestamp\":" ++
  appendTimestamp runtime record.timestampEpochNanoseconds
    options.timestampStyle ++
  ascii ",\"level\":\"" ++
  appendJsonEscapedText record.level.name ++
  ascii "\",\"logger\":\"" ++
  appendJsonEscapedText record.loggerName ++
  ascii "\",\"message\":\"" ++
  appendJsonEscapedText record.message ++
  ascii "\",\"source\":\"" ++
  appendJsonEscapedText record.source.fileName ++
  ascii ":" ++
  appendUnsigned record.source.line.toUInt64 ++
  ascii "\",\"thread_id\":" ++
  appendUnsigned record.threadIdHash ++
  ascii ",\"attributes\":\x7b" ++
  appendJsonAttributes runtime record.attributes ++
  ascii "\x7d,\"truncated_attributes\":" ++
  appendUnsigned record.truncatedAttributeCount.toUInt64 ++
  ascii ",\"truncated_bytes\":" ++
  appendUnsigned record.truncatedBytes.toUInt64 ++
  ascii "\x7d\n"

/-- One JSON object and a newline. -/
def IsJsonLine (output : Bytes) : Prop :=
  exists object, Json.Object object ∧ output = object ++ [10]

/-!
## Escaped text
-/

theorem isHexDigit_hexDigitByte {d : Nat} (h : d < 16) :
    Json.IsHexDigit (hexDigitByte d) := by
  unfold hexDigitByte
  split
  · rename_i hdecimal
    exact Or.inl (Json.isDigit_digitByte hdecimal)
  · refine Or.inr (Or.inr ?_)
    rw [UInt8.le_iff_toNat_le, UInt8.le_iff_toNat_le, UInt8.toNat_ofNat',
      Nat.mod_eq_of_lt (by omega)]
    exact ⟨by simp; omega, by simp; omega⟩

theorem chars_jsonEscaped (ch : UInt8) : Json.Chars (jsonEscaped ch) := by
  have hescape : forall b : UInt8,
      b ∈ ([34, 92, 47, 98, 102, 110, 114, 116] : List UInt8) ->
        Json.Chars [92, b] := fun b hb => Json.Chars.escape hb Json.Chars.nil
  unfold jsonEscaped
  split_ifs with hslash hquote _ _ _ _ _ hcontrol
  · exact hescape 92 (by decide)
  · exact hescape 34 (by decide)
  · exact hescape 98 (by decide)
  · exact hescape 102 (by decide)
  · exact hescape 110 (by decide)
  · exact hescape 114 (by decide)
  · exact hescape 116 (by decide)
  · have hbyte := ch.toNat_lt
    have hzero : Json.IsHexDigit 48 := Or.inl (by decide)
    exact Json.Chars.unicode hzero hzero
      (isHexDigit_hexDigitByte (by omega))
      (isHexDigit_hexDigitByte (by omega)) Json.Chars.nil
  · exact Json.Chars.plain (UInt8.not_lt.mp hcontrol) hquote hslash
      Json.Chars.nil

theorem chars_appendJsonEscapedText (text : Bytes) :
    Json.Chars (appendJsonEscapedText text) := by
  induction text with
  | nil => exact Json.Chars.nil
  | cons ch rest ih => exact (chars_jsonEscaped ch).append ih

theorem value_appendUnsigned (value : UInt64) :
    Json.Value (appendUnsigned value) :=
  Json.Value.number (Json.number_decimal _)

theorem value_escapedText (text : Bytes) :
    Json.Value (Json.quoted (appendJsonEscapedText text)) :=
  Json.Value.string (chars_appendJsonEscapedText text)

/-!
## Attributes
-/

/-- The library writes finite doubles as JSON numbers. -/
def FormatsDoubles (runtime : Runtime) : Prop :=
  forall v : Double, v.Finite ->
    exists text, runtime.formatDouble v = Except.ok text ∧ Json.Number text

def FiniteDoubles (record : LogRecordView) : Prop :=
  forall a v, a ∈ record.attributes -> a.value = AttributeValue.double v ->
    v.Finite

theorem value_appendJsonAttributeValue {runtime : Runtime}
    (hruntime : FormatsDoubles runtime) {value : AttributeValue Bytes}
    (hfinite : forall v, value = AttributeValue.double v -> v.Finite) :
    Json.Value (appendJsonAttributeValue runtime value) := by
  cases value with
  | int64 v => exact Json.Value.number (Json.number_signedDecimal _)
  | uint64 v => exact value_appendUnsigned v
  | double v =>
      rcases hruntime v (hfinite v rfl) with ⟨text, htext, hnumber⟩
      rw [appendJsonAttributeValue, appendDouble, htext]
      exact Json.Value.number hnumber
  | bool v =>
      cases v with
      | false => exact Json.Value.false
      | true => exact Json.Value.true
  | text v => exact value_escapedText v

theorem appendJsonAttribute_eq (runtime : Runtime) (a : LogAttribute Bytes) :
    appendJsonAttribute runtime a =
      Json.member (appendJsonEscapedText a.key)
        (appendJsonAttributeValue runtime a.value) := by
  simp only [appendJsonAttribute, Json.member, Json.quoted, List.append_assoc,
    List.cons_append]
  rfl

theorem member_appendJsonAttribute {runtime : Runtime}
    (hruntime : FormatsDoubles runtime) {a : LogAttribute Bytes}
    (hfinite : forall v, a.value = AttributeValue.double v -> v.Finite) :
    Json.Member (appendJsonAttribute runtime a) := by
  rw [appendJsonAttribute_eq]
  exact Json.Member.of_value (chars_appendJsonEscapedText a.key)
    (value_appendJsonAttributeValue hruntime hfinite)

theorem object_appendJsonAttributes {runtime : Runtime}
    (hruntime : FormatsDoubles runtime) {attributes : List (LogAttribute Bytes)}
    (hfinite : forall a v, a ∈ attributes ->
      a.value = AttributeValue.double v -> v.Finite) :
    Json.Object
      (123 :: (appendJsonAttributes runtime attributes ++ [125])) := by
  cases attributes with
  | nil => exact Json.Object.empty Json.Space.nil
  | cons first rest =>
      apply Json.Object.members
      have hrest : forall t, t ∈ rest.map (appendJsonAttribute runtime) ->
          Json.Member t := by
        intro t ht
        rcases List.mem_map.mp ht with ⟨a, ha, rfl⟩
        exact member_appendJsonAttribute hruntime
          fun v => hfinite a v (List.mem_cons_of_mem _ ha)
      have hmembers := Json.Members.of_list
        (member_appendJsonAttribute hruntime
          fun v => hfinite first v List.mem_cons_self) hrest
      rw [List.flatMap_map] at hmembers
      exact hmembers

/-!
## The whole record
-/

def memberTail (runtime : Runtime) (record : LogRecordView) : List Bytes :=
  [ Json.member (ascii "level")
      (Json.quoted (appendJsonEscapedText record.level.name)),
    Json.member (ascii "logger")
      (Json.quoted (appendJsonEscapedText record.loggerName)),
    Json.member (ascii "message")
      (Json.quoted (appendJsonEscapedText record.message)),
    Json.member (ascii "source")
      (Json.quoted (appendJsonEscapedText record.source.fileName ++
        58 :: appendUnsigned record.source.line.toUInt64)),
    Json.member (ascii "thread_id") (appendUnsigned record.threadIdHash),
    Json.member (ascii "attributes")
      (123 :: (appendJsonAttributes runtime record.attributes ++ [125])),
    Json.member (ascii "truncated_attributes")
      (appendUnsigned record.truncatedAttributeCount.toUInt64),
    Json.member (ascii "truncated_bytes")
      (appendUnsigned record.truncatedBytes.toUInt64) ]

theorem formatJson_eq (runtime : Runtime)
    (options : JsonRecordFormatterOptions) (record : LogRecordView) :
    formatJson runtime options record =
      123 :: (Json.member (ascii "timestamp")
        (appendTimestamp runtime record.timestampEpochNanoseconds
          options.timestampStyle) ++
        (memberTail runtime record).flatMap (44 :: ·) ++ [125]) ++ [10] := by
  unfold formatJson memberTail Json.member Json.quoted
  simp [ascii]

theorem member_ascii {name : String} {value : Bytes}
    (hname : (ascii name).all Json.isPlain = true)
    (hvalue : Json.Value value) :
    Json.Member (Json.member (ascii name) value) :=
  Json.Member.of_value (Json.Chars.of_plain hname) hvalue

theorem members_memberTail {runtime : Runtime} {record : LogRecordView}
    (hruntime : FormatsDoubles runtime) (hfinite : FiniteDoubles record) :
    forall t, t ∈ memberTail runtime record -> Json.Member t := by
  have hcolon : Json.Chars [58] := Json.Chars.of_plain (by decide)
  have hsource := (chars_appendJsonEscapedText record.source.fileName).append
    (hcolon.append
      (Json.natural_decimal record.source.line.toUInt64.toNat).1.chars)
  intro t ht
  simp only [memberTail, List.mem_cons, List.not_mem_nil, or_false] at ht
  rcases ht with rfl | rfl | rfl | rfl | rfl | rfl | rfl | rfl
  · exact member_ascii (by decide) (value_escapedText _)
  · exact member_ascii (by decide) (value_escapedText _)
  · exact member_ascii (by decide) (value_escapedText _)
  · exact member_ascii (by decide) (Json.Value.string hsource)
  · exact member_ascii (by decide) (value_appendUnsigned _)
  · exact member_ascii (by decide)
      (Json.Value.object (object_appendJsonAttributes hruntime hfinite))
  · exact member_ascii (by decide) (value_appendUnsigned _)
  · exact member_ascii (by decide) (value_appendUnsigned _)

theorem isJsonLine_of_timestamp {runtime : Runtime}
    {options : JsonRecordFormatterOptions} {record : LogRecordView}
    (hruntime : FormatsDoubles runtime) (hfinite : FiniteDoubles record)
    (hvalue : Json.Value (appendTimestamp runtime
      record.timestampEpochNanoseconds options.timestampStyle)) :
    IsJsonLine (formatJson runtime options record) := by
  have htimestamp : Json.Member (Json.member (ascii "timestamp") _) :=
    member_ascii (by decide) hvalue
  exact ⟨_, Json.Object.members (Json.Members.of_list htimestamp
    (members_memberTail hruntime hfinite)),
    formatJson_eq runtime options record⟩

theorem object_of_isJsonLine {runtime : Runtime}
    {options : JsonRecordFormatterOptions} {record : LogRecordView}
    (h : IsJsonLine (formatJson runtime options record)) :
    exists tail, Json.Object (123 :: (Json.quoted (ascii "timestamp") ++
      58 :: (appendTimestamp runtime record.timestampEpochNanoseconds
        options.timestampStyle ++ 44 :: tail))) := by
  rcases h with ⟨object, hobject, heq⟩
  rw [formatJson_eq] at heq
  rw [← List.append_cancel_right heq] at hobject
  simp only [Json.member, List.append_assoc, memberTail, List.flatMap_cons,
    List.cons_append] at hobject
  exact ⟨_, hobject⟩

/-!
## Timestamps
-/

theorem isoTimestamp_starts (runtime : Runtime) (timestamp : UInt64)
    {style : TimestampStyle}
    (hstyle : style = TimestampStyle.iso8601Utc ∨
      style = TimestampStyle.iso8601Local) :
    (exists tail, appendTimestamp runtime timestamp style = 46 :: tail) ∨
      exists sign digits tail, (sign = [] ∨ sign = [45]) ∧
        Json.Digits digits ∧
        appendTimestamp runtime timestamp style =
          sign ++ (digits ++ 45 :: tail) := by
  have hparts : exists time suffix, appendTimestamp runtime timestamp style =
      strftime 32 (dateTime time) ++
        46 :: (fraction (timestamp % 1000000000) ++ suffix) := by
    rcases hstyle with rfl | rfl
    · exact ⟨_, _, rfl⟩
    · exact ⟨_, _, rfl⟩
  rcases hparts with ⟨time, suffix, heq⟩
  rw [heq, strftime]
  split
  · rcases Json.signedDecimal_split time.year with
      ⟨sign, digits, hsign, hdigits, hyear⟩
    rw [dateTime, hyear, List.append_assoc, List.append_assoc,
      List.cons_append]
    exact Or.inr ⟨sign, digits, _, hsign, hdigits, rfl⟩
  · exact Or.inl ⟨_, rfl⟩

theorem not_isJsonLine {runtime : Runtime}
    {options : JsonRecordFormatterOptions} {record : LogRecordView}
    (hnano : options.timestampStyle ≠ TimestampStyle.epochNanoseconds)
    (hmilli : options.timestampStyle ≠ TimestampStyle.epochMilliseconds) :
    ¬ IsJsonLine (formatJson runtime options record) := by
  intro h
  rcases object_of_isJsonLine h with ⟨tail, hobject⟩
  have hkey : Json.Chars (ascii "timestamp") := Json.Chars.of_plain (by decide)
  have hiso : options.timestampStyle = TimestampStyle.iso8601Utc ∨
      options.timestampStyle = TimestampStyle.iso8601Local -> False := by
    intro hstyle
    rcases isoTimestamp_starts runtime record.timestampEpochNanoseconds hstyle
      with ⟨rest, heq⟩ | ⟨sign, digits, rest, hsign, hdigits, heq⟩
    · rw [heq] at hobject
      exact Json.Object.not_of_byte hkey (by decide) (by decide) (by decide)
        hobject
    · rw [heq, List.append_assoc, List.append_assoc, List.cons_append]
        at hobject
      exact Json.Object.not_dashed hkey hsign hdigits hobject
  cases hstyle : options.timestampStyle with
  | epochNanoseconds => exact hnano hstyle
  | epochMilliseconds => exact hmilli hstyle
  | iso8601Utc => exact hiso (Or.inl hstyle)
  | iso8601Local => exact hiso (Or.inr hstyle)
  | unnamed value above =>
      -- Nothing is written, so the comma stands where the value should be.
      rw [hstyle] at hobject
      exact Json.Object.not_of_byte hkey (by decide) (by decide) (by decide)
        hobject

/-!
## When the output is JSON
-/

theorem formatJson_isJsonLine_iff (runtime : Runtime)
    (options : JsonRecordFormatterOptions) (record : LogRecordView)
    (hruntime : FormatsDoubles runtime) (hfinite : FiniteDoubles record) :
    IsJsonLine (formatJson runtime options record) <->
      options.timestampStyle = TimestampStyle.epochNanoseconds ∨
        options.timestampStyle = TimestampStyle.epochMilliseconds := by
  constructor
  · intro h
    by_contra hstyle
    rw [not_or] at hstyle
    exact not_isJsonLine hstyle.1 hstyle.2 h
  · intro hstyle
    apply isJsonLine_of_timestamp hruntime hfinite
    rcases hstyle with hstyle | hstyle <;> rw [hstyle]
    · exact value_appendUnsigned _
    · exact value_appendUnsigned _

def smallRuntime : Runtime where
  gmtime := fun second =>
    if second = 0 then some { year := 1970, month := 1, day := 1 } else none
  localtime := fun second =>
    if second = 0 then some { year := 1970, month := 1, day := 1 } else none
  formatDouble := fun v =>
    Except.ok (if v.bits = 0x3FF8000000000000 then ascii "1.5" else ascii "0")

theorem smallRuntime_formatsDoubles : FormatsDoubles smallRuntime := by
  intro v _
  refine ⟨_, rfl, ?_⟩
  split
  · exact ⟨[], ascii "1", ascii ".5", [], Or.inl rfl, Json.natural_decimal 1,
      Or.inr ⟨ascii "5", (Json.natural_decimal 5).1, rfl⟩, Or.inl rfl, rfl⟩
  · exact Json.number_decimal 0

def smallRecord : LogRecordView where
  attributes :=
    [{ key := ascii "k", value := AttributeValue.double ⟨0x3FF8000000000000⟩ }]

theorem smallRecord_finiteDoubles : FiniteDoubles smallRecord := by
  intro a v ha hv
  rw [List.mem_singleton.mp ha] at hv
  cases hv
  decide

theorem epoch_style_is_json :
    IsJsonLine (formatJson smallRuntime {} smallRecord) :=
  (formatJson_isJsonLine_iff smallRuntime {} smallRecord
    smallRuntime_formatsDoubles smallRecord_finiteDoubles).mpr (Or.inl rfl)

theorem iso_style_is_not_json :
    FormatsDoubles smallRuntime ∧ FiniteDoubles smallRecord ∧
      ¬ IsJsonLine
        (formatJson smallRuntime
          { timestampStyle := TimestampStyle.iso8601Utc } smallRecord) :=
  ⟨smallRuntime_formatsDoubles, smallRecord_finiteDoubles,
    not_isJsonLine (by decide) (by decide)⟩

end Formatting
end NginLog
