import NginLog.Foundation.JsonSoundness
import NginLog.Formatting.JsonRecordFormatter

/-!
# Reading the JSON output back

With an epoch style and without doubles, the output of `JsonRecordFormatter` is
the text of a document that holds every observable part of the record.  A JSON
reader recovers them all, so no two different records are written alike.
-/

namespace NginLog
namespace Formatting

open Foundation Record

/-!
## What can be observed
-/

/-- The value of an attribute; the two kinds of integers count as one. -/
inductive ObservedValue where
  | integer (value : Int)
  | bool (value : Bool)
  | text (value : Bytes)
  | double (value : Double)
deriving DecidableEq

def observedValue : AttributeValue Bytes -> ObservedValue
  | AttributeValue.int64 v => ObservedValue.integer v.toInt
  | AttributeValue.uint64 v => ObservedValue.integer v.toNat
  | AttributeValue.double v => ObservedValue.double v
  | AttributeValue.bool v => ObservedValue.bool v
  | AttributeValue.text v => ObservedValue.text v

structure ObservedRecord where
  timestamp : Nat
  level : Bytes
  loggerName : Bytes
  message : Bytes
  /-- The file and the line, with a colon between them. -/
  source : Bytes
  threadId : Nat
  attributes : List (Bytes × ObservedValue)
  truncatedAttributes : Nat
  truncatedBytes : Nat
deriving DecidableEq

def observedTimestamp (style : TimestampStyle) (timestamp : UInt64) : Nat :=
  match style with
  | TimestampStyle.epochMilliseconds => timestamp.toNat / 1000000
  | _ => timestamp.toNat

def observed (style : TimestampStyle) (record : LogRecordView) :
    ObservedRecord where
  timestamp := observedTimestamp style record.timestampEpochNanoseconds
  level := record.level.name
  loggerName := record.loggerName
  message := record.message
  source :=
    record.source.fileName ++ 58 :: decimal record.source.line.toNat
  threadId := record.threadIdHash.toNat
  attributes := record.attributes.map fun a => (a.key, observedValue a.value)
  truncatedAttributes := record.truncatedAttributeCount.toNat
  truncatedBytes := record.truncatedBytes.toNat

def DoubleFree (record : LogRecordView) : Prop :=
  forall a v, a ∈ record.attributes -> a.value ≠ AttributeValue.double v

/-!
## Documents of records
-/

def ObservedValue.document : ObservedValue -> Json.Document
  | integer value => Json.Document.number value 0
  | bool value => Json.Document.bool value
  | text value => Json.Document.string value
  | double _ => Json.Document.null

def ObservedValue.ofDocument : Json.Document -> Option ObservedValue
  | Json.Document.number mantissa exponent =>
      if exponent = 0 then some (integer mantissa) else none
  | Json.Document.bool b => some (bool b)
  | Json.Document.string contents => some (text contents)
  | _ => none

namespace ObservedRecord

def attributeMembers (o : ObservedRecord) : List (Bytes × Json.Document) :=
  o.attributes.map fun a => (a.1, a.2.document)

def document (o : ObservedRecord) : Json.Document :=
  Json.Document.object
    [ (ascii "timestamp", Json.Document.number o.timestamp 0),
      (ascii "level", Json.Document.string o.level),
      (ascii "logger", Json.Document.string o.loggerName),
      (ascii "message", Json.Document.string o.message),
      (ascii "source", Json.Document.string o.source),
      (ascii "thread_id", Json.Document.number o.threadId 0),
      (ascii "attributes", Json.Document.object o.attributeMembers),
      (ascii "truncated_attributes",
        Json.Document.number o.truncatedAttributes 0),
      (ascii "truncated_bytes", Json.Document.number o.truncatedBytes 0) ]

def natural? : Json.Document -> Option Nat
  | Json.Document.number (Int.ofNat n) exponent =>
      if exponent = 0 then some n else none
  | _ => none

def string? : Json.Document -> Option Bytes
  | Json.Document.string contents => some contents
  | _ => none

def ofMembers : List (Bytes × Json.Document) ->
    Option (List (Bytes × ObservedValue))
  | [] => some []
  | (key, value) :: rest =>
      (ObservedValue.ofDocument value).bind fun value =>
        (ofMembers rest).map fun rest => (key, value) :: rest

def attributes? : Json.Document -> Option (List (Bytes × ObservedValue))
  | Json.Document.object members => ofMembers members
  | _ => none

/-- What a consumer looks up in the document, each member by its name. -/
def ofDocument : Json.Document -> Option ObservedRecord
  | Json.Document.object members => do
      let timestamp <- (members.lookup (ascii "timestamp")).bind natural?
      let level <- (members.lookup (ascii "level")).bind string?
      let loggerName <- (members.lookup (ascii "logger")).bind string?
      let message <- (members.lookup (ascii "message")).bind string?
      let source <- (members.lookup (ascii "source")).bind string?
      let threadId <- (members.lookup (ascii "thread_id")).bind natural?
      let attributes <- (members.lookup (ascii "attributes")).bind attributes?
      let truncatedAttributes <-
        (members.lookup (ascii "truncated_attributes")).bind natural?
      let truncatedBytes <-
        (members.lookup (ascii "truncated_bytes")).bind natural?
      some {
        timestamp := timestamp
        level := level
        loggerName := loggerName
        message := message
        source := source
        threadId := threadId
        attributes := attributes
        truncatedAttributes := truncatedAttributes
        truncatedBytes := truncatedBytes }
  | _ => none

end ObservedRecord

theorem ObservedValue.ofDocument_document {value : ObservedValue}
    (h : forall v, value ≠ ObservedValue.double v) :
    ObservedValue.ofDocument value.document = some value := by
  cases value with
  | double v => exact absurd rfl (h v)
  | _ => rfl

theorem ObservedRecord.ofMembers_document
    {attributes : List (Bytes × ObservedValue)}
    (h : forall a v, a ∈ attributes -> a.2 ≠ ObservedValue.double v) :
    ofMembers (attributes.map fun a => (a.1, a.2.document)) =
      some attributes := by
  induction attributes with
  | nil => rfl
  | cons a rest ih =>
      have hvalue := ObservedValue.ofDocument_document
        fun v => h a v List.mem_cons_self
      have hrest := ih fun a' v ha' => h a' v (List.mem_cons_of_mem _ ha')
      rw [List.map_cons, ofMembers, hvalue, Option.bind_some, hrest,
        Option.map_some]

theorem ObservedRecord.ofDocument_document {o : ObservedRecord}
    (h : forall a v, a ∈ o.attributes -> a.2 ≠ ObservedValue.double v) :
    ofDocument o.document = some o := by
  have hattributes : attributes? (Json.Document.object o.attributeMembers) =
      some o.attributes := ofMembers_document h
  simp [ofDocument, document, List.lookup_cons, ascii, natural?, string?,
    hattributes]

/-!
## The output as the text of a document
-/

theorem hexValue_hexDigitByte {d : Nat} (h : d < 16) :
    Json.hexValue (hexDigitByte d) = some d := by
  revert d
  decide

theorem hexValue_halves (b : UInt8) :
    Json.hexValue (hexDigitByte (b.toNat / 16)) = some (b.toNat / 16) ∧
      Json.hexValue (hexDigitByte (b.toNat % 16)) = some (b.toNat % 16) := by
  have hbyte := b.toNat_lt
  exact ⟨hexValue_hexDigitByte (by omega), hexValue_hexDigitByte (by omega)⟩

theorem jsonEscaped_plain {b : UInt8} (h : Json.isPlain b = true) :
    jsonEscaped b = [b] := by
  simp only [Json.isPlain, Bool.and_eq_true, decide_eq_true_eq, bne_iff_ne] at h
  rcases h with ⟨⟨hcontrol, hquote⟩, hslash⟩
  have hlarge : forall c : UInt8, c < 32 -> b ≠ c := by
    intro c hc heq
    rw [heq] at hcontrol
    exact absurd hc (UInt8.not_lt.mpr hcontrol)
  rw [jsonEscaped, if_neg hslash, if_neg hquote, if_neg (hlarge 8 (by decide)),
    if_neg (hlarge 12 (by decide)), if_neg (hlarge 10 (by decide)),
    if_neg (hlarge 13 (by decide)), if_neg (hlarge 9 (by decide)),
    if_neg (UInt8.not_lt.mpr hcontrol)]

theorem readChars_unicodeEscape {b : UInt8} (h : b < 32) (fuel : Nat)
    (rest : Bytes) :
    Json.readChars (fuel + 1) (ascii "\\u00" ++ appendHexByte b ++ rest) =
      (Json.readChars fuel rest).map fun (more, rest) => (b :: more, rest) := by
  have hsmall : b.toNat < 32 := UInt8.lt_iff_toNat_lt.mp h
  rcases hexValue_halves b with ⟨hhigh, hlow⟩
  have hzero : Json.hexValue 48 = some 0 := by decide
  have hcode : 16 * (b.toNat / 16) + b.toNat % 16 = b.toNat := by omega
  have hread : Json.readUnicode (48 :: 48 :: hexDigitByte (b.toNat / 16) ::
      hexDigitByte (b.toNat % 16) :: rest) = some ([b], rest) := by
    have hlt : b.toNat < 0xD800 ∨ 0xE000 ≤ b.toNat := Or.inl (by omega)
    have hone : b.toNat < 0x80 := by omega
    simp [Json.readUnicode, Json.readHex4, hzero, hhigh, hlow, hcode, hlt,
      Json.utf8, hone]
  have htext : ascii "\\u00" ++ appendHexByte b ++ rest =
      92 :: 117 :: 48 :: 48 :: hexDigitByte (b.toNat / 16) ::
        hexDigitByte (b.toNat % 16) :: rest := rfl
  rw [htext, Json.readChars, if_neg (by decide), if_pos rfl]
  have hescape : Json.readEscape (117 :: 48 :: 48 ::
      hexDigitByte (b.toNat / 16) :: hexDigitByte (b.toNat % 16) :: rest) =
        some ([b], rest) := hread
  rw [hescape]
  rfl

def jsonEscaper : Json.Escaper where
  escape := jsonEscaped
  nonempty := by
    intro b
    unfold jsonEscaped
    split_ifs <;> simp [ascii]
  reads := by
    intro b fuel rest
    unfold jsonEscaped
    split_ifs with hslash hquote h8 h12 h10 h13 h9 hcontrol
    · subst hslash
      rfl
    · subst hquote
      rfl
    · subst h8
      rfl
    · subst h12
      rfl
    · subst h10
      rfl
    · subst h13
      rfl
    · subst h9
      rfl
    · exact readChars_unicodeEscape hcontrol fuel rest
    · rw [List.singleton_append, Json.readChars, if_neg hquote, if_neg hslash,
        if_neg hcontrol]

theorem jsonEscaper_append (first second : Bytes) :
    jsonEscaper.text (first ++ second) =
      appendJsonEscapedText first ++ jsonEscaper.text second :=
  List.flatMap_append

theorem jsonEscaper_plain {t : Bytes} (h : t.all Json.isPlain = true) :
    jsonEscaper.text t = t := by
  induction t with
  | nil => rfl
  | cons b rest ih =>
      rw [List.all_cons, Bool.and_eq_true] at h
      have hrest := ih h.2
      rw [Json.Escaper.text] at hrest ⊢
      rw [List.flatMap_cons, hrest]
      exact congrArg (· ++ rest) (jsonEscaped_plain h.1)

theorem writeNumber_natural (n : Nat) : Json.writeNumber n 0 = decimal n :=
  List.append_nil _

theorem write_observedValue {runtime : Runtime} {value : AttributeValue Bytes}
    (h : forall v, value ≠ AttributeValue.double v) :
    Json.write jsonEscaper (observedValue value).document =
      appendJsonAttributeValue runtime value := by
  cases value with
  | int64 v => exact List.append_nil _
  | uint64 v => exact List.append_nil _
  | double v => exact absurd rfl (h v)
  | bool v => cases v <;> rfl
  | text v => rfl

theorem writeMembers_attributes {runtime : Runtime}
    {attributes : List (LogAttribute Bytes)}
    (h : forall a v, a ∈ attributes -> a.value ≠ AttributeValue.double v) :
    Json.writeMembers jsonEscaper
        (attributes.map fun a => (a.key, (observedValue a.value).document)) =
      appendJsonAttributes runtime attributes := by
  have hmore : forall rest : List (LogAttribute Bytes),
      (forall a v, a ∈ rest -> a.value ≠ AttributeValue.double v) ->
      Json.writeMoreMembers jsonEscaper
          (rest.map fun a => (a.key, (observedValue a.value).document)) =
        rest.flatMap fun a => ascii "," ++ appendJsonAttribute runtime a := by
    intro rest hrest
    induction rest with
    | nil => rfl
    | cons a rest ih =>
        rw [List.map_cons, Json.writeMoreMembers, List.flatMap_cons,
          ih fun a' v ha' => hrest a' v (List.mem_cons_of_mem _ ha'),
          write_observedValue fun v => hrest a v List.mem_cons_self,
          appendJsonAttribute_eq]
        rfl
  cases attributes with
  | nil => rfl
  | cons a rest =>
      rw [List.map_cons, Json.writeMembers,
        hmore rest fun a' v ha' => h a' v (List.mem_cons_of_mem _ ha'),
        write_observedValue fun v => h a v List.mem_cons_self,
        appendJsonAttributes, appendJsonAttribute_eq]
      rfl

theorem appendTimestamp_epoch (runtime : Runtime) (timestamp : UInt64)
    {style : TimestampStyle}
    (hstyle : style = TimestampStyle.epochNanoseconds ∨
      style = TimestampStyle.epochMilliseconds) :
    appendTimestamp runtime timestamp style =
      decimal (observedTimestamp style timestamp) := by
  rcases hstyle with rfl | rfl
  · rfl
  · rw [appendTimestamp, appendUnsigned, UInt64.toNat_div]
    rfl

theorem formatJson_eq_write (runtime : Runtime)
    {options : JsonRecordFormatterOptions} {record : LogRecordView}
    (hstyle : options.timestampStyle = TimestampStyle.epochNanoseconds ∨
      options.timestampStyle = TimestampStyle.epochMilliseconds)
    (hdouble : DoubleFree record) :
    formatJson runtime options record =
      Json.write jsonEscaper
        (observed options.timestampStyle record).document ++ [10] := by
  have hname : forall name value, (ascii name).all Json.isPlain = true ->
      Json.member (jsonEscaper.text (ascii name)) value =
        Json.member (ascii name) value := by
    intro name value hplain
    rw [jsonEscaper_plain hplain]
  have hsource : jsonEscaper.text
      (record.source.fileName ++ 58 :: decimal record.source.line.toNat) =
        appendJsonEscapedText record.source.fileName ++
          58 :: decimal record.source.line.toNat := by
    have hplain : (58 :: decimal record.source.line.toNat).all Json.isPlain =
        true := by
      rw [List.all_cons, (Json.natural_decimal _).1.plain]
      rfl
    rw [jsonEscaper_append, jsonEscaper_plain hplain]
  have hattributes := @writeMembers_attributes runtime record.attributes
    fun a v ha => hdouble a v ha
  rw [formatJson_eq, appendTimestamp_epoch runtime _ hstyle]
  simp (disch := decide) only [memberTail, ObservedRecord.document, observed,
    ObservedRecord.attributeMembers, Json.write, Json.writeMembers,
    Json.writeMoreMembers, List.map_map, List.flatMap_cons, List.flatMap_nil,
    hname, hsource, writeNumber_natural, Function.comp_def, hattributes,
    appendUnsigned, UInt32.toNat_toUInt64, List.cons_append]
  rfl

/-!
## The round trip
-/

theorem read_formatJson (runtime : Runtime)
    {options : JsonRecordFormatterOptions} {record : LogRecordView}
    (hstyle : options.timestampStyle = TimestampStyle.epochNanoseconds ∨
      options.timestampStyle = TimestampStyle.epochMilliseconds)
    (hdouble : DoubleFree record) :
    (Json.read (formatJson runtime options record)).bind
        ObservedRecord.ofDocument =
      some (observed options.timestampStyle record) := by
  rw [formatJson_eq_write runtime hstyle hdouble,
    Json.read_write jsonEscaper _ rfl, Option.bind_some]
  apply ObservedRecord.ofDocument_document
  intro a v ha hv
  rcases List.mem_map.mp ha with ⟨a', ha', rfl⟩
  cases hvalue : a'.value with
  | double v' => exact hdouble a' v' ha' hvalue
  | _ =>
      simp only [hvalue, observedValue] at hv
      cases hv

theorem isJsonLine_of_read {runtime : Runtime}
    {options : JsonRecordFormatterOptions} {record : LogRecordView}
    {document : Json.Document}
    (h : Json.read (formatJson runtime options record) = some document) :
    IsJsonLine (formatJson runtime options record) := by
  rw [formatJson_eq] at h ⊢
  exact ⟨_, Json.object_of_read h, rfl⟩

theorem formatJson_readable_iff (runtime : Runtime)
    (options : JsonRecordFormatterOptions) {record : LogRecordView}
    (hdouble : DoubleFree record) :
    (exists document,
      Json.read (formatJson runtime options record) = some document) <->
      options.timestampStyle = TimestampStyle.epochNanoseconds ∨
        options.timestampStyle = TimestampStyle.epochMilliseconds := by
  constructor
  · rintro ⟨document, hread⟩
    by_contra hstyle
    rw [not_or] at hstyle
    exact not_isJsonLine hstyle.1 hstyle.2 (isJsonLine_of_read hread)
  · intro hstyle
    rcases Option.bind_eq_some_iff.mp (read_formatJson runtime hstyle hdouble)
      with ⟨document, hread, _⟩
    exact ⟨document, hread⟩

/--
With an epoch style the output of a record without doubles can be read back, so
records that differ in an observable part are written differently.
-/
theorem json_round_trip (runtime : Runtime)
    (options : JsonRecordFormatterOptions)
    (hstyle : options.timestampStyle = TimestampStyle.epochNanoseconds ∨
      options.timestampStyle = TimestampStyle.epochMilliseconds) :
    (forall record, DoubleFree record ->
      (Json.read (formatJson runtime options record)).bind
          ObservedRecord.ofDocument =
        some (observed options.timestampStyle record)) ∧
    (forall record record', DoubleFree record -> DoubleFree record' ->
      observed options.timestampStyle record ≠
        observed options.timestampStyle record' ->
      formatJson runtime options record ≠
        formatJson runtime options record') := by
  constructor
  · intro record hdouble
    exact read_formatJson runtime hstyle hdouble
  · intro record record' hdouble hdouble' hdiffer heq
    apply hdiffer
    have hread := read_formatJson runtime hstyle hdouble
    rw [heq, read_formatJson runtime hstyle hdouble'] at hread
    exact (Option.some.inj hread).symm

def oneAttribute (value : AttributeValue Bytes) : LogRecordView where
  loggerName := ascii "a\"b\\"
  message := [1, 10, 200]
  attributes := [{ key := ascii "k", value := value }]

theorem oneAttribute_doubleFree {value : AttributeValue Bytes}
    (h : forall v, value ≠ AttributeValue.double v) :
    DoubleFree (oneAttribute value) := by
  intro a v ha
  rw [List.mem_singleton.mp ha]
  exact h v

theorem number_and_text_differ :
    (Json.read (formatJson smallRuntime {}
        (oneAttribute (AttributeValue.int64 5)))).bind
        ObservedRecord.ofDocument =
      some (observed TimestampStyle.epochNanoseconds
        (oneAttribute (AttributeValue.int64 5))) ∧
    formatJson smallRuntime {} (oneAttribute (AttributeValue.int64 5)) ≠
      formatJson smallRuntime {}
        (oneAttribute (AttributeValue.text (ascii "5"))) := by
  have hnumber := @oneAttribute_doubleFree (AttributeValue.int64 5)
    fun v h => by cases h
  have htext := @oneAttribute_doubleFree (AttributeValue.text (ascii "5"))
    fun v h => by cases h
  have htrip := json_round_trip smallRuntime {} (Or.inl rfl)
  constructor
  · exact htrip.1 _ hnumber
  · exact htrip.2 _ _ hnumber htext (by decide)

end Formatting
end NginLog
