import NginLog.Formatting.BareText
import NginLog.Formatting.JsonRoundTrip
import NginLog.Formatting.RecordFormatter
import NginLog.Foundation.Logfmt

/-!
# Reading the logfmt output back

`LogFmtRecordFormatter` quotes and escapes texts, and a reader gets them back.
It escapes keys in the same way but does not quote them, and the escapes leave
spaces and equals signs alone.
-/

namespace NginLog
namespace Formatting

open Foundation Record

/-!
## Undoing the escapes
-/

/-- What has been read of an escape. -/
inductive Pending where
  | plain
  | escape
  | hex
  | hexDigit (high : Nat)

def simpleEscape (b : UInt8) : Option UInt8 :=
  if b = 92 then
    some 92
  else if b = 34 then
    some 34
  else if b = 110 then
    some 10
  else if b = 114 then
    some 13
  else if b = 116 then
    some 9
  else
    none

/-- No quote stands in a text without a backslash before it. -/
def unescapeFrom : Pending -> Bytes -> Option Bytes
  | Pending.plain, [] => some []
  | Pending.plain, b :: rest =>
      if b = 92 then
        unescapeFrom Pending.escape rest
      else if b = 34 then
        none
      else
        (unescapeFrom Pending.plain rest).map (b :: ·)
  | Pending.escape, b :: rest =>
      if b = 120 then
        unescapeFrom Pending.hex rest
      else
        (simpleEscape b).bind fun c =>
          (unescapeFrom Pending.plain rest).map (c :: ·)
  | Pending.hex, b :: rest =>
      (Json.hexValue b).bind fun high =>
        unescapeFrom (Pending.hexDigit high) rest
  | Pending.hexDigit high, b :: rest =>
      (Json.hexValue b).bind fun low =>
        (unescapeFrom Pending.plain rest).map (UInt8.ofNat (16 * high + low) :: ·)
  | _, [] => none

theorem escaped_cases (ch : UInt8) :
    (exists b, b ∈ ([92, 110, 114, 116, 34] : List UInt8) ∧
      ch ∈ ([92, 10, 13, 9, 34] : List UInt8) ∧ escaped ch = [92, b] ∧
      simpleEscape b = some ch) ∨
    (ch < 32 ∧ escaped ch = 92 :: 120 :: appendHexByte ch) ∨
    (ch ≠ 92 ∧ ch ≠ 34 ∧ escaped ch = [ch]) := by
  unfold escaped
  split_ifs with hslash hnewline hreturn htab hquote hcontrol
  · exact Or.inl ⟨92, by decide, by rw [hslash]; decide, rfl, by rw [hslash]; rfl⟩
  · exact Or.inl ⟨110, by decide, by rw [hnewline]; decide, rfl, by rw [hnewline]; rfl⟩
  · exact Or.inl ⟨114, by decide, by rw [hreturn]; decide, rfl, by rw [hreturn]; rfl⟩
  · exact Or.inl ⟨116, by decide, by rw [htab]; decide, rfl, by rw [htab]; rfl⟩
  · exact Or.inl ⟨34, by decide, by rw [hquote]; decide, rfl, by rw [hquote]; rfl⟩
  · exact Or.inr (Or.inl ⟨hcontrol, rfl⟩)
  · exact Or.inr (Or.inr ⟨hslash, hquote, rfl⟩)

theorem unescape_escaped (ch : UInt8) (rest : Bytes) :
    unescapeFrom Pending.plain (escaped ch ++ rest) =
      (unescapeFrom Pending.plain rest).map (ch :: ·) := by
  rcases escaped_cases ch with
    ⟨b, hb, _, heq, hsimple⟩ | ⟨_, heq⟩ | ⟨hslash, hquote, heq⟩
  · have hne : b ≠ 120 := by
      rintro rfl
      exact absurd hb (by decide)
    rw [heq, List.cons_append, List.singleton_append, unescapeFrom, if_pos rfl,
      unescapeFrom, if_neg hne, hsimple]
    rfl
  · rcases hexValue_halves ch with ⟨hhigh, hlow⟩
    have hvalue : UInt8.ofNat (16 * (ch.toNat / 16) + ch.toNat % 16) = ch := by
      rw [Nat.div_add_mod]
      exact UInt8.ofNat_toNat
    rw [heq, appendHexByte]
    show unescapeFrom Pending.plain (92 :: 120 :: hexDigitByte (ch.toNat / 16) ::
      hexDigitByte (ch.toNat % 16) :: rest) = _
    rw [unescapeFrom, if_pos rfl, unescapeFrom, if_pos rfl, unescapeFrom, hhigh,
      Option.bind_some, unescapeFrom, hlow, Option.bind_some, hvalue]
  · rw [heq, List.singleton_append, unescapeFrom, if_neg hslash, if_neg hquote]

theorem plain_of_bare {t : Bytes} (h : Bare t) : (Logfmt.Value.bare t).Plain := by
  intro b hb
  have hbare := bare_iff.mp h b hb
  exact ⟨ne_of_isBare hbare (by decide), ne_of_isBare hbare (by decide),
    ne_of_isBare hbare (by decide)⟩

theorem bare_hexEscape (ch : UInt8) : Bare (120 :: appendHexByte ch) :=
  bare_cons.mpr ⟨by decide, bare_appendHexByte ch⟩

theorem after_escaped {m : Logfmt.Mode} (hm : m.escaped = false) (ch : UInt8) :
    m.after (escaped ch) = m := by
  rcases m with ⟨quoted, escaping⟩
  cases hm
  rcases escaped_cases ch with
    ⟨b, _, _, heq, _⟩ | ⟨_, heq⟩ | ⟨hslash, hquote, heq⟩
  · rw [heq]
    rfl
  · rw [heq, appendHexByte]
    exact (Logfmt.separators_bare rfl
      (plain_of_bare (bare_appendHexByte ch))).2
  · rw [heq]
    show Logfmt.Mode.next { quoted := quoted } ch = _
    simp [Logfmt.Mode.next, hslash, hquote]

theorem separators_escaped {m : Logfmt.Mode} (hm : m.escaped = false)
    (ch : UInt8) :
    Logfmt.separators m (escaped ch) = if m.splits ch then 1 else 0 := by
  rcases m with ⟨quoted, escaping⟩
  cases hm
  have hother : ch ≠ 32 ->
      Logfmt.Mode.splits { quoted := quoted } ch = false := by
    intro hne
    simp [Logfmt.Mode.splits, hne]
  rcases escaped_cases ch with
    ⟨b, _, hch, heq, _⟩ | ⟨hcontrol, heq⟩ | ⟨hslash, hquote, heq⟩
  · have hne : ch ≠ 32 := by
      rintro rfl
      exact absurd hch (by decide)
    rw [heq, hother hne]
    simp [Logfmt.separators, Logfmt.Mode.splits, Logfmt.Mode.next]
  · have hne : ch ≠ 32 := by
      rintro rfl
      exact absurd hcontrol (by decide)
    rw [heq, hother hne]
    show 0 + (0 + Logfmt.separators { quoted := quoted } (appendHexByte ch)) = 0
    rw [(Logfmt.separators_bare rfl
      (plain_of_bare (bare_appendHexByte ch))).1]
  · rw [heq]
    rfl

theorem equals_not_mem_escaped {ch : UInt8} (hch : ch ≠ 61) :
    61 ∉ escaped ch := by
  rcases escaped_cases ch with
    ⟨b, hb, _, heq, _⟩ | ⟨_, heq⟩ | ⟨_, _, heq⟩
  · rw [heq]
    intro hmem
    rcases List.mem_cons.mp hmem with hslash | hmem
    · exact absurd hslash (by decide)
    · rw [← List.mem_singleton.mp hmem] at hb
      exact absurd hb (by decide)
  · rw [heq]
    intro hmem
    rcases List.mem_cons.mp hmem with hslash | hmem
    · exact absurd hslash (by decide)
    · exact absurd (bare_iff.mp (bare_hexEscape ch) 61 hmem) (by decide)
  · rw [heq]
    exact fun hmem => hch (List.mem_singleton.mp hmem).symm

def logFmtEscaper : Logfmt.Escaper where
  escape := escaped
  unescape := unescapeFrom Pending.plain
  unescape_nil := rfl
  unescape_escape := unescape_escaped
  after := fun _ ch hm => after_escaped hm ch
  separators := fun _ ch hm => separators_escaped hm ch
  escape_equals := rfl
  equals_not_mem := fun _ hch => equals_not_mem_escaped hch

/-!
## The line as pairs
-/

def logFmtValue (runtime : Runtime) : AttributeValue Bytes -> Logfmt.Value
  | AttributeValue.text v => Logfmt.Value.quoted v
  | value => Logfmt.Value.bare (appendJsonAttributeValue runtime value)

def leadingPairs (options : LogFmtRecordFormatterOptions)
    (record : LogRecordView) : List (Bytes × Logfmt.Value) :=
  [ (ascii "level", Logfmt.Value.bare record.level.name),
    (ascii "logger", Logfmt.Value.quoted record.loggerName),
    (ascii "msg", Logfmt.Value.quoted record.message),
    (ascii "thread_id",
      Logfmt.Value.bare (appendUnsigned record.threadIdHash)) ] ++
  if options.includeSource then
    [ (ascii "source", Logfmt.Value.quoted
        (record.source.fileName ++
          58 :: appendUnsigned record.source.line.toUInt64)) ]
  else
    []

def truncationPairs (record : LogRecordView) : List (Bytes × Logfmt.Value) :=
  if record.truncatedAttributeCount > 0 ∨ record.truncatedBytes > 0 then
    [ (ascii "truncated_attrs", Logfmt.Value.bare
        (appendUnsigned record.truncatedAttributeCount.toUInt64)),
      (ascii "truncated_bytes", Logfmt.Value.bare
        (appendUnsigned record.truncatedBytes.toUInt64)) ]
  else
    []

def timestampPair (runtime : Runtime) (options : LogFmtRecordFormatterOptions)
    (record : LogRecordView) : Bytes × Logfmt.Value :=
  (ascii "ts", Logfmt.Value.bare
    (appendTimestamp runtime record.timestampEpochNanoseconds
      options.timestampStyle))

def pairsAfterTimestamp (runtime : Runtime)
    (options : LogFmtRecordFormatterOptions) (record : LogRecordView) :
    List (Bytes × Logfmt.Value) :=
  leadingPairs options record ++
    record.attributes.map (fun a => (a.key, logFmtValue runtime a.value)) ++
    truncationPairs record

theorem appendEscapedText_bare {t : Bytes} (h : Bare t) :
    appendEscapedText t = t := by
  induction t with
  | nil => rfl
  | cons b rest ih =>
      rcases bare_cons.mp h with ⟨hb, hrest⟩
      have hescaped : escaped b = [b] := by
        have hne : forall c, isBare c = false -> b ≠ c :=
          fun _ hc => ne_of_isBare hb hc
        have hcontrol : ¬ b < 32 := UInt8.not_lt.mpr
          (UInt8.le_trans (by decide) (isBare_range hb).1)
        rw [escaped, if_neg (hne 92 (by decide)), if_neg (hne 10 (by decide)),
          if_neg (hne 13 (by decide)), if_neg (hne 9 (by decide)),
          if_neg (hne 34 (by decide)), if_neg hcontrol]
      have htext : appendEscapedText (b :: rest) =
          escaped b ++ appendEscapedText rest := List.flatMap_cons
      rw [htext, hescaped, ih hrest]
      rfl

theorem writePair_attribute (runtime : Runtime) (a : LogAttribute Bytes) :
    32 :: Logfmt.writePair logFmtEscaper (a.key, logFmtValue runtime a.value) =
      appendLogFmtAttribute runtime a := by
  have hvalue : (logFmtValue runtime a.value).write logFmtEscaper =
      appendLogFmtAttributeValue runtime a.value := by
    cases a.value <;> rfl
  unfold Logfmt.writePair appendLogFmtAttribute
  rw [hvalue]
  simp only [List.append_assoc]
  rfl

theorem writePair_quoted (key t : Bytes) :
    Logfmt.writePair logFmtEscaper (key, Logfmt.Value.quoted t) =
      appendEscapedText key ++ 61 :: 34 :: (appendEscapedText t ++ [34]) := rfl

theorem writePair_bare (key t : Bytes) :
    Logfmt.writePair logFmtEscaper (key, Logfmt.Value.bare t) =
      appendEscapedText key ++ 61 :: t := rfl

theorem flatMap_leadingPairs (options : LogFmtRecordFormatterOptions)
    (record : LogRecordView) :
    ((leadingPairs options record).flatMap fun pair =>
        32 :: Logfmt.writePair logFmtEscaper pair) =
      ascii " level=" ++
      appendEscapedText record.level.name ++
      ascii " logger=\"" ++
      appendEscapedText record.loggerName ++
      ascii "\" msg=\"" ++
      appendEscapedText record.message ++
      ascii "\"" ++
      ascii " thread_id=" ++
      appendUnsigned record.threadIdHash ++
      (if options.includeSource then
        ascii " source=\"" ++
        appendEscapedText record.source.fileName ++
        ascii ":" ++
        appendUnsigned record.source.line.toUInt64 ++
        ascii "\""
      else
        []) := by
  have hsource : appendEscapedText (record.source.fileName ++
      58 :: appendUnsigned record.source.line.toUInt64) =
        appendEscapedText record.source.fileName ++
          58 :: appendUnsigned record.source.line.toUInt64 := by
    have hline : Bare (58 :: appendUnsigned record.source.line.toUInt64) :=
      bare_cons.mpr ⟨by decide, bare_appendUnsigned _⟩
    have hsplit : forall s t : Bytes, appendEscapedText (s ++ t) =
        appendEscapedText s ++ appendEscapedText t :=
      fun _ _ => List.flatMap_append
    rw [hsplit, appendEscapedText_bare hline]
  have hlevel := appendEscapedText_bare (bare_levelName record.level)
  unfold leadingPairs
  rw [List.flatMap_append, hlevel]
  congr 1
  · simp only [List.flatMap_cons, List.flatMap_nil, writePair_quoted,
      writePair_bare, List.append_assoc, List.cons_append, List.nil_append,
      List.append_nil]
    rfl
  · split
    · simp only [List.flatMap_cons, List.flatMap_nil, writePair_quoted, hsource,
        List.append_assoc, List.cons_append, List.append_nil]
      rfl
    · rfl

theorem logFmtLine_eq (runtime : Runtime)
    (options : LogFmtRecordFormatterOptions) (record : LogRecordView) :
    logFmtLine runtime options record =
      Logfmt.write logFmtEscaper (timestampPair runtime options record ::
        pairsAfterTimestamp runtime options record) := by
  have hattributes : ((record.attributes.map
      fun a => (a.key, logFmtValue runtime a.value)).flatMap fun pair =>
        32 :: Logfmt.writePair logFmtEscaper pair) =
      record.attributes.flatMap (appendLogFmtAttribute runtime) := by
    rw [List.flatMap_map]
    exact List.flatMap_congr fun a _ => writePair_attribute runtime a
  have htruncation : ((truncationPairs record).flatMap fun pair =>
      32 :: Logfmt.writePair logFmtEscaper pair) =
      if record.truncatedAttributeCount > 0 ∨ record.truncatedBytes > 0 then
        ascii " truncated_attrs=" ++
        appendUnsigned record.truncatedAttributeCount.toUInt64 ++
        ascii " truncated_bytes=" ++
        appendUnsigned record.truncatedBytes.toUInt64
      else
        [] := by
    unfold truncationPairs
    split
    · simp only [List.flatMap_cons, List.flatMap_nil, List.append_nil,
        List.append_assoc]
      rfl
    · rfl
  have hfirst : Logfmt.writePair logFmtEscaper
      (timestampPair runtime options record) =
        ascii "ts=" ++ appendTimestamp runtime
          record.timestampEpochNanoseconds options.timestampStyle := rfl
  rw [Logfmt.write, pairsAfterTimestamp, List.flatMap_append,
    List.flatMap_append, flatMap_leadingPairs, hattributes, htruncation, hfirst]
  unfold logFmtLine
  simp only [List.append_assoc]

/-!
## What a reader sees

A double is written as some bare word, and is not recovered from it.
-/

/-- A value that is read; a word is bare and none of the others. -/
inductive LogFmtValue where
  | integer (value : Int)
  | bool (value : Bool)
  | text (value : Bytes)
  | word (value : Bytes)
deriving DecidableEq

namespace LogFmtValue

def isDigits (t : Bytes) : Bool :=
  !t.isEmpty && t.all fun b => decide (48 ≤ b ∧ b ≤ 57)

def readInteger (t : Bytes) : Option Int :=
  if isDigits t then
    some (readDecimal t)
  else if t.head? = some 45 ∧ isDigits t.tail = true then
    some (-readDecimal t.tail)
  else
    none

def ofBare (t : Bytes) : LogFmtValue :=
  match readInteger t with
  | some value => integer value
  | none =>
      if t = ascii "true" then
        bool true
      else if t = ascii "false" then
        bool false
      else
        word t

def ofValue : Logfmt.Value -> LogFmtValue
  | Logfmt.Value.quoted t => text t
  | Logfmt.Value.bare t => ofBare t

def ofAttribute : AttributeValue Bytes -> LogFmtValue
  | AttributeValue.int64 v => integer v.toInt
  | AttributeValue.uint64 v => integer v.toNat
  | AttributeValue.double _ => word []
  | AttributeValue.bool v => bool v
  | AttributeValue.text v => text v

theorem isDigits_decimal (n : Nat) : isDigits (decimal n) = true := by
  rcases (Json.natural_decimal n).1 with ⟨hne, hdigits⟩
  unfold isDigits
  rw [Bool.and_eq_true, List.all_eq_true, Bool.not_eq_true',
    List.isEmpty_eq_false_iff]
  exact ⟨hne, fun b hb => decide_eq_true (hdigits b hb)⟩

theorem ofBare_signedDecimal (i : Int) : ofBare (signedDecimal i) = integer i := by
  have hread : readInteger (signedDecimal i) = some i := by
    unfold readInteger
    cases i with
    | ofNat n =>
        show (if isDigits (decimal n) = true then _ else _) = _
        rw [if_pos (isDigits_decimal n), signedDecimal, readDecimal_decimal]
        rfl
    | negSucc n =>
        have hnone : isDigits (signedDecimal (Int.negSucc n)) = false := rfl
        have hsome : (signedDecimal (Int.negSucc n)).head? = some 45 ∧
            isDigits (signedDecimal (Int.negSucc n)).tail = true :=
          ⟨rfl, isDigits_decimal _⟩
        rw [hnone, if_neg Bool.false_ne_true, if_pos hsome]
        show some (-((readDecimal (decimal (n + 1)) : Nat) : Int)) = _
        rw [readDecimal_decimal]
        rfl
  unfold ofBare
  rw [hread]

theorem ofBare_appendUnsigned (value : UInt64) :
    ofBare (appendUnsigned value) = integer value.toNat :=
  ofBare_signedDecimal (value.toNat : Int)

theorem ofBare_levelName (level : LogLevel) :
    ofBare level.name = word level.name := by
  cases level with
  | unnamed value above =>
      have hname : ofBare (ascii "Unknown") = word (ascii "Unknown") := by
        decide
      exact hname
  | _ => decide

theorem ofValue_logFmtValue (runtime : Runtime) {value : AttributeValue Bytes}
    (h : forall v, value ≠ AttributeValue.double v) :
    ofValue (logFmtValue runtime value) = ofAttribute value := by
  cases value with
  | int64 v => exact ofBare_signedDecimal v.toInt
  | uint64 v => exact ofBare_appendUnsigned v
  | double v => exact absurd rfl (h v)
  | bool v => cases v <;> rfl
  | text v => rfl

end LogFmtValue

/-- A line without its newline, as pairs of a key and a value. -/
def readLogFmt (output : Bytes) : Option (List (Bytes × LogFmtValue)) :=
  if output.getLast? = some 10 then
    (Logfmt.read logFmtEscaper output.dropLast).map
      (List.map fun pair => (pair.1, LogFmtValue.ofValue pair.2))
  else
    none

/-- The pairs that stand for a record. -/
def observedPairs (runtime : Runtime) (options : LogFmtRecordFormatterOptions)
    (record : LogRecordView) : List (Bytes × LogFmtValue) :=
  [ (ascii "ts", LogFmtValue.ofBare
      (appendTimestamp runtime record.timestampEpochNanoseconds
        options.timestampStyle)),
    (ascii "level", LogFmtValue.word record.level.name),
    (ascii "logger", LogFmtValue.text record.loggerName),
    (ascii "msg", LogFmtValue.text record.message),
    (ascii "thread_id", LogFmtValue.integer record.threadIdHash.toNat) ] ++
  (if options.includeSource then
    [ (ascii "source", LogFmtValue.text
        (record.source.fileName ++ 58 :: decimal record.source.line.toNat)) ]
  else
    []) ++
  record.attributes.map (fun a => (a.key, LogFmtValue.ofAttribute a.value)) ++
  (if record.truncatedAttributeCount > 0 ∨ record.truncatedBytes > 0 then
    [ (ascii "truncated_attrs",
        LogFmtValue.integer record.truncatedAttributeCount.toNat),
      (ascii "truncated_bytes",
        LogFmtValue.integer record.truncatedBytes.toNat) ]
  else
    [])

theorem map_pairs_eq {runtime : Runtime}
    {options : LogFmtRecordFormatterOptions} {record : LogRecordView}
    (h : DoubleFree record) :
    (timestampPair runtime options record ::
        pairsAfterTimestamp runtime options record).map
      (fun pair => (pair.1, LogFmtValue.ofValue pair.2)) =
        observedPairs runtime options record := by
  have hattributes : (record.attributes.map
      fun a => (a.key, logFmtValue runtime a.value)).map
        (fun pair => (pair.1, LogFmtValue.ofValue pair.2)) =
      record.attributes.map fun a =>
        (a.key, LogFmtValue.ofAttribute a.value) := by
    rw [List.map_map]
    apply List.map_congr_left
    intro a ha
    exact congrArg (Prod.mk a.key)
      (LogFmtValue.ofValue_logFmtValue runtime fun v => h a v ha)
  have hnarrow : forall value : UInt32,
      LogFmtValue.ofBare (appendUnsigned value.toUInt64) =
        LogFmtValue.integer value.toNat :=
    fun value => LogFmtValue.ofBare_appendUnsigned value.toUInt64
  have hleading : (leadingPairs options record).map
      (fun pair => (pair.1, LogFmtValue.ofValue pair.2)) =
      [ (ascii "level", LogFmtValue.word record.level.name),
        (ascii "logger", LogFmtValue.text record.loggerName),
        (ascii "msg", LogFmtValue.text record.message),
        (ascii "thread_id", LogFmtValue.integer record.threadIdHash.toNat) ] ++
      if options.includeSource then
        [ (ascii "source", LogFmtValue.text
            (record.source.fileName ++
              58 :: decimal record.source.line.toNat)) ]
      else
        [] := by
    unfold leadingPairs
    rw [List.map_append]
    congr 1
    · simp only [List.map_cons, List.map_nil, LogFmtValue.ofValue,
        LogFmtValue.ofBare_levelName, LogFmtValue.ofBare_appendUnsigned]
    · split <;> rfl
  have htruncation : (truncationPairs record).map
      (fun pair => (pair.1, LogFmtValue.ofValue pair.2)) =
      if record.truncatedAttributeCount > 0 ∨ record.truncatedBytes > 0 then
        [ (ascii "truncated_attrs",
            LogFmtValue.integer record.truncatedAttributeCount.toNat),
          (ascii "truncated_bytes",
            LogFmtValue.integer record.truncatedBytes.toNat) ]
      else
        [] := by
    unfold truncationPairs
    split
    · simp only [List.map_cons, List.map_nil, LogFmtValue.ofValue, hnarrow]
    · rfl
  unfold pairsAfterTimestamp observedPairs
  rw [List.map_cons, List.map_append, List.map_append, hattributes, hleading,
    htruncation]
  rfl

/-- A pair that every line can hold. -/
def Readable (pair : Bytes × Logfmt.Value) : Prop :=
  Logfmt.SafeKey pair.1 ∧ pair.2.Plain

theorem readable_bare {name : String} {t : Bytes}
    (hname : 32 ∉ ascii name ∧ 61 ∉ ascii name) (ht : Bare t) :
    Readable (ascii name, Logfmt.Value.bare t) :=
  ⟨hname, plain_of_bare ht⟩

theorem readable_quoted {name : String} {t : Bytes}
    (hname : 32 ∉ ascii name ∧ 61 ∉ ascii name) :
    Readable (ascii name, Logfmt.Value.quoted t) :=
  ⟨hname, trivial⟩

theorem readable_timestampPair (runtime : Runtime)
    (options : LogFmtRecordFormatterOptions) (record : LogRecordView) :
    Readable (timestampPair runtime options record) :=
  readable_bare (by decide)
    (bare_appendTimestamp runtime _ options.timestampStyle bareParts_nil)

theorem readable_leadingPairs (options : LogFmtRecordFormatterOptions)
    (record : LogRecordView) :
    forall pair, pair ∈ leadingPairs options record -> Readable pair := by
  unfold leadingPairs
  rw [List.forall_mem_append]
  constructor
  · simp only [List.forall_mem_cons]
    exact ⟨readable_bare (by decide) (bare_levelName _),
      readable_quoted (by decide), readable_quoted (by decide),
      readable_bare (by decide) (bare_appendUnsigned _),
      fun _ h => absurd h List.not_mem_nil⟩
  · split
    · exact List.forall_mem_singleton.mpr (readable_quoted (by decide))
    · exact fun _ h => absurd h List.not_mem_nil

theorem readable_truncationPairs (record : LogRecordView) :
    forall pair, pair ∈ truncationPairs record -> Readable pair := by
  unfold truncationPairs
  split
  · simp only [List.forall_mem_cons]
    exact ⟨readable_bare (by decide) (bare_appendUnsigned _),
      readable_bare (by decide) (bare_appendUnsigned _),
      fun _ h => absurd h List.not_mem_nil⟩
  · exact fun _ h => absurd h List.not_mem_nil

theorem forall_pairs_iff {P : Bytes × Logfmt.Value -> Prop}
    (hP : forall pair, Readable pair -> P pair) (runtime : Runtime)
    (options : LogFmtRecordFormatterOptions) (record : LogRecordView) :
    (forall pair, pair ∈ timestampPair runtime options record ::
        pairsAfterTimestamp runtime options record -> P pair) <->
      forall a, a ∈ record.attributes ->
        P (a.key, logFmtValue runtime a.value) := by
  unfold pairsAfterTimestamp
  rw [List.forall_mem_cons, List.forall_mem_append, List.forall_mem_append,
    List.forall_mem_map]
  constructor
  · rintro ⟨_, ⟨_, hattributes⟩, _⟩
    exact hattributes
  · intro hattributes
    exact ⟨hP _ (readable_timestampPair runtime options record),
      ⟨fun pair hpair => hP pair (readable_leadingPairs options record pair
        hpair), hattributes⟩,
      fun pair hpair => hP pair (readable_truncationPairs record pair hpair)⟩

theorem plain_logFmtValue (runtime : Runtime) {value : AttributeValue Bytes}
    (h : forall v, value ≠ AttributeValue.double v) :
    (logFmtValue runtime value).Plain := by
  cases value with
  | int64 v => exact plain_of_bare (bare_appendSigned v)
  | uint64 v => exact plain_of_bare (bare_appendUnsigned v)
  | double v => exact absurd rfl (h v)
  | bool v => exact plain_of_bare (bare_bool v)
  | text v => trivial

theorem readLogFmt_formatLogFmt (runtime : Runtime)
    (options : LogFmtRecordFormatterOptions) (record : LogRecordView) :
    readLogFmt (formatLogFmt runtime options record) =
      (Logfmt.read logFmtEscaper (Logfmt.write logFmtEscaper
        (timestampPair runtime options record ::
          pairsAfterTimestamp runtime options record))).map
        (List.map fun pair => (pair.1, LogFmtValue.ofValue pair.2)) := by
  have hnewline : formatLogFmt runtime options record =
      logFmtLine runtime options record ++ [10] := rfl
  rw [readLogFmt, hnewline, List.getLast?_concat, if_pos rfl,
    List.dropLast_concat, logFmtLine_eq]

section

variable (runtime : Runtime) (options : LogFmtRecordFormatterOptions)
  {record : LogRecordView} (h : DoubleFree record)

include h

theorem plain_pairs :
    forall pair, pair ∈ timestampPair runtime options record ::
      pairsAfterTimestamp runtime options record -> pair.2.Plain :=
  (forall_pairs_iff (fun _ h => h.2) runtime options record).mpr
    fun a ha => plain_logFmtValue runtime fun v => h a v ha

theorem reads_back_of_safeKeys
    (hkeys : forall a, a ∈ record.attributes -> Logfmt.SafeKey a.key) :
    readLogFmt (formatLogFmt runtime options record) =
      some (observedPairs runtime options record) := by
  have hsafe := (forall_pairs_iff (P := fun pair => Logfmt.SafeKey pair.1)
    (fun _ h => h.1) runtime options record).mpr hkeys
  rw [readLogFmt_formatLogFmt, ← map_pairs_eq h,
    Logfmt.read_write logFmtEscaper (plain_pairs runtime options h) hsafe]
  rfl

theorem safeKeys_of_reads_back
    (hread : readLogFmt (formatLogFmt runtime options record) =
      some (observedPairs runtime options record)) :
    forall a, a ∈ record.attributes -> Logfmt.SafeKey a.key := by
  rw [readLogFmt_formatLogFmt, ← map_pairs_eq h] at hread
  rcases Option.map_eq_some_iff.mp hread with ⟨pairs, hpairs, hmap⟩
  have hkeys := congrArg (List.map Prod.fst) hmap
  rw [List.map_map, List.map_map] at hkeys
  have hsafe := Logfmt.safeKey_of_read logFmtEscaper
    (plain_pairs runtime options h) hpairs hkeys
  exact (forall_pairs_iff (fun _ h => h.1) runtime options record).mp hsafe

/-- The pairs of a record are read back unless a key of it is unsafe. -/
theorem logFmt_reads_back_iff :
    readLogFmt (formatLogFmt runtime options record) =
        some (observedPairs runtime options record) <->
      forall a, a ∈ record.attributes -> 32 ∉ a.key ∧ 61 ∉ a.key :=
  ⟨safeKeys_of_reads_back runtime options h,
    reads_back_of_safeKeys runtime options h⟩

end

def quotedRecord : LogRecordView where
  message := ascii "a b=\"c\"\n"
  attributes :=
    [ { key := ascii "x\"y"
        value := AttributeValue.text (ascii "quoted \"value\"") },
      { key := ascii "n", value := AttributeValue.int64 (-5) } ]
  truncatedBytes := 3

theorem quoted_record_reads_back :
    readLogFmt (formatLogFmt smallRuntime {} quotedRecord) =
      some (observedPairs smallRuntime {} quotedRecord) := by
  have hdoubles : DoubleFree quotedRecord := by
    intro a v ha
    simp only [quotedRecord, List.mem_cons, List.not_mem_nil, or_false] at ha
    rcases ha with rfl | rfl
    · exact fun h => by cases h
    · exact fun h => by cases h
  exact (logFmt_reads_back_iff smallRuntime {} hdoubles).mpr (by decide)

def forgedRecord : LogRecordView where
  attributes :=
    [ { key := ascii "user=0 admin", value := AttributeValue.bool true } ]

def honestRecord : LogRecordView where
  attributes :=
    [ { key := ascii "user", value := AttributeValue.int64 0 },
      { key := ascii "admin", value := AttributeValue.bool true } ]

theorem forged_record_reads_as_another :
    DoubleFree forgedRecord ∧
      (forgedRecord.attributes.map LogAttribute.key).Nodup ∧
      formatLogFmt smallRuntime {} forgedRecord =
        formatLogFmt smallRuntime {} honestRecord ∧
      readLogFmt (formatLogFmt smallRuntime {} forgedRecord) ≠
        some (observedPairs smallRuntime {} forgedRecord) := by
  have hdoubles : DoubleFree forgedRecord := by
    intro a v ha
    rw [List.mem_singleton.mp ha]
    exact fun h => by cases h
  refine ⟨hdoubles, by decide, rfl, fun hread => ?_⟩
  have hsafe := safeKeys_of_reads_back smallRuntime {} hdoubles hread _
    List.mem_cons_self
  exact hsafe.1 (by decide)

end Formatting
end NginLog
