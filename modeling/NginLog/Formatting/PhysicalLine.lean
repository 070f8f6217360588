import NginLog.Formatting.BareText
import NginLog.Formatting.RecordFormatter

/-!
# One physical line per record

No formatter writes a control character before the newline that ends its output.
The texts of a record are escaped, and what is not escaped is made of digits,
signs and literals.
-/

namespace NginLog
namespace Formatting

open Foundation Record

def Printable (t : Bytes) : Prop :=
  t.all (fun b => decide (32 ≤ b)) = true

instance (t : Bytes) : Decidable (Printable t) :=
  inferInstanceAs (Decidable (_ = true))

/-- A text without control characters, and a newline. -/
def IsPhysicalLine (output : Bytes) : Prop :=
  exists line, Printable line ∧ output = line ++ [10]

/-!
## Printable text
-/

theorem printable_iff {t : Bytes} :
    Printable t <-> forall b, b ∈ t -> 32 ≤ b := by
  simp [Printable]

@[simp] theorem printable_nil : Printable [] := rfl

@[simp] theorem printable_cons {b : UInt8} {t : Bytes} :
    Printable (b :: t) <-> 32 ≤ b ∧ Printable t := by
  simp [Printable]

@[simp] theorem printable_append {s t : Bytes} :
    Printable (s ++ t) <-> Printable s ∧ Printable t := by
  simp [Printable]

theorem printable_flatMap {item : Type} {f : item -> Bytes}
    {items : List item} (h : forall x, x ∈ items -> Printable (f x)) :
    Printable (items.flatMap f) := by
  rw [printable_iff]
  intro b hb
  rcases List.mem_flatMap.mp hb with ⟨x, hx, hbx⟩
  exact printable_iff.mp (h x hx) b hbx

theorem printable_of_bare {t : Bytes} (h : Bare t) : Printable t :=
  printable_iff.mpr fun b hb =>
    UInt8.le_trans (by decide) (isBare_range (bare_iff.mp h b hb)).1

theorem isHexDigit_le {b : UInt8} (h : Json.IsHexDigit b) : 32 ≤ b :=
  UInt8.le_trans (by decide) (isBare_range (isBare_of_isHexDigit h)).1

theorem printable_of_chars {t : Bytes} (h : Json.Chars t) : Printable t := by
  induction h with
  | nil => exact printable_nil
  | plain hspace _ _ _ ih => exact printable_cons.mpr ⟨hspace, ih⟩
  | escape hmem _ ih =>
      simp only [List.mem_cons, List.not_mem_nil, or_false] at hmem
      rcases hmem with rfl | rfl | rfl | rfl | rfl | rfl | rfl | rfl <;>
        simpa using ih
  | unicode h₁ h₂ h₃ h₄ _ ih =>
      simp [isHexDigit_le h₁, isHexDigit_le h₂, isHexDigit_le h₃,
        isHexDigit_le h₄, ih]

@[simp] theorem printable_signedDecimal (i : Int) :
    Printable (signedDecimal i) :=
  printable_of_bare (bare_signedDecimal i)

@[simp] theorem printable_appendUnsigned (value : UInt64) :
    Printable (appendUnsigned value) :=
  printable_of_bare (bare_appendUnsigned value)

/-!
## Escaped text
-/

theorem printable_escaped (ch : UInt8) : Printable (escaped ch) := by
  unfold escaped
  split_ifs with _ _ _ _ _ hcontrol
  · decide
  · decide
  · decide
  · decide
  · decide
  · exact printable_append.mpr
      ⟨by decide, printable_of_bare (bare_appendHexByte ch)⟩
  · exact printable_cons.mpr ⟨UInt8.not_lt.mp hcontrol, printable_nil⟩

@[simp] theorem printable_appendEscapedText (text : Bytes) :
    Printable (appendEscapedText text) :=
  printable_flatMap fun ch _ => printable_escaped ch

@[simp] theorem printable_appendJsonEscapedText (text : Bytes) :
    Printable (appendJsonEscapedText text) :=
  printable_of_chars (chars_appendJsonEscapedText text)

@[simp] theorem printable_levelName (level : LogLevel) :
    Printable level.name :=
  printable_of_bare (bare_levelName level)

/-!
## Attribute values
-/

/-- What the library writes for a double, or has written when it throws. -/
def PrintsDoubles (runtime : Runtime) : Prop :=
  forall v text, runtime.formatDouble v = Except.ok text ∨
    runtime.formatDouble v = Except.error text -> Printable text

theorem printable_appendDouble {runtime : Runtime}
    (hruntime : PrintsDoubles runtime) (value : Double) :
    Printable (appendDouble runtime value) := by
  unfold appendDouble
  split
  · rename_i text heq
    exact hruntime value text (Or.inl heq)
  · rename_i appended heq
    exact printable_append.mpr
      ⟨hruntime value appended (Or.inr heq), by decide⟩

theorem printable_appendAttributeValue {runtime : Runtime}
    (hruntime : PrintsDoubles runtime) (value : AttributeValue Bytes) :
    Printable (appendAttributeValue runtime value) := by
  cases value with
  | int64 v => exact printable_signedDecimal _
  | uint64 v => exact printable_appendUnsigned v
  | double v => exact printable_appendDouble hruntime v
  | bool v => exact printable_of_bare (bare_bool v)
  | text v => simp [appendAttributeValue, ascii]

theorem printable_appendJsonAttributeValue {runtime : Runtime}
    (hruntime : PrintsDoubles runtime) (value : AttributeValue Bytes) :
    Printable (appendJsonAttributeValue runtime value) := by
  cases value with
  | int64 v => exact printable_signedDecimal _
  | uint64 v => exact printable_appendUnsigned v
  | double v => exact printable_appendDouble hruntime v
  | bool v => exact printable_of_bare (bare_bool v)
  | text v => simp [appendJsonAttributeValue, ascii]

theorem appendLogFmtAttributeValue_eq (runtime : Runtime)
    (value : AttributeValue Bytes) :
    appendLogFmtAttributeValue runtime value =
      appendAttributeValue runtime value := by
  cases value <;> rfl

/-!
## Timestamps
-/

def PrintableParts (parts : Bytes × Bytes) : Prop :=
  Printable parts.1 ∧ Printable parts.2

theorem printableParts_nil : PrintableParts ([], []) :=
  ⟨printable_nil, printable_nil⟩

theorem printable_fillCachedTimeParts (runtime : Runtime)
    (style : TimestampStyle) (second : Int64) :
    PrintableParts (fillCachedTimeParts runtime style second) := by
  rcases bare_fillCachedTimeParts runtime style second with ⟨hfirst, hsecond⟩
  exact ⟨printable_of_bare hfirst, printable_of_bare hsecond⟩

theorem printable_isoTimestamp (runtime : Runtime) (timestamp : UInt64)
    (style : TimestampStyle) {cached : Bytes × Bytes}
    (hcached : PrintableParts cached) :
    Printable (isoTimestamp runtime timestamp style cached) := by
  have hparts : forall parts, PrintableParts parts ->
      Printable (parts.1 ++
        46 :: (fraction (timestamp % 1000000000) ++ parts.2)) := by
    intro parts h
    simp [h.1, h.2, printable_of_bare (bare_fraction _)]
  unfold isoTimestamp
  apply hparts
  split
  · exact printable_fillCachedTimeParts ..
  · exact hcached

theorem printable_appendTimestamp (runtime : Runtime) (timestamp : UInt64)
    (style : TimestampStyle) {cached : Bytes × Bytes}
    (hcached : PrintableParts cached) :
    Printable (appendTimestamp runtime timestamp style cached) := by
  cases style with
  | epochNanoseconds => exact printable_appendUnsigned _
  | epochMilliseconds => exact printable_appendUnsigned _
  | iso8601Utc => exact printable_isoTimestamp runtime timestamp _ hcached
  | iso8601Local => exact printable_isoTimestamp runtime timestamp _ hcached
  | unnamed value above => exact printable_nil

/-!
## Lines
-/

theorem printable_appendTextAttributes {runtime : Runtime}
    (hruntime : PrintsDoubles runtime)
    (attributes : List (LogAttribute Bytes)) :
    Printable (appendTextAttributes runtime attributes) := by
  have hone : forall a, Printable (appendTextAttribute runtime a) := by
    intro a
    simp [appendTextAttribute, ascii,
      printable_appendAttributeValue hruntime]
  cases attributes with
  | nil => exact printable_nil
  | cons first rest =>
      have hrest : Printable
          (rest.flatMap fun a => ascii ", " ++ appendTextAttribute runtime a) :=
        printable_flatMap fun a _ =>
          printable_append.mpr ⟨by decide, hone a⟩
      rw [appendTextAttributes, printable_append, printable_append,
        printable_append]
      exact ⟨⟨⟨by decide, hone first⟩, hrest⟩, by decide⟩

theorem printable_appendJsonAttributes {runtime : Runtime}
    (hruntime : PrintsDoubles runtime)
    (attributes : List (LogAttribute Bytes)) :
    Printable (appendJsonAttributes runtime attributes) := by
  have hone : forall a, Printable (appendJsonAttribute runtime a) := by
    intro a
    simp [appendJsonAttribute, ascii,
      printable_appendJsonAttributeValue hruntime]
  cases attributes with
  | nil => exact printable_nil
  | cons first rest =>
      have hrest : Printable
          (rest.flatMap fun a => ascii "," ++ appendJsonAttribute runtime a) :=
        printable_flatMap fun a _ =>
          printable_append.mpr ⟨by decide, hone a⟩
      exact printable_append.mpr ⟨hone first, hrest⟩

theorem printable_appendLogFmtAttribute {runtime : Runtime}
    (hruntime : PrintsDoubles runtime) (a : LogAttribute Bytes) :
    Printable (appendLogFmtAttribute runtime a) := by
  simp [appendLogFmtAttribute, appendLogFmtAttributeValue_eq, ascii,
    printable_appendAttributeValue hruntime]

theorem printable_ite {p : Prop} [Decidable p] {t : Bytes} (h : Printable t) :
    Printable (if p then t else []) := by
  split
  · exact h
  · exact printable_nil

theorem printable_textLine {runtime : Runtime}
    (hruntime : PrintsDoubles runtime) (options : TextRecordFormatterOptions)
    {cached : Bytes × Bytes} (hcached : PrintableParts cached)
    (record : LogRecordView) :
    Printable (textLine runtime options cached record) := by
  have htimestamp := printable_appendTimestamp runtime
    record.timestampEpochNanoseconds options.timestampStyle hcached
  have hattributes :=
    printable_appendTextAttributes hruntime record.attributes
  unfold textLine
  rw [printable_append, printable_append]
  refine ⟨⟨?_, printable_ite ?_⟩, printable_ite ?_⟩
  · simp [ascii, htimestamp, hattributes]
  · simp [ascii]
  · simp [ascii]

theorem printable_logFmtLine {runtime : Runtime}
    (hruntime : PrintsDoubles runtime) (options : LogFmtRecordFormatterOptions)
    (record : LogRecordView) :
    Printable (logFmtLine runtime options record) := by
  have htimestamp := printable_appendTimestamp runtime
    record.timestampEpochNanoseconds options.timestampStyle
    printableParts_nil
  have hattributes : Printable
      (record.attributes.flatMap (appendLogFmtAttribute runtime)) :=
    printable_flatMap fun a _ => printable_appendLogFmtAttribute hruntime a
  unfold logFmtLine
  rw [printable_append, printable_append, printable_append]
  refine ⟨⟨⟨?_, printable_ite ?_⟩, hattributes⟩, printable_ite ?_⟩
  · simp [ascii, htimestamp]
  · simp [ascii]
  · simp [ascii]

theorem formatJson_isPhysicalLine {runtime : Runtime}
    (hruntime : PrintsDoubles runtime) (options : JsonRecordFormatterOptions)
    (record : LogRecordView) :
    IsPhysicalLine (formatJson runtime options record) := by
  have htimestamp := printable_appendTimestamp runtime
    record.timestampEpochNanoseconds options.timestampStyle
    printableParts_nil
  have hattributes :=
    printable_appendJsonAttributes hruntime record.attributes
  refine ⟨_, ?_, formatJson_eq runtime options record⟩
  simp [memberTail, Json.member, Json.quoted, ascii, htimestamp, hattributes]

/-!
## Every record of a run
-/

/-- What every state of a built-in formatter has. -/
def BuiltInFormatter.PrintableState (runtime : Runtime) :
    (kind : BuiltInFormatter) -> (kind.toRecordFormatter runtime).State -> Prop
  | text _, cache => PrintableParts (TimestampCache.parts cache)
  | json _, _ => True
  | logFmt _, _ => True

theorem TimestampCache.printableParts_refresh (runtime : Runtime)
    (style : TimestampStyle) (second : Int64) {cache : TimestampCache}
    (h : PrintableParts cache.parts) :
    PrintableParts (cache.refresh runtime style second).parts := by
  unfold refresh
  split
  · exact printable_fillCachedTimeParts runtime style second
  · exact h

namespace BuiltInFormatter

variable {runtime : Runtime} (hruntime : PrintsDoubles runtime)
  (kind : BuiltInFormatter)

theorem printableState_init :
    kind.PrintableState runtime (kind.toRecordFormatter runtime).init := by
  cases kind with
  | text options => exact printableParts_nil
  | json options => trivial
  | logFmt options => trivial

theorem printableState_format
    {state : (kind.toRecordFormatter runtime).State}
    (hstate : kind.PrintableState runtime state) (record : LogRecordView)
    (output : Bytes) :
    kind.PrintableState runtime
      ((kind.toRecordFormatter runtime).format state record output).2 := by
  cases kind with
  | text options => exact TimestampCache.printableParts_refresh _ _ _ hstate
  | json options => trivial
  | logFmt options => trivial

theorem printableState_after (earlier : List (LogRecordView × Bytes)) :
    kind.PrintableState runtime
      ((kind.toRecordFormatter runtime).after earlier) := by
  have hfrom : forall state, kind.PrintableState runtime state ->
      kind.PrintableState runtime
        (earlier.foldl (fun state call =>
          ((kind.toRecordFormatter runtime).format state call.1 call.2).2)
          state) := by
    induction earlier with
    | nil => exact fun _ h => h
    | cons call rest ih =>
        exact fun state h => ih _ (kind.printableState_format h call.1 call.2)
  exact hfrom _ kind.printableState_init

include hruntime

theorem format_isPhysicalLine
    {state : (kind.toRecordFormatter runtime).State}
    (hstate : kind.PrintableState runtime state) (record : LogRecordView)
    (output : Bytes) :
    IsPhysicalLine
      ((kind.toRecordFormatter runtime).format state record output).1 := by
  cases kind with
  | text options =>
      have hcache := TimestampCache.printableParts_refresh runtime
        options.timestampStyle
        (record.timestampEpochNanoseconds / 1000000000).toInt64 hstate
      exact ⟨_, printable_textLine hruntime options hcache record, rfl⟩
  | json options => exact formatJson_isPhysicalLine hruntime options record
  | logFmt options =>
      exact ⟨_, printable_logFmtLine hruntime options record, rfl⟩

end BuiltInFormatter

theorem one_record_one_line {runtime : Runtime}
    (hruntime : PrintsDoubles runtime) (kind : BuiltInFormatter)
    (earlier : List (LogRecordView × Bytes)) (record : LogRecordView)
    (output : Bytes) :
    IsPhysicalLine
      ((kind.toRecordFormatter runtime).outputAfter earlier record output) :=
  kind.format_isPhysicalLine hruntime (kind.printableState_after earlier)
    record output

theorem smallRuntime_printsDoubles : PrintsDoubles smallRuntime := by
  intro v text h
  rcases h with h | h
  · cases h
    split <;> decide
  · cases h

theorem forged_line_is_escaped :
    PrintsDoubles smallRuntime ∧
      IsPhysicalLine
        (((BuiltInFormatter.text {}).toRecordFormatter smallRuntime).outputAfter
          [(smallRecord, [])] { message := ascii "a\n[0][Info][b] c" }
          (ascii "left\nover")) :=
  ⟨smallRuntime_printsDoubles,
    one_record_one_line smallRuntime_printsDoubles (BuiltInFormatter.text {})
      [(smallRecord, [])] _ _⟩

end Formatting
end NginLog
