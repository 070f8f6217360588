import NginLog.Foundation.KeyedMerge
import NginLog.Record.Builder

/-!
# Dispatching a record

`Dispatch` merges the thread's context with the attributes of the builder, and
hands the sinks a view of the result.  Context texts are copied to a storage of
their own before the merge compares any key.
-/

namespace NginLog
namespace Record

open Foundation

structure Merge where
  attributes : List (LogAttribute Bytes) := []
  contextText : TextPool (Config.MaxAttrTextBytes * 2) := {}
  truncatedAttributeCount : UInt32
  truncatedBytes : UInt32

namespace Merge

def appendOrReplace (m : Merge) (a : LogAttribute Bytes) : Merge :=
  match KeyedMerge.replace? LogAttribute.key m.attributes a with
  | some replaced => { m with attributes := replaced }
  | none =>
      if m.attributes.length ≥ Config.MaxAttributes then
        { m with truncatedAttributeCount := m.truncatedAttributeCount + 1 }
      else
        { m with attributes := m.attributes ++ [a] }

def appendContext (m : Merge) (a : ContextAttribute) : Merge :=
  let key := m.contextText.copyText a.key m.truncatedBytes
  let value := key.2.1.copyValue a.value key.2.2
  appendOrReplace
    { m with contextText := value.2.1, truncatedBytes := value.2.2 }
    { key := key.1, value := value.1, kind := LogAttributeKind.default }

end Merge

def mergeAttributes (context : List ContextAttribute)
    (builder : RecordBuilder) : Merge :=
  builder.attributes.foldl Merge.appendOrReplace
    (context.foldl Merge.appendContext
      { truncatedAttributeCount := builder.truncatedAttributeCount
        truncatedBytes := builder.truncatedBytes })

/-- The rest of what `Dispatch` puts into a record. -/
structure CallSite where
  timestampEpochNanoseconds : UInt64 := 0
  level : LogLevel := LogLevel.info
  loggerName : Bytes := []
  source : SourceLocation := {}
  threadIdHash : UInt64 := 0

def dispatchedRecord (site : CallSite) (context : List ContextAttribute)
    (builder : RecordBuilder) : LogRecordView :=
  let merged := mergeAttributes context builder
  { timestampEpochNanoseconds := site.timestampEpochNanoseconds
    level := site.level
    loggerName := site.loggerName
    message := builder.message.bytes
    source := site.source
    threadIdHash := site.threadIdHash
    attributes := merged.attributes
    truncatedAttributeCount := merged.truncatedAttributeCount
    truncatedBytes := merged.truncatedBytes }

def loggedRecord (site : CallSite) (context : List ContextAttribute)
    (callback : Callback) : LogRecordView :=
  dispatchedRecord site context callback.build

/-!
## The copies of the context

Each context attribute is cut to the text room that the earlier ones left, its
key first.
-/

def LogAttribute.cutKeyFirst (room : Nat) (a : LogAttribute Bytes) :
    LogAttribute Bytes :=
  { a with
    key := a.key.take room
    value := a.value.map (List.take (room - a.key.length)) }

theorem LogAttribute.cutKeyFirst_eq_self (room : Nat) (a : LogAttribute Bytes)
    (h : a.textLength ≤ room) :
    a.cutKeyFirst room = a := by
  unfold textLength at h
  rw [cutKeyFirst, AttributeValue.map_take_of_le (by omega),
    List.take_of_length_le (by omega)]

/-- A context attribute as a record attribute. -/
def ContextAttribute.toLogAttribute (a : ContextAttribute) :
    LogAttribute Bytes :=
  { key := a.key, value := a.value, kind := LogAttributeKind.default }

def contextCopies (context : List ContextAttribute) :
    List (LogAttribute Bytes) :=
  Clip.clip LogAttribute.cutKeyFirst LogAttribute.textLength
    (Config.MaxAttrTextBytes * 2) (context.map ContextAttribute.toLogAttribute)

def mergedCopies (context : List ContextAttribute)
    (requested : List (LogAttribute Bytes)) : List (LogAttribute Bytes) :=
  contextCopies context ++ builderCopies requested

/-!
## The merge
-/

structure Merged (start : UInt32) (m : Merge)
    (copies : List (LogAttribute Bytes)) : Prop where
  attributes : m.attributes =
    (KeyedMerge.merge LogAttribute.key Config.MaxAttributes copies).1
  count : m.truncatedAttributeCount = start +
    UInt32.ofNat
      (KeyedMerge.merge LogAttribute.key Config.MaxAttributes copies).2

namespace Merged

variable {start : UInt32} {m : Merge} {copies : List (LogAttribute Bytes)}

theorem appendOrReplace (h : Merged start m copies) (a : LogAttribute Bytes) :
    Merged start (m.appendOrReplace a) (copies ++ [a]) := by
  have hstep : KeyedMerge.merge LogAttribute.key Config.MaxAttributes
      (copies ++ [a]) = _ := KeyedMerge.merge_concat copies a
  unfold KeyedMerge.put at hstep
  rw [← h.attributes] at hstep
  unfold Merge.appendOrReplace
  cases hreplace : KeyedMerge.replace? LogAttribute.key m.attributes a with
  | some replaced =>
      rw [hreplace] at hstep
      exact ⟨by rw [hstep], by rw [hstep]; exact h.count⟩
  | none =>
      rw [hreplace] at hstep
      simp only at hstep ⊢
      split at hstep
      · rename_i hfull
        rw [if_pos hfull]
        refine ⟨by rw [hstep], ?_⟩
        rw [hstep, h.count, UInt32.ofNat_add, UInt32.add_assoc]
        rfl
      · rename_i hroom
        rw [if_neg hroom]
        exact ⟨by rw [hstep], by rw [hstep]; exact h.count⟩

theorem foldl_appendOrReplace (h : Merged start m copies)
    (attributes : List (LogAttribute Bytes)) :
    Merged start (attributes.foldl Merge.appendOrReplace m)
      (copies ++ attributes) := by
  induction attributes generalizing m copies with
  | nil => simpa using h
  | cons a rest ih =>
      have hnext := ih (h.appendOrReplace a)
      rw [List.append_assoc] at hnext
      exact hnext

end Merged

namespace Merge

@[simp] theorem appendOrReplace_contextText (m : Merge)
    (a : LogAttribute Bytes) :
    (m.appendOrReplace a).contextText = m.contextText := by
  unfold appendOrReplace
  split
  · rfl
  · split <;> rfl

@[simp] theorem appendOrReplace_truncatedBytes (m : Merge)
    (a : LogAttribute Bytes) :
    (m.appendOrReplace a).truncatedBytes = m.truncatedBytes := by
  unfold appendOrReplace
  split
  · rfl
  · split <;> rfl

theorem appendContext_available (m : Merge) (a : ContextAttribute) :
    (m.appendContext a).contextText.available =
      m.contextText.available - a.toLogAttribute.textLength := by
  unfold appendContext
  rw [appendOrReplace_contextText, TextPool.copyValue_available,
    TextPool.copyText_available, Nat.sub_sub]
  rfl

theorem appendContext_spec {start : UInt32} {m : Merge}
    {copies : List (LogAttribute Bytes)} (h : Merged start m copies)
    (a : ContextAttribute) :
    Merged start (m.appendContext a)
        (copies ++ [a.toLogAttribute.cutKeyFirst m.contextText.available]) ∧
      (m.appendContext a).contextText.available =
        m.contextText.available - a.toLogAttribute.textLength := by
  let key := m.contextText.copyText a.key m.truncatedBytes
  let value := key.2.1.copyValue a.value key.2.2
  have hcopy :
      LogAttribute.mk key.1 value.1 LogAttributeKind.default =
        a.toLogAttribute.cutKeyFirst m.contextText.available := by
    simp only [key, value, TextPool.copyText_fst, TextPool.copyValue_fst,
      TextPool.copyText_available]
    rfl
  have hcopied : Merged start
      { m with contextText := value.2.1, truncatedBytes := value.2.2 }
      copies :=
    ⟨h.attributes, h.count⟩
  constructor
  · have happended : Merged start (m.appendContext a)
        (copies ++ [LogAttribute.mk key.1 value.1 LogAttributeKind.default]) :=
      hcopied.appendOrReplace _
    rwa [hcopy] at happended
  · exact appendContext_available m a

end Merge

theorem Merged.foldl_appendContext {start : UInt32} {m : Merge}
    {copies : List (LogAttribute Bytes)} (h : Merged start m copies)
    (context : List ContextAttribute) :
    Merged start (context.foldl Merge.appendContext m)
      (copies ++
        Clip.clip LogAttribute.cutKeyFirst LogAttribute.textLength
          m.contextText.available
          (context.map ContextAttribute.toLogAttribute)) := by
  induction context generalizing m copies with
  | nil => simpa using h
  | cons a rest ih =>
      rcases Merge.appendContext_spec h a with ⟨hstep, havailable⟩
      have hnext := ih hstep
      rw [havailable, List.append_assoc] at hnext
      exact hnext

theorem Merge.foldl_appendContext_truncatedBytes {m : Merge}
    {context : List ContextAttribute}
    (h : Clip.total LogAttribute.textLength
      (context.map ContextAttribute.toLogAttribute) ≤
        m.contextText.available) :
    (context.foldl Merge.appendContext m).truncatedBytes =
      m.truncatedBytes := by
  induction context generalizing m with
  | nil => rfl
  | cons a rest ih =>
      rw [List.map_cons, Clip.total_cons] at h
      have hkey : a.key.length ≤ m.contextText.available :=
        Nat.le_trans (Nat.le_add_right _ _) (Nat.le_trans
          (Nat.le_add_right a.toLogAttribute.textLength _) h)
      have hvalue : a.value.textLength ≤
          m.contextText.available - a.key.length := by
        have htext : a.toLogAttribute.textLength =
            a.key.length + a.value.textLength := rfl
        omega
      have hone : (m.appendContext a).truncatedBytes = m.truncatedBytes := by
        unfold appendContext
        rw [appendOrReplace_truncatedBytes, TextPool.copyValue_truncatedBytes,
          TextPool.copyText_truncatedBytes, TextPool.copyText_available,
          Nat.sub_eq_zero_of_le hkey, Nat.sub_eq_zero_of_le hvalue]
        exact (UInt32.add_zero _).trans (UInt32.add_zero _)
      rw [List.foldl_cons, ih (by rw [appendContext_available]; omega), hone]

theorem mergeAttributes_truncatedBytes {context : List ContextAttribute}
    (builder : RecordBuilder)
    (h : Clip.total LogAttribute.textLength
      (context.map ContextAttribute.toLogAttribute) ≤
        Config.MaxAttrTextBytes * 2) :
    (mergeAttributes context builder).truncatedBytes =
      builder.truncatedBytes := by
  have hrecord : forall (attributes : List (LogAttribute Bytes)) (m : Merge),
      (attributes.foldl Merge.appendOrReplace m).truncatedBytes =
        m.truncatedBytes := by
    intro attributes
    induction attributes with
    | nil => exact fun _ => rfl
    | cons a rest ih =>
        intro m
        rw [List.foldl_cons, ih, Merge.appendOrReplace_truncatedBytes]
  rw [mergeAttributes, hrecord]
  exact Merge.foldl_appendContext_truncatedBytes h

theorem mergeAttributes_merged (context : List ContextAttribute)
    (builder : RecordBuilder) :
    Merged builder.truncatedAttributeCount (mergeAttributes context builder)
      (contextCopies context ++ builder.attributes) := by
  have hstart : Merged builder.truncatedAttributeCount
      { truncatedAttributeCount := builder.truncatedAttributeCount
        truncatedBytes := builder.truncatedBytes } [] :=
    ⟨rfl, (UInt32.add_zero _).symm⟩
  exact (hstart.foldl_appendContext context).foldl_appendOrReplace
    builder.attributes

theorem loggedRecord_merged (site : CallSite) (context : List ContextAttribute)
    (callback : Callback) :
    (loggedRecord site context callback).attributes =
        (KeyedMerge.merge LogAttribute.key Config.MaxAttributes
          (mergedCopies context callback.requested)).1 ∧
      (loggedRecord site context callback).truncatedAttributeCount =
        UInt32.ofNat
          (callback.requested.length - Config.MaxAttributes +
            (KeyedMerge.merge LogAttribute.key Config.MaxAttributes
              (mergedCopies context callback.requested)).2) := by
  have hbuilder := callback.build_holds
  have hmerged := mergeAttributes_merged context callback.build
  rw [hbuilder.attributes] at hmerged
  refine ⟨hmerged.attributes, ?_⟩
  rw [UInt32.ofNat_add, ← hbuilder.count]
  exact hmerged.count

theorem loggedRecord_attributes_length_le (site : CallSite)
    (context : List ContextAttribute) (callback : Callback) :
    (loggedRecord site context callback).attributes.length ≤
      Config.MaxAttributes := by
  rw [(loggedRecord_merged site context callback).1]
  exact KeyedMerge.merge_length_le _

end Record
end NginLog
