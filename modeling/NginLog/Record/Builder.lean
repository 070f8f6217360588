import NginLog.Foundation.Clip
import NginLog.Foundation.Decimal
import NginLog.Record.TextPool

/-!
# Building a record

`RecordBuilder` collects the message and the attributes of one log call.  It has
room for a bounded message, a bounded number of attributes and a bounded amount
of attribute text; what does not fit is counted.
-/

namespace NginLog
namespace Record

open Foundation

/-!
## Values
-/

/--
What a caller may pass as an attribute's value.  Integers and floating-point
numbers of any width come converted to the 64-bit type of their own kind, and
an enumerator comes as its underlying value.
-/
inductive ArgValue where
  | attributeValue (value : AttributeValue Bytes)
  | bool (value : Bool)
  | signed (value : Int64)
  | unsigned (value : UInt64)
  | floating (value : Double)
  | text (value : Bytes)
  /-- A pointer to characters, which may be null. -/
  | cString (value : Option Bytes)
  | duration (nanoseconds : Int64)
  /-- The text of an error code, or nothing if making it throws. -/
  | errorCode (description : Option Bytes)
  | pointer (address : UInt64)

def ArgValue.normalize : ArgValue -> AttributeValue Bytes
  | attributeValue value => value
  | bool value => AttributeValue.bool value
  | signed value => AttributeValue.int64 value
  | unsigned value => AttributeValue.uint64 value
  | floating value => AttributeValue.double value
  | text value => AttributeValue.text value
  | cString value => AttributeValue.text (value.getD [])
  | duration nanoseconds => AttributeValue.int64 nanoseconds
  | errorCode description =>
      AttributeValue.text
        (description.getD (ascii "[error-code-format-error]"))
  | pointer address =>
      AttributeValue.text (ascii "0x" ++ hexadecimal address.toNat)

/-!
## The builder
-/

structure RecordBuilder where
  message : InlineText Config.MaxMessageBytes := {}
  attributeText : TextPool Config.MaxAttrTextBytes := {}
  attributes : List (LogAttribute Bytes) := []
  truncatedAttributeCount : UInt32 := 0
  truncatedBytes : UInt32 := 0
  attributes_fit : attributes.length ≤ Config.MaxAttributes := by
    exact Nat.zero_le _

namespace RecordBuilder

def setMessage (builder : RecordBuilder) (message : Bytes) : RecordBuilder :=
  let assigned :=
    InlineText.assign Config.MaxMessageBytes message builder.truncatedBytes
  { builder with message := assigned.1, truncatedBytes := assigned.2 }

def appendAttribute (builder : RecordBuilder) (key : Bytes)
    (value : AttributeValue Bytes) (kind : LogAttributeKind) :
    RecordBuilder :=
  if h : builder.attributes.length ≥ Config.MaxAttributes then
    { builder with
      truncatedAttributeCount := builder.truncatedAttributeCount + 1 }
  else
    let copied := builder.attributeText.copyText key builder.truncatedBytes
    { builder with
      attributeText := copied.2.1
      attributes := builder.attributes ++
        [{ key := copied.1, value := value, kind := kind }]
      truncatedBytes := copied.2.2
      attributes_fit := by
        rw [List.length_append, List.length_singleton]
        omega }

def attr (builder : RecordBuilder) (key : Bytes) (value : ArgValue)
    (kind : LogAttributeKind) : RecordBuilder :=
  let copied :=
    builder.attributeText.copyValue value.normalize builder.truncatedBytes
  appendAttribute
    { builder with attributeText := copied.2.1, truncatedBytes := copied.2.2 }
    key copied.1 kind

end RecordBuilder

/-!
## Builder callbacks
-/

inductive BuilderCall where
  | message (text : Bytes)
  | attr (key : Bytes) (value : ArgValue)
      (kind : LogAttributeKind := LogAttributeKind.default)

def RecordBuilder.apply (builder : RecordBuilder) :
    BuilderCall -> RecordBuilder
  | BuilderCall.message text => builder.setMessage text
  | BuilderCall.attr key value kind => builder.attr key value kind

/-- One run of a builder callback: its calls, and whether it ends by throwing. -/
structure Callback where
  calls : List BuilderCall
  throws : Bool := false

def Callback.build (callback : Callback) : RecordBuilder :=
  let builder := callback.calls.foldl RecordBuilder.apply {}
  if callback.throws then
    builder.setMessage (ascii "[log-builder-threw]")
  else
    builder

def BuilderCall.attribute? : BuilderCall -> Option (LogAttribute Bytes)
  | BuilderCall.message _ => none
  | BuilderCall.attr key value kind =>
      some { key := key, value := value.normalize, kind := kind }

/-- The attributes that the callback asks for, one for each `Attr` call. -/
def Callback.requested (callback : Callback) : List (LogAttribute Bytes) :=
  callback.calls.filterMap BuilderCall.attribute?

/-!
## The attributes kept

The first attributes are kept, as many as there are slots.  Each one is cut to
the text room that the earlier ones left, its value first.
-/

namespace LogAttribute

def textLength (a : LogAttribute Bytes) : Nat :=
  a.key.length + a.value.textLength

def cutValueFirst (room : Nat) (a : LogAttribute Bytes) :
    LogAttribute Bytes :=
  { a with
    key := a.key.take (room - a.value.textLength)
    value := a.value.map (List.take room) }

theorem cutValueFirst_eq_self (room : Nat) (a : LogAttribute Bytes)
    (h : a.textLength ≤ room) :
    cutValueFirst room a = a := by
  unfold textLength at h
  rw [cutValueFirst, AttributeValue.map_take_of_le (by omega),
    List.take_of_length_le (by omega)]

end LogAttribute

def builderCopies (requested : List (LogAttribute Bytes)) :
    List (LogAttribute Bytes) :=
  Clip.clip LogAttribute.cutValueFirst LogAttribute.textLength
    Config.MaxAttrTextBytes (requested.take Config.MaxAttributes)

namespace RecordBuilder

theorem attr_of_room {builder : RecordBuilder}
    (h : builder.attributes.length < Config.MaxAttributes)
    (key : Bytes) (value : ArgValue) (kind : LogAttributeKind) :
    (builder.attr key value kind).attributes =
        builder.attributes ++
          [LogAttribute.cutValueFirst builder.attributeText.available
            { key := key, value := value.normalize, kind := kind }] ∧
      (builder.attr key value kind).attributeText.available =
        builder.attributeText.available -
          LogAttribute.textLength
            { key := key, value := value.normalize, kind := kind } ∧
      (builder.attr key value kind).truncatedAttributeCount =
        builder.truncatedAttributeCount := by
  have hroom : ¬ builder.attributes.length ≥ Config.MaxAttributes :=
    Nat.not_le_of_lt h
  simp only [attr, appendAttribute, dif_neg hroom, TextPool.copyText_fst,
    TextPool.copyText_available, TextPool.copyValue_fst,
    TextPool.copyValue_available, LogAttribute.cutValueFirst,
    LogAttribute.textLength, true_and, and_true]
  omega

theorem attr_of_full {builder : RecordBuilder}
    (h : Config.MaxAttributes ≤ builder.attributes.length)
    (key : Bytes) (value : ArgValue) (kind : LogAttributeKind) :
    (builder.attr key value kind).attributes = builder.attributes ∧
      (builder.attr key value kind).truncatedAttributeCount =
        builder.truncatedAttributeCount + 1 := by
  simp only [attr, appendAttribute, dif_pos (show _ ≥ _ from h), and_self]

end RecordBuilder

/--
What the builder holds once `requested` have been asked for: the copies and the
count of the others, and the text room left while all of them have a slot.
-/
structure Holds (builder : RecordBuilder)
    (requested : List (LogAttribute Bytes)) : Prop where
  attributes : builder.attributes = builderCopies requested
  count : builder.truncatedAttributeCount =
    UInt32.ofNat (requested.length - Config.MaxAttributes)
  room : requested.length ≤ Config.MaxAttributes ->
    builder.attributeText.available =
      Config.MaxAttrTextBytes - Clip.total LogAttribute.textLength requested

namespace Holds

variable {builder : RecordBuilder} {requested : List (LogAttribute Bytes)}

theorem empty : Holds {} [] where
  attributes := rfl
  count := rfl
  room := fun _ => rfl

theorem setMessage (h : Holds builder requested) (message : Bytes) :
    Holds (builder.setMessage message) requested where
  attributes := h.attributes
  count := h.count
  room := h.room

theorem length_attributes (h : Holds builder requested) :
    builder.attributes.length =
      min Config.MaxAttributes requested.length := by
  rw [h.attributes, builderCopies, Clip.clip_length, List.length_take]

theorem attr (h : Holds builder requested) (key : Bytes) (value : ArgValue)
    (kind : LogAttributeKind) :
    Holds (builder.attr key value kind)
      (requested ++
        [{ key := key, value := value.normalize, kind := kind }]) := by
  have hlength := h.length_attributes
  rcases Nat.lt_or_ge requested.length Config.MaxAttributes with hroom | hfull
  · -- There is a slot, so all requested attributes have one.
    have hslot : builder.attributes.length < Config.MaxAttributes := by omega
    rcases RecordBuilder.attr_of_room hslot key value kind with
      ⟨hattributes, havailable, hcount⟩
    have hall := h.room (by omega)
    refine ⟨?_, ?_, fun _ => ?_⟩
    · rw [hattributes, h.attributes, builderCopies, builderCopies,
        List.take_of_length_le (by omega),
        List.take_of_length_le (by simp; omega), Clip.clip_append, hall]
      rfl
    · rw [hcount, h.count, List.length_append, List.length_singleton,
        Nat.sub_eq_zero_of_le (by omega), Nat.sub_eq_zero_of_le hroom]
    · rw [havailable, hall, Clip.total_append, Clip.total_cons,
        Clip.total_nil]
      omega
  · have hslots : Config.MaxAttributes ≤ builder.attributes.length := by omega
    rcases RecordBuilder.attr_of_full hslots key value kind with
      ⟨hattributes, hcount⟩
    refine ⟨?_, ?_, fun hle => ?_⟩
    · rw [hattributes, h.attributes, builderCopies, builderCopies,
        List.take_append_of_le_length hfull]
    · rw [hcount, h.count, List.length_append, List.length_singleton,
        Nat.sub_add_comm hfull, UInt32.ofNat_add]
      rfl
    · rw [List.length_append, List.length_singleton] at hle
      omega

theorem apply (h : Holds builder requested) (call : BuilderCall) :
    Holds (builder.apply call)
      (requested ++ call.attribute?.toList) := by
  cases call with
  | message text =>
      have hnone : requested ++ (BuilderCall.message text).attribute?.toList =
          requested := List.append_nil _
      rw [hnone]
      exact h.setMessage text
  | attr key value kind => exact h.attr key value kind

theorem foldl (h : Holds builder requested) (calls : List BuilderCall) :
    Holds (calls.foldl RecordBuilder.apply builder)
      (requested ++ calls.filterMap BuilderCall.attribute?) := by
  induction calls generalizing builder requested with
  | nil => simpa using h
  | cons call rest ih =>
      have hnext := ih (h.apply call)
      rw [List.append_assoc] at hnext
      cases hcall : call.attribute? with
      | none =>
          rw [hcall] at hnext
          rw [List.filterMap_cons_none hcall]
          exact hnext
      | some a =>
          rw [hcall] at hnext
          rw [List.filterMap_cons_some hcall]
          exact hnext

end Holds

theorem Callback.build_holds (callback : Callback) :
    Holds callback.build callback.requested := by
  have hcalls := Holds.empty.foldl callback.calls
  rw [List.nil_append] at hcalls
  unfold build
  split
  · exact hcalls.setMessage _
  · exact hcalls

end Record
end NginLog
