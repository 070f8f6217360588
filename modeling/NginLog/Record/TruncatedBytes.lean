import Mathlib.Logic.Basic
import NginLog.Record.CutTexts

/-!
# The count of truncated bytes

A builder counts the bytes that it cuts at the time it cuts them.  What is then
shown may have nothing missing: a message is replaced by a later one, and the
value of an attribute is copied before the attribute turns out to have no slot.
-/

namespace NginLog
namespace Record

open Foundation

def Callback.messages (callback : Callback) : List Bytes :=
  callback.calls.filterMap BuilderCall.message? ++
    if callback.throws then [ascii "[log-builder-threw]"] else []

/-- The messages that a later one takes the place of. -/
def Callback.replacedMessages (callback : Callback) : List Bytes :=
  callback.messages.dropLast

/-- The texts that a builder is given, in bytes. -/
def Callback.inputBytes (callback : Callback) : Nat :=
  Clip.total List.length callback.messages +
    Clip.total LogAttribute.textLength callback.requested

/-- The texts of the attributes that have a slot, in bytes. -/
def slotBytes (requested : List (LogAttribute Bytes)) : Nat :=
  Clip.total LogAttribute.textLength (requested.take Config.MaxAttributes)

/-- The values of the attributes that have none, in bytes. -/
def rejectedValueBytes (requested : List (LogAttribute Bytes)) : Nat :=
  Clip.total (fun a => a.value.textLength)
    (requested.drop Config.MaxAttributes)

/-- The bytes of the last message and of the stored attributes not shown. -/
def Callback.missingBytes (callback : Callback) : Nat :=
  (callback.message.length - callback.build.message.bytes.length) +
    Clip.total (fun pair => pair.1.textLength - pair.2.textLength)
      (callback.requested.zip callback.build.attributes)

/-!
## What is counted
-/

def messageExcess (message : Bytes) : Nat :=
  message.length - Config.MaxMessageBytes

def pooledBytes (requested : List (LogAttribute Bytes)) : Nat :=
  slotBytes requested + rejectedValueBytes requested

theorem pooledBytes_append_of_lt {requested : List (LogAttribute Bytes)}
    (h : requested.length < Config.MaxAttributes) (a : LogAttribute Bytes) :
    pooledBytes (requested ++ [a]) = pooledBytes requested + a.textLength := by
  unfold pooledBytes slotBytes rejectedValueBytes
  rw [List.take_of_length_le (by rw [List.length_append]; exact h),
    List.take_of_length_le (Nat.le_of_lt h),
    List.drop_of_length_le (by rw [List.length_append]; exact h),
    List.drop_of_length_le (Nat.le_of_lt h), Clip.total_append]
  rfl

theorem pooledBytes_append_of_le {requested : List (LogAttribute Bytes)}
    (h : Config.MaxAttributes ≤ requested.length) (a : LogAttribute Bytes) :
    pooledBytes (requested ++ [a]) =
      pooledBytes requested + a.value.textLength := by
  unfold pooledBytes slotBytes rejectedValueBytes
  rw [List.take_append_of_le_length h, List.drop_append_of_le_length h,
    Clip.total_append, ← Nat.add_assoc]
  rfl

theorem count_add (excess spent size capacity : Nat) :
    UInt32.ofNat (excess + (spent - capacity)) +
        UInt32.ofNat (size - (capacity - spent)) =
      UInt32.ofNat (excess + (spent + size - capacity)) := by
  rw [← UInt32.ofNat_add]
  congr 1
  omega

/-- A builder's count, after some messages and some attributes. -/
structure CountsBytes (builder : RecordBuilder) (messages : List Bytes)
    (requested : List (LogAttribute Bytes)) : Prop where
  slots : builder.attributes.length =
    min Config.MaxAttributes requested.length
  available : builder.attributeText.available =
    Config.MaxAttrTextBytes - pooledBytes requested
  truncatedBytes : builder.truncatedBytes =
    UInt32.ofNat (Clip.total messageExcess messages +
      (pooledBytes requested - Config.MaxAttrTextBytes))

namespace CountsBytes

variable {builder : RecordBuilder} {messages : List Bytes}
  {requested : List (LogAttribute Bytes)}

theorem empty : CountsBytes {} [] [] :=
  ⟨rfl, rfl, rfl⟩

theorem setMessage (h : CountsBytes builder messages requested)
    (message : Bytes) :
    CountsBytes (builder.setMessage message) (messages ++ [message])
      requested where
  slots := h.slots
  available := h.available
  truncatedBytes := by
    have hcount := assign_truncatedBytes Config.MaxMessageBytes message
      builder.truncatedBytes
    rw [h.truncatedBytes, ← UInt32.ofNat_add] at hcount
    rw [Clip.total_append, Clip.total_cons, Clip.total_nil, messageExcess,
      Nat.add_zero, Nat.add_right_comm, ← hcount, ← h.truncatedBytes]
    rfl

theorem attr (h : CountsBytes builder messages requested) (key : Bytes)
    (value : ArgValue) (kind : LogAttributeKind) :
    CountsBytes (builder.attr key value kind) messages
      (requested ++
        [{ key := key, value := value.normalize, kind := kind }]) := by
  have hslots := h.slots
  have hlength : forall a : LogAttribute Bytes,
      (requested ++ [a]).length = requested.length + 1 := fun a =>
    List.length_append
  unfold RecordBuilder.attr RecordBuilder.appendAttribute
  dsimp only
  split
  · -- Only the value is copied.
    rename_i hfull
    have hrequested : Config.MaxAttributes ≤ requested.length := by omega
    refine ⟨?_, ?_, ?_⟩
    · rw [hlength]
      show builder.attributes.length = _
      omega
    · rw [TextPool.copyValue_available, h.available,
        pooledBytes_append_of_le hrequested, Nat.sub_sub]
    · rw [TextPool.copyValue_truncatedBytes, h.truncatedBytes, h.available,
        pooledBytes_append_of_le hrequested, count_add]
  · rename_i hroom
    have hrequested : requested.length < Config.MaxAttributes := by omega
    refine ⟨?_, ?_, ?_⟩
    · rw [hlength, List.length_append, List.length_singleton]
      omega
    · rw [TextPool.copyText_available, TextPool.copyValue_available,
        h.available, pooledBytes_append_of_lt hrequested,
        LogAttribute.textLength]
      dsimp only
      omega
    · rw [TextPool.copyText_truncatedBytes, TextPool.copyValue_truncatedBytes,
        TextPool.copyValue_available, h.truncatedBytes, h.available,
        pooledBytes_append_of_lt hrequested, count_add, Nat.sub_sub, count_add,
        LogAttribute.textLength, Nat.add_right_comm, Nat.add_assoc]

theorem foldl (calls : List BuilderCall) :
    CountsBytes (calls.foldl RecordBuilder.apply {})
      (calls.filterMap BuilderCall.message?)
      (calls.filterMap BuilderCall.attribute?) := by
  induction calls using List.reverseRecOn with
  | nil => exact empty
  | append_singleton rest call ih =>
      rw [List.foldl_append, List.filterMap_append, List.filterMap_append]
      cases call with
      | message text =>
          have hnone : [BuilderCall.message text].filterMap
              BuilderCall.attribute? = [] := rfl
          rw [hnone, List.append_nil]
          exact ih.setMessage text
      | attr key value kind =>
          have hnone : [BuilderCall.attr key value kind].filterMap
              BuilderCall.message? = [] := rfl
          rw [hnone, List.append_nil]
          exact ih.attr key value kind

end CountsBytes

theorem Callback.build_countsBytes (callback : Callback) :
    CountsBytes callback.build callback.messages callback.requested := by
  have hcalls := CountsBytes.foldl callback.calls
  unfold build messages
  dsimp only
  split
  · exact hcalls.setMessage _
  · rw [List.append_nil]
    exact hcalls

/-!
## What is missing
-/

theorem LogAttribute.textLength_cutValueFirst (room : Nat)
    (a : LogAttribute Bytes) :
    (a.cutValueFirst room).textLength = min a.textLength room := by
  have hvalue : (a.value.map (List.take room)).textLength =
      min a.value.textLength room := by
    cases a.value with
    | text v => exact (List.length_take).trans (Nat.min_comm _ _)
    | _ => exact (Nat.zero_min room).symm
  rw [textLength, textLength, cutValueFirst, hvalue, List.length_take]
  omega

theorem Callback.message_eq (callback : Callback) :
    callback.message = callback.messages.getLast?.getD [] := by
  unfold message messages
  split
  · rw [List.getLast?_concat, Option.getD_some]
  · rw [List.append_nil]

theorem Callback.total_messageExcess (callback : Callback) :
    Clip.total messageExcess callback.messages =
      Clip.total messageExcess callback.replacedMessages +
        messageExcess callback.message := by
  rw [message_eq, replacedMessages]
  generalize callback.messages = messages
  cases messages using List.reverseRecOn with
  | nil => rfl
  | append_singleton rest last =>
      rw [List.dropLast_concat, List.getLast?_concat, Option.getD_some,
        Clip.total_append, Clip.total_cons, Clip.total_nil, Nat.add_zero]

theorem Callback.missingBytes_eq (callback : Callback) :
    callback.missingBytes = messageExcess callback.message +
      (slotBytes callback.requested - Config.MaxAttrTextBytes) := by
  have hcopies := callback.build_holds.attributes
  have hkept : callback.requested.zip (builderCopies callback.requested) =
      (callback.requested.take Config.MaxAttributes).zip
        (builderCopies callback.requested) := by
    have hlength : (callback.requested.take Config.MaxAttributes).length =
        (builderCopies callback.requested).length := by
      rw [builderCopies, Clip.clip_length]
    have hzip : List.zip
        (callback.requested.take Config.MaxAttributes ++
          callback.requested.drop Config.MaxAttributes)
        (builderCopies callback.requested ++ []) = _ ++ _ :=
      List.zip_append hlength
    rwa [List.take_append_drop, List.append_nil, List.zip_nil_right,
      List.append_nil] at hzip
  rw [missingBytes, callback.build_message, hcopies, hkept, builderCopies,
    Clip.total_cut_clip LogAttribute.textLength_cutValueFirst, slotBytes,
    messageExcess, List.length_take]
  omega

/-!
## When both agree
-/

theorem total_messageExcess_eq_zero_iff {messages : List Bytes} :
    Clip.total messageExcess messages = 0 <->
      forall m, m ∈ messages -> m.length ≤ Config.MaxMessageBytes := by
  rw [Clip.total_eq_zero_iff]
  exact forall₂_congr fun m _ => Nat.sub_eq_zero_iff_le

theorem pooledBytes_le (requested : List (LogAttribute Bytes)) :
    pooledBytes requested ≤ Clip.total LogAttribute.textLength requested := by
  calc
    pooledBytes requested ≤
        Clip.total LogAttribute.textLength
            (requested.take Config.MaxAttributes) +
          Clip.total LogAttribute.textLength
            (requested.drop Config.MaxAttributes) :=
      Nat.add_le_add_left
        (Clip.total_le_total (fun _ => Nat.le_add_left _ _) _) _
    _ = Clip.total LogAttribute.textLength requested := by
      rw [← Clip.total_append, List.take_append_drop]

/--
The count is that of the missing bytes just if no replaced message was cut, and
the values without a slot were none or found room behind the others.
-/
theorem truncatedBytes_eq_missingBytes_iff (callback : Callback)
    (h : callback.inputBytes < 2 ^ 32) :
    callback.build.truncatedBytes.toNat = callback.missingBytes <->
      (forall m, m ∈ callback.replacedMessages ->
        m.length ≤ Config.MaxMessageBytes) ∧
      (rejectedValueBytes callback.requested = 0 ∨
        slotBytes callback.requested + rejectedValueBytes callback.requested ≤
          Config.MaxAttrTextBytes) := by
  have hmessages : Clip.total messageExcess callback.messages ≤
      Clip.total List.length callback.messages :=
    Clip.total_le_total (fun _ => Nat.sub_le _ _) _
  have hpooled := pooledBytes_le callback.requested
  have hsplit := callback.total_messageExcess
  unfold Callback.inputBytes at h
  rw [callback.build_countsBytes.truncatedBytes, UInt32.toNat_ofNat',
    Nat.mod_eq_of_lt (by omega), callback.missingBytes_eq,
    ← total_messageExcess_eq_zero_iff]
  unfold pooledBytes
  omega

theorem truncatedBytes_of_short_messages :
    (Callback.mk [BuilderCall.message [104, 105]] true).build.truncatedBytes.toNat
      = (Callback.mk [BuilderCall.message [104, 105]] true).missingBytes :=
  (truncatedBytes_eq_missingBytes_iff _ (by decide)).mpr (by decide)

def replacedLongMessage : Callback where
  calls := [BuilderCall.message (List.replicate 513 97),
    BuilderCall.message [111, 107]]

theorem truncatedBytes_of_replacedLongMessage :
    replacedLongMessage.inputBytes < 2 ^ 32 ∧
      replacedLongMessage.build.truncatedBytes.toNat ≠
        replacedLongMessage.missingBytes := by
  decide +kernel

end Record
end NginLog
