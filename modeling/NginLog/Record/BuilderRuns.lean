import NginLog.Record.BuilderStorage
import NginLog.Record.CutTexts

/-!
# Runs of builder calls

A builder keeps the first attributes it is asked for, each with the text that
found room, and the message it was given last.  What it shows of a stored
attribute stays the same, though later calls write to the same buffers.
-/

namespace NginLog
namespace Record

open Foundation

/-- The attributes that some calls ask for, one for each `Attr` call. -/
def requestedBy (calls : List BuilderCall) : List (LogAttribute Bytes) :=
  calls.filterMap BuilderCall.attribute?

def lastMessage (calls : List BuilderCall) : Bytes :=
  (calls.filterMap BuilderCall.message?).getLast?.getD []

/-- What a builder keeps of the calls, inside its bounds. -/
structure KeepsCalls (calls : List BuilderCall) (storage : BuilderStorage) :
    Prop where
  slots : storage.attributes.length ≤ Config.MaxAttributes
  poolUse : storage.attrTextUsed ≤ Config.MaxAttrTextBytes
  /-- Nothing is written behind the buffers. -/
  pool : storage.attributeTextBuffer.length = Config.MaxAttrTextBytes
  messageBuffer : storage.messageBuffer.length = Config.MaxMessageBytes + 1
  /-- The value is cut to the text room that is left, and then the key. -/
  kept : forall i, i < Config.MaxAttributes ->
    storage.getAttributes[i]? = (requestedBy calls)[i]?.map
      (LogAttribute.cutValueFirst (Config.MaxAttrTextBytes -
        Clip.total LogAttribute.textLength ((requestedBy calls).take i)))
  message : storage.getMessage = (lastMessage calls).take Config.MaxMessageBytes

/-- The attributes stored and those counted as left out are all there were. -/
def CountsCalls (calls : List BuilderCall) (storage : BuilderStorage) : Prop :=
  storage.attributes.length + storage.truncatedAttributeCount.toNat =
    (requestedBy calls).length

namespace BuilderStorage

theorem after_reads (calls : List BuilderCall) :
    Reads (after calls) (calls.foldl RecordBuilder.apply {}) :=
  (Reads.empty.foldl calls).1

theorem after_append (calls later : List BuilderCall) :
    after (calls ++ later) = later.foldl apply (after calls) :=
  List.foldl_append

theorem holds_requestedBy (calls : List BuilderCall) :
    Holds (calls.foldl RecordBuilder.apply {}) (requestedBy calls) := by
  have hcalls := Holds.empty.foldl calls
  rwa [List.nil_append] at hcalls

theorem length_attributes_after (calls : List BuilderCall) :
    (after calls).attributes.length =
      min Config.MaxAttributes (requestedBy calls).length := by
  rw [(after_reads calls).length_attributes,
    (holds_requestedBy calls).length_attributes]

theorem after_truncatedAttributeCount (calls : List BuilderCall) :
    (after calls).truncatedAttributeCount.toNat =
      ((requestedBy calls).length - Config.MaxAttributes) % 2 ^ 32 := by
  rw [(after_reads calls).truncatedAttributeCount,
    (holds_requestedBy calls).count, UInt32.toNat_ofNat']

theorem after_keepsCalls (calls : List BuilderCall) :
    KeepsCalls calls (after calls) := by
  have hreads := after_reads calls
  have hholds := holds_requestedBy calls
  refine ⟨?_, ?_, hreads.text.length, hreads.messageLength, ?_, ?_⟩
  · rw [length_attributes_after]
    exact Nat.min_le_left _ _
  · rw [hreads.text.used]
    exact TextPool.fits _
  · intro i hi
    rw [hreads.attributes, hholds.attributes, builderCopies,
      Clip.clip_getElem?, List.getElem?_take_of_lt hi, List.take_take,
      Nat.min_eq_left (Nat.le_of_lt hi)]
  · rw [hreads.message, RecordBuilder.message_foldl, lastMessage]
    cases (calls.filterMap BuilderCall.message?).getLast? with
    | none => rfl
    | some text => rfl

theorem after_getAttributes_prefix (calls later : List BuilderCall) :
    (after calls).getAttributes <+: (after (calls ++ later)).getAttributes := by
  have hreads := after_reads calls
  have hextends := (hreads.foldl later).2
  rw [← after_append] at hextends
  have hsame : (after calls).getAttributes =
      (after calls).attributes.map
        (LogAttribute.read (after (calls ++ later)).attributeTextBuffer) :=
    List.map_congr_left fun a ha =>
      (hextends.read_attribute (hreads.within a ha)).symm
  rw [hsame]
  exact hextends.attributes.map _

end BuilderStorage

/--
Over every run of calls the builder keeps the first attributes and the last
message, and later calls change nothing of what is stored.  The count of the
others is exact until it wraps.
-/
theorem builder_keeps_calls (calls later : List BuilderCall) :
    KeepsCalls calls (BuilderStorage.after calls) ∧
      ((BuilderStorage.after calls).attributes.length +
          (BuilderStorage.after calls).truncatedAttributeCount.toNat) % 2 ^ 32 =
        (requestedBy calls).length % 2 ^ 32 ∧
      (CountsCalls calls (BuilderStorage.after calls) <->
        (requestedBy calls).length -
          (BuilderStorage.after calls).attributes.length < 2 ^ 32) ∧
      (BuilderStorage.after calls).getAttributes <+:
        (BuilderStorage.after (calls ++ later)).getAttributes := by
  have hstored := BuilderStorage.length_attributes_after calls
  have hcount := BuilderStorage.after_truncatedAttributeCount calls
  have hslots : Config.MaxAttributes = 8 := rfl
  refine ⟨BuilderStorage.after_keepsCalls calls, ?_, ?_,
    BuilderStorage.after_getAttributes_prefix calls later⟩
  · omega
  · unfold CountsCalls
    omega

/-- One `Attr` call more than the slots and the counter can tell. -/
theorem builder_count_wraps :
    ¬ CountsCalls
      (List.replicate (2 ^ 32 + 8) (BuilderCall.attr [] (ArgValue.bool true)))
      (BuilderStorage.after (List.replicate (2 ^ 32 + 8)
        (BuilderCall.attr [] (ArgValue.bool true)))) := by
  generalize hcalls : List.replicate (2 ^ 32 + 8)
    (BuilderCall.attr [] (ArgValue.bool true)) = calls
  have hone : (BuilderCall.attr [] (ArgValue.bool true)).attribute? =
      some { key := [], value := AttributeValue.bool true } := rfl
  have hrequested : (requestedBy calls).length = 2 ^ 32 + 8 := by
    rw [← hcalls, requestedBy, List.filterMap_replicate_of_some hone,
      List.length_replicate]
  have hstored := BuilderStorage.length_attributes_after calls
  have hcount := BuilderStorage.after_truncatedAttributeCount calls
  have hslots : Config.MaxAttributes = 8 := rfl
  unfold CountsCalls
  omega

end Record
end NginLog
