import NginLog.Async.Owned
import NginLog.Record.Builder

/-!
# Into an owned record and back

Any record view can be put into an owned record.  The view that comes back has
the texts and the attributes that an owned record has room for, and its counters
account for the rest, up to their size.
-/

namespace NginLog
namespace Async

open Foundation Record

/-!
## Records in inline texts
-/

def inlineAttribute (a : LogAttribute Bytes) : LogAttribute Bytes :=
  { a with
    key := a.key.take Config.MaxAttrTextBytes
    value := a.value.map (List.take Config.MaxAttrTextBytes) }

def inlineExcess (a : LogAttribute Bytes) : Nat :=
  (a.key.length - Config.MaxAttrTextBytes) +
    (a.value.textLength - Config.MaxAttrTextBytes)

def inlineRecord (record : LogRecordView) : LogRecordView :=
  { record with
    attributes := record.attributes.map inlineAttribute
    truncatedBytes := record.truncatedBytes +
      UInt32.ofNat (Clip.total inlineExcess record.attributes) }

def FitsInline (a : LogAttribute Bytes) : Prop :=
  a.key.length ≤ Config.MaxAttrTextBytes ∧
    a.value.textLength ≤ Config.MaxAttrTextBytes

theorem inlineAttribute_eq_self_iff (a : LogAttribute Bytes) :
    inlineAttribute a = a <-> FitsInline a := by
  constructor
  · intro h
    have hkey := congrArg (fun b => b.key.length) h
    have hvalue := congrArg (fun b => b.value) h
    simp only [inlineAttribute, List.length_take] at hkey hvalue
    refine ⟨by omega, ?_⟩
    cases hcase : a.value with
    | text v =>
        rw [hcase] at hvalue
        have hlength := congrArg AttributeValue.textLength hvalue
        simp only [AttributeValue.map, AttributeValue.textLength,
          List.length_take] at hlength
        show v.length ≤ _
        omega
    | _ => exact Nat.zero_le _
  · rintro ⟨hkey, hvalue⟩
    rw [inlineAttribute, List.take_of_length_le hkey,
      AttributeValue.map_take_of_le hvalue]

theorem inlineExcess_eq_zero {a : LogAttribute Bytes} (h : FitsInline a) :
    inlineExcess a = 0 := by
  rcases h with ⟨hkey, hvalue⟩
  unfold inlineExcess
  omega

theorem inlineRecord_eq_self_iff (record : LogRecordView) :
    inlineRecord record = record <->
      forall a, a ∈ record.attributes -> FitsInline a := by
  constructor
  · intro h a ha
    have hattributes : record.attributes.map inlineAttribute =
        record.attributes.map id := by
      rw [List.map_id]
      exact congrArg LogRecordView.attributes h
    exact (inlineAttribute_eq_self_iff a).mp
      (List.map_inj_left.mp hattributes a ha)
  · intro h
    have hattributes : record.attributes.map inlineAttribute =
        record.attributes := by
      rw [List.map_congr_left fun a ha =>
        (inlineAttribute_eq_self_iff a).mpr (h a ha), List.map_id']
    have htotal : Clip.total inlineExcess record.attributes = 0 :=
      (Clip.total_eq_zero_iff _).mpr fun a ha =>
        inlineExcess_eq_zero (h a ha)
    rw [inlineRecord, hattributes, htotal]
    show { record with truncatedBytes := record.truncatedBytes + 0 } = record
    rw [UInt32.add_zero]

/-!
## Attribute by attribute
-/

theorem ownValue_spec (value : AttributeValue Bytes) (truncatedBytes : UInt32) :
    toViewValue (ownValue value truncatedBytes).1 =
        value.map (List.take Config.MaxAttrTextBytes) ∧
      (ownValue value truncatedBytes).2 = truncatedBytes +
        UInt32.ofNat (value.textLength - Config.MaxAttrTextBytes) := by
  cases value with
  | text v => exact ⟨rfl, assign_truncatedBytes _ v truncatedBytes⟩
  | _ =>
      refine ⟨rfl, ?_⟩
      rw [AttributeValue.textLength, Nat.zero_sub]
      · exact (UInt32.add_zero _).symm
      · intro v h
        cases h

def viewAttribute (inAttr : OwnedLogAttribute) : LogAttribute Bytes where
  key := inAttr.key.bytes
  value := toViewValue inAttr.value
  kind := inAttr.kind

theorem ownAttributes_spec (attributes : List (LogAttribute Bytes))
    (truncatedBytes : UInt32) :
    (ownAttributes attributes truncatedBytes).1.map viewAttribute =
        attributes.map inlineAttribute ∧
      (ownAttributes attributes truncatedBytes).2 = truncatedBytes +
        UInt32.ofNat (Clip.total inlineExcess attributes) := by
  induction attributes generalizing truncatedBytes with
  | nil => exact ⟨rfl, (UInt32.add_zero _).symm⟩
  | cons a rest ih =>
      have hkey := assign_truncatedBytes Config.MaxAttrTextBytes a.key
        truncatedBytes
      rcases ownValue_spec a.value
        (InlineText.assign Config.MaxAttrTextBytes a.key truncatedBytes).2
        with ⟨hview, hcount⟩
      rcases ih (ownAttribute a truncatedBytes).2 with ⟨hviews, hcounts⟩
      constructor
      · rw [ownAttributes, List.map_cons, List.map_cons, hviews]
        congr 1
        show LogAttribute.mk _ (toViewValue (ownValue a.value _).1) _ = _
        rw [hview]
        rfl
      · show (ownAttributes rest (ownAttribute a truncatedBytes).2).2 = _
        rw [hcounts]
        show (ownValue a.value _).2 + _ = _
        rw [hcount, hkey, Clip.total_cons, inlineExcess, UInt32.ofNat_add,
          UInt32.ofNat_add]
        simp only [UInt32.add_assoc]

/-!
## Whole records
-/

/-- The bytes cut from the texts that are kept. -/
def bytesCut (record : LogRecordView) : Nat :=
  (record.loggerName.length - Config.MaxMessageBytes) +
    (record.message.length - Config.MaxMessageBytes) +
    Clip.total inlineExcess (record.attributes.take Config.MaxAttributes)

def attributesLeftOut (record : LogRecordView) : Nat :=
  record.attributes.length - Config.MaxAttributes

/-- A record as far as it goes into an owned record. -/
def ownedCopy (record : LogRecordView) : LogRecordView :=
  { record with
    loggerName := record.loggerName.take Config.MaxMessageBytes
    message := record.message.take Config.MaxMessageBytes
    attributes :=
      (record.attributes.take Config.MaxAttributes).map inlineAttribute
    truncatedAttributeCount := record.truncatedAttributeCount +
      UInt32.ofNat (attributesLeftOut record)
    truncatedBytes := record.truncatedBytes + UInt32.ofNat (bytesCut record) }

structure FitsOwned (record : LogRecordView) : Prop where
  loggerName : record.loggerName.length ≤ Config.MaxMessageBytes
  message : record.message.length ≤ Config.MaxMessageBytes
  attributeCount : record.attributes.length ≤ Config.MaxAttributes
  attributes : forall a, a ∈ record.attributes -> FitsInline a

/-- The counters of the view have grown by just what the record lost. -/
structure CountsExactly (record view : LogRecordView) : Prop where
  truncatedBytes : view.truncatedBytes.toNat =
    record.truncatedBytes.toNat + bytesCut record
  truncatedAttributeCount : view.truncatedAttributeCount.toNat =
    record.truncatedAttributeCount.toNat + attributesLeftOut record

def textBytes (record : LogRecordView) : Nat :=
  record.loggerName.length + record.message.length +
    Clip.total LogAttribute.textLength record.attributes

theorem deliveredView_toOwned_eq_ownedCopy (record : LogRecordView) :
    deliveredView (toOwned record) = ownedCopy record := by
  have htaken : record.attributes.take
      (min record.attributes.length Config.MaxAttributes) =
        record.attributes.take Config.MaxAttributes := by
    rw [Nat.min_comm, ← List.take_eq_take_min]
  have hcounter :
      (InlineText.assign Config.MaxMessageBytes record.message
        (InlineText.assign Config.MaxMessageBytes record.loggerName 0).2).2 =
        UInt32.ofNat ((record.loggerName.length - Config.MaxMessageBytes) +
          (record.message.length - Config.MaxMessageBytes)) := by
    rw [assign_truncatedBytes, assign_truncatedBytes, UInt32.zero_add,
      UInt32.ofNat_add]
  rcases ownAttributes_spec (record.attributes.take Config.MaxAttributes)
    (UInt32.ofNat ((record.loggerName.length - Config.MaxMessageBytes) +
      (record.message.length - Config.MaxMessageBytes)) +
        record.truncatedBytes) with ⟨hviews, hbytes⟩
  unfold toOwned deliveredView ownedCopy
  simp only [htaken, hcounter]
  congr 1
  · exact countCut_eq rfl record.truncatedAttributeCount
  · rw [hbytes, bytesCut,
      UInt32.add_comm (UInt32.ofNat _) record.truncatedBytes, UInt32.add_assoc,
      ← UInt32.ofNat_add]

theorem ownedCopy_fitsOwned (record : LogRecordView) :
    FitsOwned (ownedCopy record) where
  loggerName := List.length_take_le _ _
  message := List.length_take_le _ _
  attributeCount := by
    show ((record.attributes.take _).map inlineAttribute).length ≤ _
    rw [List.length_map]
    exact List.length_take_le _ _
  attributes := by
    intro a ha
    rcases List.mem_map.mp ha with ⟨given, _, rfl⟩
    refine ⟨List.length_take_le _ _, ?_⟩
    show (given.value.map (List.take _)).textLength ≤ _
    cases given.value with
    | text v => exact List.length_take_le _ v
    | _ => exact Nat.zero_le _

theorem ownedCopy_eq_inlineRecord {record : LogRecordView}
    (hname : record.loggerName.length ≤ Config.MaxMessageBytes)
    (hmessage : record.message.length ≤ Config.MaxMessageBytes)
    (hcount : record.attributes.length ≤ Config.MaxAttributes) :
    ownedCopy record = inlineRecord record := by
  have hbytes : bytesCut record = Clip.total inlineExcess record.attributes := by
    rw [bytesCut, Nat.sub_eq_zero_of_le hname, Nat.sub_eq_zero_of_le hmessage,
      List.take_of_length_le hcount, Nat.zero_add]
  have hleft : attributesLeftOut record = 0 := Nat.sub_eq_zero_of_le hcount
  unfold ownedCopy inlineRecord
  rw [List.take_of_length_le hname, List.take_of_length_le hmessage,
    List.take_of_length_le hcount, hbytes, hleft]
  congr 1
  exact UInt32.add_zero _

theorem ownedCopy_eq_self_iff (record : LogRecordView) :
    ownedCopy record = record <-> FitsOwned record := by
  constructor
  · intro h
    rw [← h]
    exact ownedCopy_fitsOwned record
  · rintro ⟨hname, hmessage, hcount, hattributes⟩
    rw [ownedCopy_eq_inlineRecord hname hmessage hcount]
    exact (inlineRecord_eq_self_iff record).mpr hattributes

theorem toNat_add_ofNat_eq_iff (counter : UInt32) (count : Nat) :
    (counter + UInt32.ofNat count).toNat = counter.toNat + count <->
      counter.toNat + count < 2 ^ 32 := by
  rw [UInt32.toNat_add, UInt32.toNat_ofNat']
  omega

theorem countsExactly_ownedCopy_iff (record : LogRecordView) :
    CountsExactly record (ownedCopy record) <->
      record.truncatedBytes.toNat + bytesCut record < 2 ^ 32 ∧
        record.truncatedAttributeCount.toNat + attributesLeftOut record <
          2 ^ 32 := by
  rw [← toNat_add_ofNat_eq_iff, ← toNat_add_ofNat_eq_iff]
  exact ⟨fun h => ⟨h.1, h.2⟩, fun h => ⟨h.1, h.2⟩⟩

/--
A record that goes through an owned record keeps all that has room there.  Its
counters grow by what is lost, exactly unless they wrap, and a record that was
there once does not change again.
-/
theorem owned_round_trip (record : LogRecordView) :
    deliveredView (toOwned record) = ownedCopy record ∧
      (CountsExactly record (deliveredView (toOwned record)) <->
        record.truncatedBytes.toNat + bytesCut record < 2 ^ 32 ∧
          record.truncatedAttributeCount.toNat + attributesLeftOut record <
            2 ^ 32) ∧
      (deliveredView (toOwned record) = record <-> FitsOwned record) ∧
      deliveredView (toOwned (deliveredView (toOwned record))) =
        deliveredView (toOwned record) := by
  rw [deliveredView_toOwned_eq_ownedCopy, deliveredView_toOwned_eq_ownedCopy]
  exact ⟨rfl, countsExactly_ownedCopy_iff record, ownedCopy_eq_self_iff record,
    (ownedCopy_eq_self_iff _).mpr (ownedCopy_fitsOwned record)⟩

/-- A record that has lost all that its counter can tell, and loses one more. -/
def countedOut : LogRecordView where
  message := List.replicate 513 97
  truncatedBytes := UInt32.ofNat (2 ^ 32 - 1)

theorem countedOut_wraps :
    textBytes countedOut < 2 ^ 32 ∧
      ¬ CountsExactly countedOut (deliveredView (toOwned countedOut)) := by
  refine ⟨by decide +kernel, fun h => ?_⟩
  have hbytes := h.truncatedBytes
  revert hbytes
  decide +kernel

end Async
end NginLog
