import NginLog.Foundation.Buffer
import NginLog.Record.Builder

/-!
# The buffers of a record builder

`RecordBuilder` as it lies in memory.  The message and the texts of the
attributes are in two buffers that the builder never clears, and an attribute
holds views into the second one, which later calls go on filling.  So what an
attribute shows is read from the buffer as it is at that time.

The buffers are seen through `Reads`: they show at every moment what the builder
made of texts holds after the same calls.
-/

namespace NginLog
namespace Record

open Foundation

/-- `RecordBuilder`, with its buffers. -/
structure BuilderStorage where
  messageBuffer : Bytes := List.replicate (Config.MaxMessageBytes + 1) 0
  messageSize : Nat := 0
  attributeTextBuffer : Bytes := List.replicate Config.MaxAttrTextBytes 0
  attrTextUsed : Nat := 0
  /-- The first `m_attributeCount` slots. -/
  attributes : List (LogAttribute Slice) := []
  truncatedAttributeCount : UInt32 := 0
  truncatedBytes : UInt32 := 0

/-- What an attribute with views into a buffer shows. -/
def LogAttribute.read (buffer : Bytes) (a : LogAttribute Slice) :
    LogAttribute Bytes where
  key := a.key.read buffer
  value := a.value.map fun text => text.read buffer
  kind := a.kind

namespace BuilderStorage

def setMessage (storage : BuilderStorage) (message : Bytes) :
    BuilderStorage :=
  let copyLength := min message.length Config.MaxMessageBytes
  let buffer :=
    if copyLength > 0 then
      Buffer.copy storage.messageBuffer 0 (message.take copyLength)
    else
      storage.messageBuffer
  { storage with
    messageBuffer := Buffer.copy buffer copyLength [0]
    messageSize := copyLength
    truncatedBytes :=
      if message.length > copyLength then
        storage.truncatedBytes + UInt32.ofNat (message.length - copyLength)
      else
        storage.truncatedBytes }

def getMessage (storage : BuilderStorage) : Bytes :=
  Slice.read { size := storage.messageSize } storage.messageBuffer

def getAttributes (storage : BuilderStorage) : List (LogAttribute Bytes) :=
  storage.attributes.map (LogAttribute.read storage.attributeTextBuffer)

def copyText (storage : BuilderStorage) (input : Bytes) :
    Slice × BuilderStorage :=
  if input = [] then
    ({}, storage)
  else
    let available := Config.MaxAttrTextBytes - storage.attrTextUsed
    if available = 0 then
      ({}, { storage with
        truncatedBytes := storage.truncatedBytes + UInt32.ofNat input.length })
    else
      let copyLength := min input.length available
      ({ offset := storage.attrTextUsed, size := copyLength },
        { storage with
          attributeTextBuffer :=
            Buffer.copy storage.attributeTextBuffer storage.attrTextUsed
              (input.take copyLength)
          attrTextUsed := storage.attrTextUsed + copyLength
          truncatedBytes :=
            if input.length > copyLength then
              storage.truncatedBytes + UInt32.ofNat (input.length - copyLength)
            else
              storage.truncatedBytes })

def copyValue (storage : BuilderStorage) :
    AttributeValue Bytes -> AttributeValue Slice × BuilderStorage
  | AttributeValue.int64 v => (AttributeValue.int64 v, storage)
  | AttributeValue.uint64 v => (AttributeValue.uint64 v, storage)
  | AttributeValue.double v => (AttributeValue.double v, storage)
  | AttributeValue.bool v => (AttributeValue.bool v, storage)
  | AttributeValue.text v =>
      let copied := storage.copyText v
      (AttributeValue.text copied.1, copied.2)

def appendAttribute (storage : BuilderStorage) (key : Bytes)
    (value : AttributeValue Slice) (kind : LogAttributeKind) :
    BuilderStorage :=
  if storage.attributes.length ≥ Config.MaxAttributes then
    { storage with
      truncatedAttributeCount := storage.truncatedAttributeCount + 1 }
  else
    let copied := storage.copyText key
    { copied.2 with
      attributes := copied.2.attributes ++
        [{ key := copied.1, value := value, kind := kind }] }

def attr (storage : BuilderStorage) (key : Bytes) (value : ArgValue)
    (kind : LogAttributeKind) : BuilderStorage :=
  let copied := storage.copyValue value.normalize
  copied.2.appendAttribute key copied.1 kind

def apply (storage : BuilderStorage) : BuilderCall -> BuilderStorage
  | BuilderCall.message text => storage.setMessage text
  | BuilderCall.attr key value kind => storage.attr key value kind

def after (calls : List BuilderCall) : BuilderStorage :=
  calls.foldl apply {}

end BuilderStorage

/-!
## What the buffers show
-/

def AttributeValue.Within (value : AttributeValue Slice) (used : Nat) : Prop :=
  forall text, value = AttributeValue.text text -> text.Within used

structure LogAttribute.Within (a : LogAttribute Slice) (used : Nat) : Prop where
  key : a.key.Within used
  value : a.value.Within used

/-- The pool of texts, as it lies in the buffer. -/
structure ReadsText (storage : BuilderStorage)
    (pool : TextPool Config.MaxAttrTextBytes) : Prop where
  length : storage.attributeTextBuffer.length = Config.MaxAttrTextBytes
  used : storage.attrTextUsed = pool.used.length
  filled : storage.attributeTextBuffer.take storage.attrTextUsed = pool.used

structure Extends (storage storage' : BuilderStorage) : Prop where
  used : storage.attrTextUsed ≤ storage'.attrTextUsed
  filled : storage'.attributeTextBuffer.take storage.attrTextUsed =
    storage.attributeTextBuffer.take storage.attrTextUsed
  attributes : storage.attributes <+: storage'.attributes

namespace Extends

theorem refl (storage : BuilderStorage) : Extends storage storage :=
  ⟨Nat.le_refl _, rfl, List.prefix_refl _⟩

theorem trans {first second third : BuilderStorage} (h : Extends first second)
    (h' : Extends second third) :
    Extends first third where
  used := Nat.le_trans h.used h'.used
  filled := by
    have hfilled := congrArg (List.take first.attrTextUsed) h'.filled
    rw [List.take_take, List.take_take, Nat.min_eq_left h.used] at hfilled
    rw [hfilled, h.filled]
  attributes := h.attributes.trans h'.attributes

variable {storage storage' : BuilderStorage}

theorem read_value (h : Extends storage storage')
    {value : AttributeValue Slice} (hwithin : value.Within storage.attrTextUsed) :
    (value.map fun text => text.read storage'.attributeTextBuffer) =
      value.map fun text => text.read storage.attributeTextBuffer := by
  cases value with
  | text v =>
      exact congrArg AttributeValue.text
        (Slice.read_congr (hwithin v rfl) h.filled)
  | _ => rfl

theorem read_attribute (h : Extends storage storage') {a : LogAttribute Slice}
    (hwithin : a.Within storage.attrTextUsed) :
    a.read storage'.attributeTextBuffer = a.read storage.attributeTextBuffer := by
  rw [LogAttribute.read, LogAttribute.read,
    Slice.read_congr hwithin.key h.filled, h.read_value hwithin.value]

end Extends

theorem AttributeValue.Within.mono {value : AttributeValue Slice}
    {used used' : Nat} (h : value.Within used) (hused : used ≤ used') :
    value.Within used' :=
  fun text htext => (h text htext).mono hused

theorem LogAttribute.Within.mono {a : LogAttribute Slice} {used used' : Nat}
    (h : a.Within used) (hused : used ≤ used') :
    a.Within used' :=
  ⟨h.key.mono hused, h.value.mono hused⟩

/-!
## Copying a text
-/

structure CopiedTexts (storage storage' : BuilderStorage)
    (pool : TextPool Config.MaxAttrTextBytes) (truncatedBytes : UInt32) :
    Prop where
  text : ReadsText storage' pool
  truncatedBytes : storage'.truncatedBytes = truncatedBytes
  extended : Extends storage storage'
  rest : exists buffer used bytes, storage' =
    { storage with
      attributeTextBuffer := buffer
      attrTextUsed := used
      truncatedBytes := bytes }

theorem BuilderStorage.copyText_spec {storage : BuilderStorage}
    {pool : TextPool Config.MaxAttrTextBytes} (h : ReadsText storage pool)
    (input : Bytes) :
    CopiedTexts storage (storage.copyText input).2
        (pool.copyText input storage.truncatedBytes).2.1
        (pool.copyText input storage.truncatedBytes).2.2 ∧
      (storage.copyText input).1.Within
        (storage.copyText input).2.attrTextUsed ∧
      (storage.copyText input).1.read
          (storage.copyText input).2.attributeTextBuffer =
        (pool.copyText input storage.truncatedBytes).1 := by
  have hroom : Config.MaxAttrTextBytes - storage.attrTextUsed =
      pool.available := by
    rw [TextPool.available, h.used]
  have hpool := pool.copyText_used input storage.truncatedBytes
  have hcount := pool.copyText_truncatedBytes input storage.truncatedBytes
  have hcopy := pool.copyText_fst input storage.truncatedBytes
  -- Nothing is copied.
  have hnothing : input.take pool.available = [] ->
      ReadsText storage
        (pool.copyText input storage.truncatedBytes).2.1 := by
    intro hnone
    rw [hnone, List.append_nil] at hpool
    exact ⟨h.length, hpool ▸ h.used, hpool ▸ h.filled⟩
  rw [hcount, hcopy]
  unfold BuilderStorage.copyText
  dsimp only
  rw [hroom]
  split
  · rename_i hempty
    subst hempty
    refine ⟨⟨hnothing List.take_nil, ?_, Extends.refl _, _, _, _, rfl⟩,
      Nat.zero_le _, ?_⟩
    · rw [List.length_nil, Nat.zero_sub]
      exact (UInt32.add_zero _).symm
    · rw [List.take_nil, Slice.read_empty]
  split
  · rename_i hnone
    rw [hnone] at hnothing ⊢
    have hsame := hnothing List.take_zero
    exact ⟨⟨⟨hsame.length, hsame.used, hsame.filled⟩, rfl,
      ⟨Nat.le_refl _, rfl, List.prefix_refl _⟩, _, _, _, rfl⟩,
      Nat.zero_le _, Slice.read_empty _⟩
  · have hinside : storage.attrTextUsed ≤
        storage.attributeTextBuffer.length := by
      rw [h.length, h.used]
      exact pool.fits
    have htaken : input.take (min input.length pool.available) =
        input.take pool.available := by
      rw [Nat.min_comm, ← List.take_eq_take_min]
    have hlength : (input.take pool.available).length =
        min input.length pool.available := by
      rw [List.length_take, Nat.min_comm]
    have hfilled := Buffer.take_copy hinside (input.take pool.available)
    have hself := Slice.read_copy_self hinside (input.take pool.available)
    rw [hlength] at hfilled hself
    rw [htaken]
    refine ⟨⟨⟨?_, ?_, ?_⟩, ?_, ⟨Nat.le_add_right _ _, ?_,
      List.prefix_refl _⟩, _, _, _, rfl⟩, Nat.le_refl _, hself⟩
    · rw [Buffer.copy_length (by rw [hlength, h.length]; omega), h.length]
    · rw [hpool, List.length_append, hlength, h.used]
    · rw [hpool, ← h.filled]
      exact hfilled
    · exact countCut_eq rfl storage.truncatedBytes
    · exact Buffer.take_copy_of_le (Nat.le_refl _) hinside

theorem CopiedTexts.refl {storage : BuilderStorage}
    {pool : TextPool Config.MaxAttrTextBytes} (h : ReadsText storage pool) :
    CopiedTexts storage storage pool storage.truncatedBytes :=
  ⟨h, rfl, Extends.refl _, _, _, _, rfl⟩

theorem BuilderStorage.copyValue_spec {storage : BuilderStorage}
    {pool : TextPool Config.MaxAttrTextBytes} (h : ReadsText storage pool)
    (value : AttributeValue Bytes) :
    CopiedTexts storage (storage.copyValue value).2
        (pool.copyValue value storage.truncatedBytes).2.1
        (pool.copyValue value storage.truncatedBytes).2.2 ∧
      (storage.copyValue value).1.Within
        (storage.copyValue value).2.attrTextUsed ∧
      ((storage.copyValue value).1.map fun text =>
          text.read (storage.copyValue value).2.attributeTextBuffer) =
        (pool.copyValue value storage.truncatedBytes).1 := by
  cases value with
  | text v =>
      rcases copyText_spec h v with ⟨hcopied, hwithin, hread⟩
      refine ⟨hcopied, ?_, congrArg AttributeValue.text hread⟩
      rintro text ⟨⟩
      exact hwithin
  | _ =>
      refine ⟨CopiedTexts.refl h, ?_, rfl⟩
      intro text htext
      cases htext

/-!
## One call

The terminator that `Message` writes goes behind the message.
-/

structure Reads (storage : BuilderStorage) (builder : RecordBuilder) : Prop
    where
  message : storage.getMessage = builder.message.bytes
  messageLength : storage.messageBuffer.length = Config.MaxMessageBytes + 1
  text : ReadsText storage builder.attributeText
  within : forall a, a ∈ storage.attributes -> a.Within storage.attrTextUsed
  attributes : storage.getAttributes = builder.attributes
  truncatedAttributeCount :
    storage.truncatedAttributeCount = builder.truncatedAttributeCount
  truncatedBytes : storage.truncatedBytes = builder.truncatedBytes

namespace Reads

variable {storage : BuilderStorage} {builder : RecordBuilder}

theorem empty : Reads {} {} where
  message := rfl
  messageLength := List.length_replicate
  text := ⟨List.length_replicate, rfl, rfl⟩
  within := fun a ha => by cases ha
  attributes := rfl
  truncatedAttributeCount := rfl
  truncatedBytes := rfl

theorem setMessage (h : Reads storage builder) (message : Bytes) :
    Reads (storage.setMessage message) (builder.setMessage message) := by
  generalize hcopy : min message.length Config.MaxMessageBytes = copyLength
  have hlength : (message.take copyLength).length = copyLength := by
    rw [List.length_take]
    omega
  have htaken : message.take copyLength = message.take Config.MaxMessageBytes := by
    rw [← hcopy, Nat.min_comm, ← List.take_eq_take_min]
  have hbuffer : (if copyLength > 0 then
      Buffer.copy storage.messageBuffer 0 (message.take copyLength)
    else storage.messageBuffer) =
      Buffer.copy storage.messageBuffer 0 (message.take copyLength) := by
    split
    · rfl
    · rw [show copyLength = 0 by omega, List.take_zero, Buffer.copy_nil]
  have hfull : (Buffer.copy storage.messageBuffer 0
      (message.take copyLength)).length = Config.MaxMessageBytes + 1 := by
    rw [Buffer.copy_length, h.messageLength]
    rw [hlength, h.messageLength]
    omega
  have hself := Slice.read_copy_self (Nat.zero_le storage.messageBuffer.length)
    (message.take copyLength)
  rw [hlength] at hself
  have hstored : storage.setMessage message =
      { storage with
        messageBuffer :=
          Buffer.copy
            (Buffer.copy storage.messageBuffer 0 (message.take copyLength))
            copyLength [0]
        messageSize := copyLength
        truncatedBytes := (InlineText.assign Config.MaxMessageBytes message
          storage.truncatedBytes).2 } := by
    have hcount := countCut_eq hcopy.symm storage.truncatedBytes
    rw [assign_truncatedBytes, ← hcount]
    unfold BuilderStorage.setMessage
    simp only [hcopy, hbuffer]
  rw [hstored]
  refine ⟨?_, ?_, ⟨h.text.length, h.text.used, h.text.filled⟩, h.within,
    h.attributes, h.truncatedAttributeCount, ?_⟩
  · show Slice.read { size := copyLength } (Buffer.copy _ copyLength [0]) =
      message.take Config.MaxMessageBytes
    rw [Slice.read_copy_of_within (Nat.le_of_eq (Nat.zero_add copyLength))
      (by rw [hfull]; omega), hself, htaken]
  · show (Buffer.copy _ copyLength [0]).length = _
    rw [Buffer.copy_length, hfull]
    rw [hfull, List.length_singleton]
    omega
  · rw [h.truncatedBytes]
    rfl

theorem copied {storage' : BuilderStorage}
    {pool : TextPool Config.MaxAttrTextBytes} {truncatedBytes : UInt32}
    (h : Reads storage builder)
    (hcopied : CopiedTexts storage storage' pool truncatedBytes) :
    Reads storage'
      { builder with
        attributeText := pool
        truncatedBytes := truncatedBytes } := by
  have hextended := hcopied.extended
  have htext := hcopied.text
  have hbytes := hcopied.truncatedBytes
  rcases hcopied.rest with ⟨buffer, used, bytes, rfl⟩
  refine ⟨h.message, h.messageLength, htext, ?_, ?_,
    h.truncatedAttributeCount, hbytes⟩
  · exact fun old hold => (h.within old hold).mono hextended.used
  · show _ = builder.attributes
    rw [← h.attributes]
    exact List.map_congr_left fun old hold =>
      hextended.read_attribute (h.within old hold)

theorem store {a : LogAttribute Slice} {a' : LogAttribute Bytes}
    (h : Reads storage builder) (hwithin : a.Within storage.attrTextUsed)
    (hread : a.read storage.attributeTextBuffer = a')
    (hfits : (builder.attributes ++ [a']).length ≤ Config.MaxAttributes) :
    Reads { storage with attributes := storage.attributes ++ [a] }
      { builder with
        attributes := builder.attributes ++ [a']
        attributes_fit := hfits } := by
  refine ⟨h.message, h.messageLength,
    ⟨h.text.length, h.text.used, h.text.filled⟩, ?_, ?_,
    h.truncatedAttributeCount, h.truncatedBytes⟩
  · intro other hother
    rcases List.mem_append.mp hother with hold | hnew
    · exact h.within other hold
    · cases List.mem_singleton.mp hnew
      exact hwithin
  · show (storage.attributes ++ [a]).map _ = builder.attributes ++ [a']
    rw [List.map_append, ← h.attributes, ← hread]
    rfl

theorem reject (h : Reads storage builder) :
    Reads
      { storage with
        truncatedAttributeCount := storage.truncatedAttributeCount + 1 }
      { builder with
        truncatedAttributeCount := builder.truncatedAttributeCount + 1 } :=
  ⟨h.message, h.messageLength, ⟨h.text.length, h.text.used, h.text.filled⟩,
    h.within, h.attributes, congrArg (· + 1) h.truncatedAttributeCount,
    h.truncatedBytes⟩

theorem length_attributes (h : Reads storage builder) :
    storage.attributes.length = builder.attributes.length := by
  rw [← h.attributes, BuilderStorage.getAttributes, List.length_map]

theorem attr (h : Reads storage builder) (key : Bytes) (value : ArgValue)
    (kind : LogAttributeKind) :
    Reads (storage.attr key value kind) (builder.attr key value kind) ∧
      Extends storage (storage.attr key value kind) := by
  rcases BuilderStorage.copyValue_spec h.text value.normalize with
    ⟨hvalue, hvalueWithin, hvalueRead⟩
  rw [h.truncatedBytes] at hvalue hvalueRead
  have hcopied := h.copied hvalue
  unfold BuilderStorage.attr BuilderStorage.appendAttribute RecordBuilder.attr
    RecordBuilder.appendAttribute
  dsimp only
  rw [hcopied.length_attributes]
  by_cases hfull : builder.attributes.length ≥ Config.MaxAttributes
  · rw [if_pos hfull, dif_pos hfull]
    have hextended := hvalue.extended
    exact ⟨hcopied.reject,
      ⟨hextended.used, hextended.filled, hextended.attributes⟩⟩
  · rw [if_neg hfull, dif_neg hfull]
    rcases BuilderStorage.copyText_spec hcopied.text key with
      ⟨hkey, hkeyWithin, hkeyRead⟩
    rw [hcopied.truncatedBytes] at hkey hkeyRead
    have hextended := hvalue.extended.trans hkey.extended
    refine ⟨(hcopied.copied hkey).store
      ⟨hkeyWithin, hvalueWithin.mono hkey.extended.used⟩ ?_ _,
      ⟨hextended.used, hextended.filled,
        hextended.attributes.trans (List.prefix_append _ _)⟩⟩
    rw [LogAttribute.read, hkeyRead, hkey.extended.read_value hvalueWithin,
      hvalueRead]

theorem apply (h : Reads storage builder) (call : BuilderCall) :
    Reads (storage.apply call) (builder.apply call) ∧
      Extends storage (storage.apply call) := by
  cases call with
  | message text =>
      exact ⟨h.setMessage text, ⟨Nat.le_refl _, rfl, List.prefix_refl _⟩⟩
  | attr key value kind => exact h.attr key value kind

theorem foldl (h : Reads storage builder) (calls : List BuilderCall) :
    Reads (calls.foldl BuilderStorage.apply storage)
        (calls.foldl RecordBuilder.apply builder) ∧
      Extends storage (calls.foldl BuilderStorage.apply storage) := by
  induction calls generalizing storage builder with
  | nil => exact ⟨h, Extends.refl storage⟩
  | cons call rest ih =>
      rcases h.apply call with ⟨hreads, hextends⟩
      rcases ih hreads with ⟨hlast, hrest⟩
      exact ⟨hlast, hextends.trans hrest⟩

end Reads

end Record
end NginLog
