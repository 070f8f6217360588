import NginLog.Foundation.Decimal
import NginLog.Record.Types

/-!
# Owned records on the queue

`ToOwned` copies a record view into the inline representation that the queue
holds, and `Deliver` builds from it the view that the wrapped sink receives.
The text of a drop report is assembled in a bounded buffer.
-/

namespace NginLog
namespace Async

open Record

/-!
## From a view to an owned record
-/

def ownValue : AttributeValue Bytes -> UInt32 -> OwnedAttributeValue × UInt32
  | AttributeValue.int64 v, truncatedBytes =>
      (OwnedAttributeValue.int64 v, truncatedBytes)
  | AttributeValue.uint64 v, truncatedBytes =>
      (OwnedAttributeValue.uint64 v, truncatedBytes)
  | AttributeValue.double v, truncatedBytes =>
      (OwnedAttributeValue.double v, truncatedBytes)
  | AttributeValue.bool v, truncatedBytes =>
      (OwnedAttributeValue.bool v, truncatedBytes)
  | AttributeValue.text v, truncatedBytes =>
      let assigned := InlineText.assign Config.MaxAttrTextBytes v truncatedBytes
      (OwnedAttributeValue.text assigned.1, assigned.2)

def ownAttribute (inAttr : LogAttribute Bytes) (truncatedBytes : UInt32) :
    OwnedLogAttribute × UInt32 :=
  let key :=
    InlineText.assign Config.MaxAttrTextBytes inAttr.key truncatedBytes
  let value := ownValue inAttr.value key.2
  ({ key := key.1, value := value.1, kind := inAttr.kind }, value.2)

def ownAttributes : List (LogAttribute Bytes) -> UInt32 ->
    List OwnedLogAttribute × UInt32
  | [], truncatedBytes => ([], truncatedBytes)
  | inAttr :: rest, truncatedBytes =>
      let first := ownAttribute inAttr truncatedBytes
      let others := ownAttributes rest first.2
      (first.1 :: others.1, others.2)

theorem ownAttributes_length (attributes : List (LogAttribute Bytes))
    (truncatedBytes : UInt32) :
    (ownAttributes attributes truncatedBytes).1.length = attributes.length := by
  induction attributes generalizing truncatedBytes with
  | nil => rfl
  | cons inAttr rest ih =>
      simp [ownAttributes, ih]

def toOwned (record : LogRecordView) : OwnedLogRecord :=
  let loggerName :=
    InlineText.assign Config.MaxMessageBytes record.loggerName 0
  let message :=
    InlineText.assign Config.MaxMessageBytes record.message loggerName.2
  let count := min record.attributes.length Config.MaxAttributes
  let attributes :=
    ownAttributes (record.attributes.take count)
      (message.2 + record.truncatedBytes)
  { timestampEpochNanoseconds := record.timestampEpochNanoseconds
    level := record.level
    loggerName := loggerName.1
    message := message.1
    source := record.source
    threadIdHash := record.threadIdHash
    attributes := attributes.1
    truncatedAttributeCount :=
      if record.attributes.length > count then
        record.truncatedAttributeCount +
          UInt32.ofNat (record.attributes.length - count)
      else
        record.truncatedAttributeCount
    truncatedBytes := attributes.2
    attributes_fit := by
      rw [ownAttributes_length, List.length_take]
      omega }

/-!
## From an owned record to the delivered view
-/

def toViewValue : OwnedAttributeValue -> AttributeValue Bytes
  | OwnedAttributeValue.monostate => AttributeValue.int64 0
  | OwnedAttributeValue.int64 v => AttributeValue.int64 v
  | OwnedAttributeValue.uint64 v => AttributeValue.uint64 v
  | OwnedAttributeValue.double v => AttributeValue.double v
  | OwnedAttributeValue.bool v => AttributeValue.bool v
  | OwnedAttributeValue.text v => AttributeValue.text v.bytes

/-- The view that `Deliver(owned)` passes to the wrapped sink. -/
def deliveredView (owned : OwnedLogRecord) : LogRecordView where
  timestampEpochNanoseconds := owned.timestampEpochNanoseconds
  level := owned.level
  loggerName := owned.loggerName.bytes
  message := owned.message.bytes
  source := owned.source
  threadIdHash := owned.threadIdHash
  attributes := owned.attributes.map fun inAttr =>
    { key := inAttr.key.bytes
      value := toViewValue inAttr.value
      kind := inAttr.kind }
  truncatedAttributeCount := owned.truncatedAttributeCount
  truncatedBytes := owned.truncatedBytes

/-!
## Drop reports
-/

/-- The `append` of a drop report: what fits before the buffer's last byte. -/
def appendClipped (written part : Bytes) : Bytes :=
  written ++ part.take (Config.MaxMessageBytes - written.length)

def dropReportMessage (dropped : Nat) : Bytes :=
  appendClipped
    (appendClipped (appendClipped [] (ascii "Dropped "))
      (Foundation.decimal dropped))
    (ascii " log records due to async overflow.")

end Async
end NginLog
