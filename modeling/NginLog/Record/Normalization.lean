import NginLog.Context.Scopes
import NginLog.Record.LaterWins
import NginLog.Record.TruncatedBytes

/-!
# The same value in the context and in a call

`MakeOwnedContextValue` and `NormalizeValue` each test the type of a value in
their own chain of cases.  The two chains agree on every value that both of them
take, and a pair whose texts fit reaches the sinks as the same attribute.
-/

namespace NginLog
namespace Record

open Foundation Context

/-!
## Values
-/

inductive Integral where
  | bool (value : Bool)
  | signed (value : Int)
  | unsigned (value : Nat)

/-- `std::error_code`.  There is no message if `message()` throws. -/
structure ErrorCode where
  categoryName : Bytes
  value : Int32
  message : Option Bytes

def ErrorCode.text? (code : ErrorCode) : Option Bytes :=
  code.message.map fun message =>
    code.categoryName ++ 58 :: (signedDecimal code.value.toInt ++ 58 :: message)

/--
What a caller passes, by the kinds of types that the conversions tell apart.  An
object of another class, or an array, may be viewed as a text, and it may have
the members of a duration.
-/
inductive PassedValue where
  | contextValue (value : AttributeValue Bytes)
  | attributeValue (value : AttributeValue Bytes)
  | integral (value : Integral)
  | enumerator (underlying : Integral)
  /-- A floating-point number, as a `double`. -/
  | floating (value : Double)
  | stringView (value : Bytes)
  /-- A pointer to characters, which may be null. -/
  | cString (value : Option Bytes)
  /-- `std::string`, or the same with an allocator of its own. -/
  | basicString (value : Bytes)
  | object (view : Option Bytes) (nanoseconds : Option Int64)
  | errorCode (code : ErrorCode)
  | pointer (address : UInt64)

/-!
## The conversion for the context

The casts to `Int64` and `UInt64` keep the low 64 bits.
-/

def Integral.contextValue : Integral -> AttributeValue Bytes
  | Integral.bool value => AttributeValue.bool value
  | Integral.signed value => AttributeValue.int64 (Int64.ofInt value)
  | Integral.unsigned value => AttributeValue.uint64 (UInt64.ofNat value)

/--
`MakeOwnedContextValue`.  There is no value if the type is not supported, or if
an error code throws.
-/
def makeOwnedContextValue : PassedValue -> Option (AttributeValue Bytes)
  | PassedValue.contextValue value => some value
  | PassedValue.attributeValue value => some value
  | PassedValue.integral value => some value.contextValue
  | PassedValue.enumerator underlying => some underlying.contextValue
  | PassedValue.floating value => some (AttributeValue.double value)
  | PassedValue.stringView value => some (AttributeValue.text value)
  | PassedValue.cString value => some (AttributeValue.text (value.getD []))
  | PassedValue.basicString value => some (AttributeValue.text value)
  | PassedValue.object (some view) _ => some (AttributeValue.text view)
  | PassedValue.object none (some nanoseconds) =>
      some (AttributeValue.int64 nanoseconds)
  | PassedValue.object none none => none
  | PassedValue.errorCode code => code.text?.map AttributeValue.text
  | PassedValue.pointer address =>
      some (AttributeValue.text (ascii "0x" ++ hexadecimal address.toNat))

/-!
## The conversion for the builder
-/

def Integral.argument : Integral -> ArgValue
  | Integral.bool value => ArgValue.bool value
  | Integral.signed value => ArgValue.signed (Int64.ofInt value)
  | Integral.unsigned value => ArgValue.unsigned (UInt64.ofNat value)

/-- The case of `NormalizeValue` that a value comes to, if it is supported. -/
def PassedValue.argument : PassedValue -> Option ArgValue
  | PassedValue.contextValue _ => none
  | PassedValue.attributeValue value => some (ArgValue.attributeValue value)
  | PassedValue.integral value => some value.argument
  | PassedValue.enumerator underlying => some underlying.argument
  | PassedValue.floating value => some (ArgValue.floating value)
  | PassedValue.stringView value => some (ArgValue.text value)
  | PassedValue.cString value => some (ArgValue.cString value)
  -- Another allocator makes it a text by its view, not a `std::string`.
  | PassedValue.basicString value => some (ArgValue.text value)
  | PassedValue.object (some view) _ => some (ArgValue.text view)
  | PassedValue.object none (some nanoseconds) =>
      some (ArgValue.duration nanoseconds)
  | PassedValue.object none none => none
  | PassedValue.errorCode code => some (ArgValue.errorCode code.text?)
  | PassedValue.pointer address => some (ArgValue.pointer address)

/-!
## The two conversions agree
-/

theorem Integral.normalize_argument (value : Integral) :
    value.argument.normalize = value.contextValue := by
  cases value <;> rfl

theorem normalize_argument {value : PassedValue}
    {owned : AttributeValue Bytes} {argument : ArgValue}
    (howned : makeOwnedContextValue value = some owned)
    (hargument : value.argument = some argument) :
    argument.normalize = owned := by
  cases value with
  | contextValue value => cases hargument
  | integral value | enumerator value =>
      cases howned
      cases hargument
      exact value.normalize_argument
  | object view nanoseconds =>
      cases view with
      | some view =>
          cases howned
          cases hargument
          rfl
      | none =>
          cases nanoseconds with
          | some nanoseconds =>
              cases howned
              cases hargument
              rfl
          | none => cases howned
  | errorCode code =>
      -- An error code that throws has no value in the context.
      rcases Option.map_eq_some_iff.mp howned with ⟨text, htext, rfl⟩
      cases hargument
      rw [htext]
      rfl
  | _ =>
      cases howned
      cases hargument
      rfl

/-!
## The same record
-/

def messageCalls (messages : List Bytes) : List BuilderCall :=
  messages.map BuilderCall.message

/-- A callback that makes no call of `Attr`. -/
def messagesOnly (messages : List Bytes) (throws : Bool) : Callback where
  calls := messageCalls messages
  throws := throws

/-- A callback that calls `Attr` once, between messages. -/
def messagesAround (before after : List Bytes) (key : Bytes)
    (argument : ArgValue) (throws : Bool) : Callback where
  calls := messageCalls before ++
    BuilderCall.attr key argument :: messageCalls after
  throws := throws

theorem filterMap_message?_messageCalls (messages : List Bytes) :
    (messageCalls messages).filterMap BuilderCall.message? = messages := by
  rw [messageCalls, List.filterMap_map]
  exact List.filterMap_some

theorem filterMap_attribute?_messageCalls (messages : List Bytes) :
    (messageCalls messages).filterMap BuilderCall.attribute? = [] := by
  rw [messageCalls, List.filterMap_map]
  exact List.filterMap_eq_nil_iff.mpr fun _ _ => rfl

theorem requested_messagesOnly (messages : List Bytes) (throws : Bool) :
    (messagesOnly messages throws).requested = [] :=
  filterMap_attribute?_messageCalls messages

theorem requested_messagesAround (before after : List Bytes) (key : Bytes)
    (argument : ArgValue) (throws : Bool) :
    (messagesAround before after key argument throws).requested =
      [{ key := key, value := argument.normalize }] := by
  have hcall : (BuilderCall.attr key argument).attribute? =
      some { key := key, value := argument.normalize } := rfl
  rw [messagesAround, Callback.requested, List.filterMap_append,
    List.filterMap_cons_some hcall, filterMap_attribute?_messageCalls,
    filterMap_attribute?_messageCalls]
  rfl

theorem messages_messagesAround (before after : List Bytes) (key : Bytes)
    (argument : ArgValue) (throws : Bool) :
    (messagesAround before after key argument throws).messages =
      (messagesOnly (before ++ after) throws).messages := by
  rw [Callback.messages, Callback.messages, messagesAround, messagesOnly]
  dsimp only
  rw [List.filterMap_append, List.filterMap_cons_none rfl,
    filterMap_message?_messageCalls, filterMap_message?_messageCalls,
    filterMap_message?_messageCalls]

def recordOfPair (site : CallSite) (messages : List Bytes)
    (pair : LogAttribute Bytes) : LogRecordView where
  timestampEpochNanoseconds := site.timestampEpochNanoseconds
  level := site.level
  loggerName := site.loggerName
  message := (messages.getLast?.getD []).take Config.MaxMessageBytes
  source := site.source
  threadIdHash := site.threadIdHash
  attributes := [pair]
  truncatedAttributeCount := 0
  truncatedBytes := UInt32.ofNat (Clip.total messageExcess messages)

theorem loggedRecord_eq_recordOfPair (site : CallSite)
    {context : List ContextAttribute} {callback : Callback}
    {a : LogAttribute Bytes}
    (hcopies : mergedCopies context callback.requested = [a])
    (hslots : callback.requested.length ≤ Config.MaxAttributes)
    (hcontext : Clip.total LogAttribute.textLength
      (context.map ContextAttribute.toLogAttribute) ≤
        Config.MaxAttrTextBytes * 2)
    (hbytes : pooledBytes callback.requested ≤ Config.MaxAttrTextBytes) :
    loggedRecord site context callback =
      recordOfPair site callback.messages a := by
  have hmerge : KeyedMerge.merge LogAttribute.key Config.MaxAttributes [a] =
      ([a], 0) := rfl
  have hmessage : callback.build.message.bytes =
      (callback.messages.getLast?.getD []).take Config.MaxMessageBytes := by
    rw [Callback.build_message, Callback.message_eq]
  have htruncated : (mergeAttributes context callback.build).truncatedBytes =
      UInt32.ofNat (Clip.total messageExcess callback.messages) := by
    rw [mergeAttributes_truncatedBytes callback.build hcontext,
      callback.build_countsBytes.truncatedBytes, Nat.sub_eq_zero_of_le hbytes,
      Nat.add_zero]
  have hmerged := loggedRecord_merged site context callback
  rw [hcopies, hmerge, Nat.sub_eq_zero_of_le hslots] at hmerged
  unfold loggedRecord dispatchedRecord at hmerged ⊢
  dsimp only at hmerged ⊢
  rw [hmessage, hmerged.1, hmerged.2, htruncated]
  rfl

theorem loggedRecord_pushed (site : CallSite) {key : Bytes}
    {owned : AttributeValue Bytes} (messages : List Bytes) (throws : Bool)
    (hfits : key.length + owned.textLength ≤ Config.MaxAttrTextBytes) :
    loggedRecord site (contextView [[{ key := key, value := owned }]])
        (messagesOnly messages throws) =
      recordOfPair site (messagesOnly messages throws).messages
        { key := key, value := owned } := by
  have htotal : Clip.total LogAttribute.textLength
      ((contextView [[{ key := key, value := owned }]]).map
        ContextAttribute.toLogAttribute) ≤ Config.MaxAttrTextBytes * 2 :=
    Nat.le_trans hfits (by decide)
  apply loggedRecord_eq_recordOfPair site _ _ htotal _
  · rw [mergedCopies, contextCopies_of_fits htotal, requested_messagesOnly]
    rfl
  · rw [requested_messagesOnly]
    exact Nat.zero_le _
  · rw [requested_messagesOnly]
    exact Nat.zero_le _

theorem loggedRecord_given (site : CallSite) {key : Bytes}
    {argument : ArgValue} (before after : List Bytes) (throws : Bool)
    (hfits : key.length + argument.normalize.textLength ≤
      Config.MaxAttrTextBytes) :
    loggedRecord site (contextView [])
        (messagesAround before after key argument throws) =
      recordOfPair site
        (messagesAround before after key argument throws).messages
        { key := key, value := argument.normalize } := by
  have hrequested := requested_messagesAround before after key argument throws
  have htotal : Clip.total LogAttribute.textLength
      [{ key := key, value := argument.normalize }] ≤
        Config.MaxAttrTextBytes := hfits
  apply loggedRecord_eq_recordOfPair site _ _ (Nat.zero_le _) _
  · rw [hrequested, mergedCopies, builderCopies_of_fits htotal]
    rfl
  · rw [hrequested, List.length_singleton]
    decide
  · rw [hrequested]
    exact hfits

/--
A pair that is pushed as a scope of the context gives the same record as the
same pair given to `Attr` under an empty context.
-/
theorem context_and_attr_normalise_alike (site : CallSite) (key : Bytes)
    (value : PassedValue) (owned : AttributeValue Bytes) (argument : ArgValue)
    (before after : List Bytes) (throws : Bool)
    (howned : makeOwnedContextValue value = some owned)
    (hargument : value.argument = some argument)
    (hfits : key.length + owned.textLength ≤ Config.MaxAttrTextBytes) :
    loggedRecord site (contextView [[{ key := key, value := owned }]])
        (messagesOnly (before ++ after) throws) =
      loggedRecord site (contextView [])
        (messagesAround before after key argument throws) ∧
    (loggedRecord site (contextView [[{ key := key, value := owned }]])
        (messagesOnly (before ++ after) throws)).attributes =
      [{ key := key, value := owned, kind := LogAttributeKind.default }] ∧
    (loggedRecord site (contextView [[{ key := key, value := owned }]])
        (messagesOnly (before ++ after) throws)).truncatedAttributeCount =
      0 := by
  have hvalue := normalize_argument howned hargument
  have hpushed := loggedRecord_pushed site (before ++ after) throws hfits
  rw [← hvalue] at hfits
  have hgiven := loggedRecord_given site before after throws hfits
  rw [messages_messagesAround, hvalue] at hgiven
  refine ⟨hpushed.trans hgiven.symm, ?_, ?_⟩
  · rw [hpushed]
    rfl
  · rw [hpushed]
    rfl

def missingFile : ErrorCode where
  categoryName := ascii "generic"
  value := 2
  message := some (ascii "No such file or directory")

def missingFileText : Bytes :=
  ascii "generic:2:No such file or directory"

theorem error_code_normalises_alike :
    loggedRecord {}
        (contextView [[{
          key := ascii "error"
          value := AttributeValue.text missingFileText }]])
        (messagesOnly [ascii "open"] false) =
      loggedRecord {} (contextView [])
        (messagesAround [ascii "open"] [] (ascii "error")
          (ArgValue.errorCode missingFile.text?) false) :=
  (context_and_attr_normalise_alike {} (ascii "error")
    (PassedValue.errorCode missingFile) _ _ [ascii "open"] [] false
    (by decide) rfl (by decide)).1

end Record
end NginLog
