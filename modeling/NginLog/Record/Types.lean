import Mathlib.Data.List.Basic

/-!
# Records and attributes

The data that the logger moves: levels, attribute values, the record view that
a sink receives, and the owned inline record that the asynchronous sink queues.

Text is a list of bytes.  Attribute values are generic in how they hold text,
because the source has three holders for the same five alternatives: a view
into a buffer, an owned string, and an inline buffer.
-/

namespace NginLog
namespace Record

abbrev Bytes := List UInt8

def ascii (literal : String) : Bytes :=
  literal.toList.map fun c => UInt8.ofNat c.toNat

/-!
## Limits
-/

namespace Config

def MaxMessageBytes : Nat := 512

def MaxAttributes : Nat := 8

def MaxAttrTextBytes : Nat := 256

end Config

/-!
## Levels and kinds
-/

/--
`enum class LogLevel : UInt8`.  The underlying type is fixed, so a level may
also hold a value that no enumerator names.
-/
inductive LogLevel where
  | trace
  | debug
  | info
  | warn
  | error
  | fatal
  | off
  | unnamed (value : UInt8) (above : 6 < value)
deriving DecidableEq

namespace LogLevel

def toUInt8 : LogLevel -> UInt8
  | trace => 0
  | debug => 1
  | info => 2
  | warn => 3
  | error => 4
  | fatal => 5
  | off => 6
  | unnamed value _ => value

def name : LogLevel -> Bytes
  | trace => ascii "Trace"
  | debug => ascii "Debug"
  | info => ascii "Info"
  | warn => ascii "Warn"
  | error => ascii "Error"
  | fatal => ascii "Fatal"
  | off => ascii "Off"
  | unnamed _ _ => ascii "Unknown"

end LogLevel

inductive LogAttributeKind where
  | default
  | tag
  | context
  | extra
deriving DecidableEq, Inhabited

/-!
## Attribute values
-/

structure Double where
  bits : UInt64
deriving DecidableEq, Inhabited

/-- The exponent field is not all ones. -/
def Double.Finite (d : Double) : Prop :=
  (d.bits >>> 52) &&& 0x7FF ≠ 0x7FF

instance (d : Double) : Decidable d.Finite :=
  inferInstanceAs (Decidable (_ ≠ _))

/--
The variant of the five attribute alternatives, holding text as `text`.
With `Bytes` it is both `AttributeValue` (a resolved view) and
`ContextValue` (an owned string).
-/
inductive AttributeValue (text : Type) where
  | int64 (v : Int64)
  | uint64 (v : UInt64)
  | double (v : Double)
  | bool (v : Bool)
  | text (v : text)
deriving DecidableEq

namespace AttributeValue

variable {text other : Type}

instance : Inhabited (AttributeValue text) := ⟨int64 0⟩

def map (f : text -> other) : AttributeValue text -> AttributeValue other
  | int64 v => int64 v
  | uint64 v => uint64 v
  | double v => double v
  | bool v => bool v
  | AttributeValue.text v => AttributeValue.text (f v)

def textLength : AttributeValue Bytes -> Nat
  | AttributeValue.text v => v.length
  | _ => 0

end AttributeValue

structure LogAttribute (text : Type) where
  key : text
  value : AttributeValue text
  kind : LogAttributeKind := LogAttributeKind.default
deriving DecidableEq

/-- An attribute of the thread's context; its texts are owned strings. -/
structure ContextAttribute where
  key : Bytes := []
  value : AttributeValue Bytes := default
deriving DecidableEq, Inhabited

structure SourceLocation where
  fileName : Bytes := []
  line : UInt32 := 0
deriving DecidableEq, Inhabited

structure LogRecordView where
  timestampEpochNanoseconds : UInt64 := 0
  level : LogLevel := LogLevel.info
  loggerName : Bytes := []
  message : Bytes := []
  source : SourceLocation := {}
  threadIdHash : UInt64 := 0
  attributes : List (LogAttribute Bytes) := []
  truncatedAttributeCount : UInt32 := 0
  truncatedBytes : UInt32 := 0
deriving DecidableEq

/-!
## Owned records

The inline copies that the asynchronous sink queues.  The bytes past the size
of an inline text are never read, so only the text itself is kept, together
with the bound that its buffer imposes.
-/

structure InlineText (capacity : Nat) where
  bytes : Bytes := []
  fits : bytes.length ≤ capacity := by exact Nat.zero_le _
deriving DecidableEq

def InlineText.assign (capacity : Nat) (input : Bytes) (truncatedBytes : UInt32) :
    InlineText capacity × UInt32 :=
  (⟨input.take capacity, List.length_take_le capacity input⟩,
    if input.length > capacity then
      truncatedBytes + UInt32.ofNat (input.length - capacity)
    else
      truncatedBytes)

inductive OwnedAttributeValue where
  | monostate
  | int64 (v : Int64)
  | uint64 (v : UInt64)
  | double (v : Double)
  | bool (v : Bool)
  | text (v : InlineText Config.MaxAttrTextBytes)
deriving DecidableEq

structure OwnedLogAttribute where
  key : InlineText Config.MaxAttrTextBytes := {}
  value : OwnedAttributeValue := OwnedAttributeValue.monostate
  kind : LogAttributeKind := LogAttributeKind.default
deriving DecidableEq

/--
`OwnedLogRecord`.  The first `attributeCount` slots of its attribute
array are the list here; the slots after them are never read.
-/
structure OwnedLogRecord where
  timestampEpochNanoseconds : UInt64 := 0
  level : LogLevel := LogLevel.info
  loggerName : InlineText Config.MaxMessageBytes := {}
  message : InlineText Config.MaxMessageBytes := {}
  source : SourceLocation := {}
  threadIdHash : UInt64 := 0
  attributes : List OwnedLogAttribute := []
  truncatedAttributeCount : UInt32 := 0
  truncatedBytes : UInt32 := 0
  attributes_fit : attributes.length ≤ Config.MaxAttributes := by
    exact Nat.zero_le _
deriving DecidableEq

instance : Inhabited OwnedLogRecord := ⟨{}⟩

end Record
end NginLog
