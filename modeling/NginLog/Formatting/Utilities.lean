import NginLog.Foundation.Decimal
import NginLog.Record.Types

/-!
# Formatting utilities

The functions that append the parts of a record to an output string.  Each is
given by the bytes that it appends.
-/

namespace NginLog
namespace Formatting

open Foundation Record

/--
`enum class TimestampStyle : UInt8`.  As with levels, a value need not be one
that an enumerator names.
-/
inductive TimestampStyle where
  | epochNanoseconds
  | epochMilliseconds
  | iso8601Utc
  | iso8601Local
  | unnamed (value : UInt8) (above : 3 < value)
deriving DecidableEq

/-!
## The runtime library
-/

structure Tm where
  year : Int := 1900
  month : Nat := 1
  day : Nat := 0
  hour : Nat := 0
  minute : Nat := 0
  second : Nat := 0
  /-- The seconds east of Greenwich, if the time zone is known. -/
  offset : Option Int := some 0

/-- The library functions that the formatters call. -/
structure Runtime where
  /-- `gmtime_r`, which fails without filling its result in. -/
  gmtime : Int64 -> Option Tm
  localtime : Int64 -> Option Tm
  /-- `std::format_to`, or what it has appended when it throws. -/
  formatDouble : Double -> Except Bytes Bytes

def twoDigits (n : Nat) : Bytes :=
  if n < 10 then digitByte 0 :: decimal n else decimal n

def dateTime (time : Tm) : Bytes :=
  signedDecimal time.year ++ 45 :: (twoDigits time.month ++
    45 :: (twoDigits time.day ++ 84 :: (twoDigits time.hour ++
      58 :: (twoDigits time.minute ++ 58 :: twoDigits time.second))))

def zoneOffset (time : Tm) : Bytes :=
  match time.offset with
  | none => []
  | some offset =>
      let minutes := offset.natAbs / 60
      (if offset < 0 then 45 else 43) ::
        (twoDigits (minutes / 60) ++ twoDigits (minutes % 60))

/-- `strftime` writes nothing when the text and its end do not fit. -/
def strftime (capacity : Nat) (text : Bytes) : Bytes :=
  if text.length < capacity then text else []

/-!
## Numbers and text

The buffer of 32 characters that the source uses holds every 64-bit number.
-/

def appendUnsigned (value : UInt64) : Bytes :=
  decimal value.toNat

def appendSigned (value : Int64) : Bytes :=
  signedDecimal value.toInt

def appendDouble (runtime : Runtime) (value : Double) : Bytes :=
  match runtime.formatDouble value with
  | Except.ok text => text
  | Except.error appended => appended ++ ascii "0"

def appendHexByte (value : UInt8) : Bytes :=
  [hexDigitByte (value.toNat / 16), hexDigitByte (value.toNat % 16)]

def escaped (ch : UInt8) : Bytes :=
  if ch = 92 then
    ascii "\\\\"
  else if ch = 10 then
    ascii "\\n"
  else if ch = 13 then
    ascii "\\r"
  else if ch = 9 then
    ascii "\\t"
  else if ch = 34 then
    ascii "\\\""
  else if ch < 32 then
    ascii "\\x" ++ appendHexByte ch
  else
    [ch]

def appendEscapedText (text : Bytes) : Bytes :=
  text.flatMap escaped

def jsonEscaped (ch : UInt8) : Bytes :=
  if ch = 92 then
    ascii "\\\\"
  else if ch = 34 then
    ascii "\\\""
  else if ch = 8 then
    ascii "\\b"
  else if ch = 12 then
    ascii "\\f"
  else if ch = 10 then
    ascii "\\n"
  else if ch = 13 then
    ascii "\\r"
  else if ch = 9 then
    ascii "\\t"
  else if ch < 32 then
    ascii "\\u00" ++ appendHexByte ch
  else
    [ch]

def appendJsonEscapedText (text : Bytes) : Bytes :=
  text.flatMap jsonEscaped

def appendAttributeValue (runtime : Runtime) : AttributeValue Bytes -> Bytes
  | AttributeValue.int64 v => appendSigned v
  | AttributeValue.uint64 v => appendUnsigned v
  | AttributeValue.double v => appendDouble runtime v
  | AttributeValue.bool v => if v then ascii "true" else ascii "false"
  | AttributeValue.text v =>
      ascii "\"" ++ appendEscapedText v ++ ascii "\""

def appendJsonAttributeValue (runtime : Runtime) :
    AttributeValue Bytes -> Bytes
  | AttributeValue.int64 v => appendSigned v
  | AttributeValue.uint64 v => appendUnsigned v
  | AttributeValue.double v => appendDouble runtime v
  | AttributeValue.bool v => if v then ascii "true" else ascii "false"
  | AttributeValue.text v =>
      ascii "\"" ++ appendJsonEscapedText v ++ ascii "\""

def appendLogFmtAttributeValue (runtime : Runtime) :
    AttributeValue Bytes -> Bytes
  | AttributeValue.text v =>
      ascii "\"" ++ appendEscapedText v ++ ascii "\""
  | value => appendJsonAttributeValue runtime value

/-!
## Timestamps
-/

/-- The prefix and the suffix that `FillCachedTimeParts` leaves. -/
def fillCachedTimeParts (runtime : Runtime) (style : TimestampStyle)
    (second : Int64) : Bytes × Bytes :=
  match style with
  | TimestampStyle.epochNanoseconds => ([], [])
  | TimestampStyle.epochMilliseconds => ([], [])
  | TimestampStyle.iso8601Utc =>
      let time := (runtime.gmtime second).getD {}
      (strftime 32 (dateTime time), ascii "Z")
  | _ =>
      let time := (runtime.localtime second).getD {}
      (strftime 32 (dateTime time), strftime 16 (zoneOffset time))

def fraction (nanos : UInt64) : Bytes :=
  let digits := appendUnsigned nanos
  List.replicate (9 - digits.length) 48 ++ digits

def isoTimestamp (runtime : Runtime) (timestampEpochNanoseconds : UInt64)
    (style : TimestampStyle) (cached : Bytes × Bytes) : Bytes :=
  let seconds := (timestampEpochNanoseconds / 1000000000).toInt64
  let nanos := timestampEpochNanoseconds % 1000000000
  let parts :=
    if cached.1 = [] ∧ cached.2 = [] then
      fillCachedTimeParts runtime style seconds
    else
      cached
  parts.1 ++ 46 :: (fraction nanos ++ parts.2)

def appendTimestamp (runtime : Runtime) (timestampEpochNanoseconds : UInt64)
    (style : TimestampStyle) (cached : Bytes × Bytes := ([], [])) : Bytes :=
  match style with
  | TimestampStyle.epochNanoseconds =>
      appendUnsigned timestampEpochNanoseconds
  | TimestampStyle.epochMilliseconds =>
      appendUnsigned (timestampEpochNanoseconds / 1000000)
  | TimestampStyle.iso8601Utc =>
      isoTimestamp runtime timestampEpochNanoseconds style cached
  | TimestampStyle.iso8601Local =>
      isoTimestamp runtime timestampEpochNanoseconds style cached
  | TimestampStyle.unnamed _ _ => []

end Formatting
end NginLog
