import NginLog.Formatting.JsonRecordFormatter

/-!
# Record formatters

`IRecordFormatter` and the three formatters behind it.  A formatter is an object
of its own: the text formatter remembers the date and time of the last second
that it has written.
-/

namespace NginLog
namespace Formatting

open Foundation Record

/-- `Format` puts the text of a record in place of what its output held. -/
structure RecordFormatter where
  State : Type
  init : State
  format : State -> LogRecordView -> Bytes -> Bytes × State

namespace RecordFormatter

/-- The state after earlier calls, each with its record and its output. -/
def after (formatter : RecordFormatter) :
    List (LogRecordView × Bytes) -> formatter.State :=
  List.foldl (fun state call => (formatter.format state call.1 call.2).2)
    formatter.init

def outputAfter (formatter : RecordFormatter)
    (earlier : List (LogRecordView × Bytes)) (record : LogRecordView)
    (output : Bytes) : Bytes :=
  (formatter.format (formatter.after earlier) record output).1

end RecordFormatter

/-!
## Text
-/

structure TextRecordFormatterOptions where
  includeSource : Bool := true
  timestampStyle : TimestampStyle := TimestampStyle.iso8601Local

structure TimestampCache where
  second : Int64 := -1
  parts : Bytes × Bytes := ([], [])

def TimestampCache.refresh (runtime : Runtime) (style : TimestampStyle)
    (second : Int64) (cache : TimestampCache) : TimestampCache :=
  if (style = TimestampStyle.iso8601Utc ∨ style = TimestampStyle.iso8601Local) ∧
      cache.second ≠ second then
    { second := second, parts := fillCachedTimeParts runtime style second }
  else
    cache

def appendTextAttribute (runtime : Runtime) (a : LogAttribute Bytes) : Bytes :=
  appendEscapedText a.key ++ ascii "=" ++ appendAttributeValue runtime a.value

def appendTextAttributes (runtime : Runtime) :
    List (LogAttribute Bytes) -> Bytes
  | [] => []
  | first :: rest =>
      ascii " \x7b" ++ appendTextAttribute runtime first ++
        (rest.flatMap fun a => ascii ", " ++ appendTextAttribute runtime a) ++
        ascii "\x7d"

def textLine (runtime : Runtime) (options : TextRecordFormatterOptions)
    (cached : Bytes × Bytes) (record : LogRecordView) : Bytes :=
  ascii "[" ++
  appendTimestamp runtime record.timestampEpochNanoseconds
    options.timestampStyle cached ++
  ascii "][" ++
  record.level.name ++
  ascii "][" ++
  appendEscapedText record.loggerName ++
  ascii "] " ++
  appendEscapedText record.message ++
  appendTextAttributes runtime record.attributes ++
  (if record.truncatedAttributeCount > 0 ∨ record.truncatedBytes > 0 then
    ascii " [truncated attrs=" ++
    appendUnsigned record.truncatedAttributeCount.toUInt64 ++
    ascii ", bytes=" ++
    appendUnsigned record.truncatedBytes.toUInt64 ++
    ascii "]"
  else
    []) ++
  (if options.includeSource then
    ascii " (" ++
    appendEscapedText record.source.fileName ++
    ascii ":" ++
    appendUnsigned record.source.line.toUInt64 ++
    ascii ")"
  else
    [])

def formatText (runtime : Runtime) (options : TextRecordFormatterOptions)
    (cache : TimestampCache) (record : LogRecordView) :
    Bytes × TimestampCache :=
  let second := (record.timestampEpochNanoseconds / 1000000000).toInt64
  let cache := cache.refresh runtime options.timestampStyle second
  (textLine runtime options cache.parts record ++ ascii "\n", cache)

def textRecordFormatter (runtime : Runtime)
    (options : TextRecordFormatterOptions) : RecordFormatter where
  State := TimestampCache
  init := {}
  format := fun cache record _ => formatText runtime options cache record

/-!
## JSON
-/

def jsonRecordFormatter (runtime : Runtime)
    (options : JsonRecordFormatterOptions) : RecordFormatter where
  State := Unit
  init := ()
  format := fun _ record _ => (formatJson runtime options record, ())

/-!
## Logfmt
-/

structure LogFmtRecordFormatterOptions where
  includeSource : Bool := true
  timestampStyle : TimestampStyle := TimestampStyle.epochMilliseconds

def appendLogFmtAttribute (runtime : Runtime) (a : LogAttribute Bytes) :
    Bytes :=
  ascii " " ++ appendEscapedText a.key ++ ascii "=" ++
    appendLogFmtAttributeValue runtime a.value

def logFmtLine (runtime : Runtime) (options : LogFmtRecordFormatterOptions)
    (record : LogRecordView) : Bytes :=
  ascii "ts=" ++
  appendTimestamp runtime record.timestampEpochNanoseconds
    options.timestampStyle ++
  ascii " level=" ++
  appendEscapedText record.level.name ++
  ascii " logger=\"" ++
  appendEscapedText record.loggerName ++
  ascii "\" msg=\"" ++
  appendEscapedText record.message ++
  ascii "\"" ++
  ascii " thread_id=" ++
  appendUnsigned record.threadIdHash ++
  (if options.includeSource then
    ascii " source=\"" ++
    appendEscapedText record.source.fileName ++
    ascii ":" ++
    appendUnsigned record.source.line.toUInt64 ++
    ascii "\""
  else
    []) ++
  record.attributes.flatMap (appendLogFmtAttribute runtime) ++
  (if record.truncatedAttributeCount > 0 ∨ record.truncatedBytes > 0 then
    ascii " truncated_attrs=" ++
    appendUnsigned record.truncatedAttributeCount.toUInt64 ++
    ascii " truncated_bytes=" ++
    appendUnsigned record.truncatedBytes.toUInt64
  else
    [])

def formatLogFmt (runtime : Runtime) (options : LogFmtRecordFormatterOptions)
    (record : LogRecordView) : Bytes :=
  logFmtLine runtime options record ++ ascii "\n"

def logFmtRecordFormatter (runtime : Runtime)
    (options : LogFmtRecordFormatterOptions) : RecordFormatter where
  State := Unit
  init := ()
  format := fun _ record _ => (formatLogFmt runtime options record, ())

/-!
## The built-in formatters
-/

/-- A formatter that the library provides, with its options. -/
inductive BuiltInFormatter where
  | text (options : TextRecordFormatterOptions)
  | json (options : JsonRecordFormatterOptions)
  | logFmt (options : LogFmtRecordFormatterOptions)

def BuiltInFormatter.toRecordFormatter (runtime : Runtime) :
    BuiltInFormatter -> RecordFormatter
  | text options => textRecordFormatter runtime options
  | json options => jsonRecordFormatter runtime options
  | logFmt options => logFmtRecordFormatter runtime options

def createDefaultFormatter (runtime : Runtime) : RecordFormatter :=
  textRecordFormatter runtime
    { includeSource := true, timestampStyle := TimestampStyle.iso8601Local }

end Formatting
end NginLog
