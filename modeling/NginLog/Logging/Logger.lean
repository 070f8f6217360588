import NginLog.Foundation.Transition
import NginLog.Record.Dispatch

/-!
# Loggers and sinks that log

All loggers here are of one instantiation of `Logger`, so they share one
recursion flag on each thread, and everything happens on one thread.  What a
sink does in `Write` is a program of its own: it may use its members, call the
loggers, and end by throwing.  `Log` calls `Write` and `Write` may call `Log`, so
`Log` is given a bound on the depth of the calls and has no result beyond it.

The list of events is auxiliary.  No step reads it.
-/

namespace NginLog
namespace Logging

open Foundation Record

variable {logger sink state : Type}

/-!
## Data
-/

/--
The members of a `Logger`.  There is no snapshot when the first one could not be
allocated, and a sink pointer may be null.
-/
structure Logger (sink : Type) where
  name : Bytes := []
  runtimeMin : LogLevel := LogLevel.info
  activeSinks : Option (List (Option sink)) := some []
  sinkErrorCount : Nat := 0

/-- One call of `Log<L>`, with what it finds on its thread. -/
structure LogCall (logger : Type) where
  logger : logger
  level : LogLevel
  callback : Callback := { calls := [] }
  source : SourceLocation := {}
  context : List ContextAttribute := []
  timestampEpochNanoseconds : UInt64 := 0
  threadIdHash : UInt64 := 0

/--
What a sink does in `Write`: it reads or changes its own members, or calls a
logger.  `published` says whether the new snapshot could be allocated.
-/
inductive Body (logger sink state : Type) where
  | return
  | throw
  | get (next : state -> Body logger sink state)
  | put (members : state) (next : Body logger sink state)
  | log (call : LogCall logger) (next : Body logger sink state)
  | setSinks (l : logger) (sinks : List (Option sink)) (published : Bool)
      (next : Body logger sink state)
  | setRuntimeMin (l : logger) (level : LogLevel)
      (next : Body logger sink state)
  | getSinkErrorCount (l : logger) (next : Nat -> Body logger sink state)

/-- The recursion flag of the thread, the loggers, and the sinks' members. -/
structure Process (logger sink state : Type) where
  inDispatch : Bool := false
  loggers : logger -> Logger sink
  members : sink -> state

/-- What happens while sinks are written to, in order. -/
inductive Event (logger sink state : Type) where
  /-- A `Write` begins. -/
  | writing (s : sink) (record : LogRecordView)
  /-- A sink's call of `Log` has returned. -/
  | logged (call : LogCall logger) (before after : Process logger sink state)
  /-- A sink's call of `SetSinks` has found no memory. -/
  | unpublished (l : logger)
  /-- The `Write` has ended. -/
  | written (s : sink) (threw : Bool)

structure World (logger sink state : Type) extends
    Process logger sink state where
  events : List (Event logger sink state) := []

/-!
## Loggers

`setSinks` is `PublishSinkSnapshot`, and `hasSinks` is the test that the
snapshot is neither null nor empty.
-/

namespace Logger

def countError (l : Logger sink) : Logger sink :=
  { l with sinkErrorCount := l.sinkErrorCount + 1 }

def setSinks (l : Logger sink) (sinks : List (Option sink))
    (published : Bool) : Logger sink :=
  if published then { l with activeSinks := some sinks } else l.countError

def setRuntimeMin (l : Logger sink) (level : LogLevel) : Logger sink :=
  { l with runtimeMin := level }

def isRuntimeEnabled (l : Logger sink) (level : LogLevel) : Bool :=
  level.toUInt8 ≥ l.runtimeMin.toUInt8 && level != LogLevel.off

def hasSinks (l : Logger sink) : Bool :=
  match l.activeSinks with
  | some (_ :: _) => true
  | _ => false

end Logger

/-- What `Dispatch` puts into the record besides the builder's part. -/
def LogCall.site (call : LogCall logger) (name : Bytes) : CallSite where
  timestampEpochNanoseconds := call.timestampEpochNanoseconds
  level := call.level
  loggerName := name
  source := call.source
  threadIdHash := call.threadIdHash

namespace World

def note (w : World logger sink state) (event : Event logger sink state) :
    World logger sink state :=
  { w with events := w.events ++ [event] }

section

variable [DecidableEq logger]

def updateLogger (w : World logger sink state) (l : logger)
    (change : Logger sink -> Logger sink) : World logger sink state :=
  { w with loggers := Function.update w.loggers l (change (w.loggers l)) }

def countError (w : World logger sink state) (l : logger) :
    World logger sink state :=
  w.updateLogger l Logger.countError

end

end World

/-!
## One level of calls

`inner` is what a call of `Log` does that a sink makes.
-/

section

variable [DecidableEq logger] [DecidableEq sink]
  (inner : LogCall logger -> World logger sink state ->
    Option (World logger sink state))
  (body : sink -> LogRecordView -> Body logger sink state)

/-- Run what is left of a `Write` of the sink: the world, and whether it threw. -/
def Body.run (s : sink) : Body logger sink state -> World logger sink state ->
    Option (World logger sink state × Bool)
  | Body.return, w => some (w, false)
  | Body.throw, w => some (w, true)
  | Body.get next, w => (next (w.members s)).run s w
  | Body.put members next, w =>
      next.run s { w with members := Function.update w.members s members }
  | Body.log call next, w =>
      (inner call w).bind fun w' =>
        next.run s (w'.note (Event.logged call w.toProcess w'.toProcess))
  | Body.setSinks l sinks published next, w =>
      let w' := w.updateLogger l fun old => old.setSinks sinks published
      next.run s (if published then w' else w'.note (Event.unpublished l))
  | Body.setRuntimeMin l level next, w =>
      next.run s (w.updateLogger l fun old => old.setRuntimeMin level)
  | Body.getSinkErrorCount l next, w =>
      (next (w.loggers l).sinkErrorCount).run s w

def write (s : sink) (record : LogRecordView) (w : World logger sink state) :
    Option (World logger sink state × Bool) :=
  ((body s record).run inner s (w.note (Event.writing s record))).map
    fun (w', threw) => (w'.note (Event.written s threw), threw)

def writeSinks (l : logger) (record : LogRecordView) :
    List (Option sink) -> World logger sink state ->
    Option (World logger sink state)
  | [], w => some w
  | none :: rest, w => writeSinks l record rest w
  | some s :: rest, w =>
      (write inner body s record w).bind fun (w', threw) =>
        writeSinks l record rest (if threw then w'.countError l else w')

def dispatch (call : LogCall logger) (w : World logger sink state) :
    Option (World logger sink state) :=
  match (w.loggers call.logger).activeSinks with
  | none => some w
  | some [] => some w
  | some (first :: rest) =>
      if w.inDispatch then
        some (w.countError call.logger)
      else
        let record :=
          loggedRecord (call.site (w.loggers call.logger).name) call.context
            call.callback
        -- The guard sets the flag, and clears it on the way out.
        (writeSinks inner body call.logger record (first :: rest)
            { w with inDispatch := true }).map
          fun w' => { w' with inDispatch := false }

def logWith (compileTimeMin : LogLevel) (call : LogCall logger)
    (w : World logger sink state) : Option (World logger sink state) :=
  if call.level.toUInt8 ≥ compileTimeMin.toUInt8 then
    if (w.loggers call.logger).isRuntimeEnabled call.level then
      dispatch inner body call
        (if call.callback.throws then w.countError call.logger else w)
    else
      some w
  else
    some w

end

/-!
## Calls from outside
-/

section

variable [DecidableEq logger] [DecidableEq sink]

/-- `Log` for calls nested less than `depth` deep. -/
def log (compileTimeMin : LogLevel)
    (body : sink -> LogRecordView -> Body logger sink state) :
    Nat -> LogCall logger -> World logger sink state ->
    Option (World logger sink state)
  | 0 => fun _ _ => none
  | depth + 1 =>
      logWith (log compileTimeMin body depth) body compileTimeMin

/-- What the thread calls when it is not inside a `Write`. -/
inductive Action (logger sink : Type) where
  | log (call : LogCall logger)
  | setSinks (l : logger) (sinks : List (Option sink)) (published : Bool)
  | setRuntimeMin (l : logger) (level : LogLevel)

def thread (compileTimeMin : LogLevel)
    (body : sink -> LogRecordView -> Body logger sink state) (depth : Nat)
    (loggers : logger -> Logger sink) (members : sink -> state) :
    Machine (World logger sink state) (Action logger sink) where
  init := { loggers := loggers, members := members }
  step := fun w a =>
    match a with
    | Action.log call => log compileTimeMin body depth call w
    | Action.setSinks l sinks published =>
        some (w.updateLogger l fun old => old.setSinks sinks published)
    | Action.setRuntimeMin l level =>
        some (w.updateLogger l fun old => old.setRuntimeMin level)

end

end Logging
end NginLog
