import NginLog.Foundation.Timeline
import NginLog.Logging.Reentry

/-!
# Loggers that several threads share

Any number of threads call `Log`, `Flush`, `SetSinks` and `SetRuntimeMin` of the
loggers of one instantiation.  One step is one access to an atomic member, which
has one value at a time, or the beginning or the end of a call of user code: the
callback of `Log`, or a sink's `Write` or `Flush`.  User code may call the
loggers, so that each thread has a stack of calls, and the topmost one goes on.

`CallInfo` and `SharedHistory` are auxiliary.  No step reads them, except that
`Log` finds its arguments in `CallInfo`.
-/

namespace NginLog
namespace Logging

open Foundation Record

variable {logger sink thread : Type}

/-!
## Calls in progress
-/

/-- `Log<L>`, and from `loadSinks` on `Dispatch`. -/
inductive LogPc (sink : Type) where
  | loadRuntimeMin
  /-- The callback runs. -/
  | callback
  | countCallbackError
  | loadSinks
  | countRefused
  | nextSink (rest : List (Option sink))
  /-- A `Write` runs. -/
  | inWrite (rest : List (Option sink))
  | countSinkError (rest : List (Option sink))

inductive FlushPc (sink : Type) where
  | loadSinks
  | nextSink (rest : List (Option sink))
  /-- A sink's `Flush` runs. -/
  | inFlush (rest : List (Option sink))
  | countSinkError (rest : List (Option sink))

structure CallInfo (logger sink : Type) where
  call : LogCall logger
  /-- How many snapshots and levels its logger had had when it began. -/
  snapshotsBefore : Nat
  levelsBefore : Nat
  /-- It was made inside of a `Write` on its own thread. -/
  insideWrite : Bool
  written : List (sink × LogRecordView) := []

inductive Frame (logger sink : Type) where
  | log (info : CallInfo logger sink) (pc : LogPc sink)
  | flush (l : logger) (pc : FlushPc sink)

namespace LogPc

/-- The recursion guard exists. -/
def dispatching : LogPc sink -> Bool
  | nextSink _ => true
  | inWrite _ => true
  | countSinkError _ => true
  | _ => false

end LogPc

namespace Frame

def dispatching : Frame logger sink -> Bool
  | log _ pc => pc.dispatching
  | flush _ _ => false

def written : Frame logger sink -> List (sink × LogRecordView)
  | log info _ => info.written
  | flush _ _ => []

def inUserCode : Frame logger sink -> Bool
  | log _ LogPc.callback => true
  | log _ (LogPc.inWrite _) => true
  | flush _ (FlushPc.inFlush _) => true
  | _ => false

end Frame

/-- How a call of `Log` has ended. -/
inductive Outcome where
  | filtered
  | noSinks
  | refused
  | dispatched
deriving DecidableEq

structure ReturnedCall (logger sink : Type) where
  info : CallInfo logger sink
  outcome : Outcome
  /-- How many snapshots and levels its logger had had when it returned. -/
  snapshotsAfter : Nat
  levelsAfter : Nat

/-- What the loggers' snapshots and levels have been, the current one last. -/
structure Timelines (logger sink : Type) where
  snapshots : logger -> List (Option (List (Option sink)))
  levels : logger -> List LogLevel

structure SharedHistory (logger sink thread : Type) extends
    Timelines logger sink where
  /-- The calls of `Write` that have begun. -/
  writes : List (thread × sink × LogRecordView) := []
  returned : List (thread × ReturnedCall logger sink) := []

structure SharedState (logger sink thread : Type) where
  loggers : logger -> Logger sink
  inDispatch : thread -> Bool := fun _ => false
  stack : thread -> List (Frame logger sink) := fun _ => []
  history : SharedHistory logger sink thread

/-- What a thread does next; `throws` is how the user code ends, if it does. -/
inductive SharedAction (logger sink thread : Type) where
  | log (t : thread) (call : LogCall logger)
  | flush (t : thread) (l : logger)
  | setSinks (t : thread) (l : logger) (sinks : List (Option sink))
      (published : Bool)
  | setRuntimeMin (t : thread) (l : logger) (level : LogLevel)
  | goOn (t : thread) (throws : Bool)

/-!
## Steps
-/

namespace SharedState

section

variable [DecidableEq thread]

def setStack (s : SharedState logger sink thread) (t : thread)
    (frames : List (Frame logger sink)) : SharedState logger sink thread :=
  { s with stack := Function.update s.stack t frames }

def setFlag (s : SharedState logger sink thread) (t : thread) (flag : Bool) :
    SharedState logger sink thread :=
  { s with inDispatch := Function.update s.inDispatch t flag }

def begin (s : SharedState logger sink thread) (t : thread)
    (call : LogCall logger) : SharedState logger sink thread :=
  s.setStack t
    (Frame.log
      { call := call
        snapshotsBefore := (s.history.snapshots call.logger).length
        levelsBefore := (s.history.levels call.logger).length
        insideWrite := (s.stack t).any Frame.dispatching }
      LogPc.loadRuntimeMin :: s.stack t)

def finish (s : SharedState logger sink thread) (t : thread)
    (info : CallInfo logger sink) (outcome : Outcome)
    (below : List (Frame logger sink)) : SharedState logger sink thread :=
  { s.setStack t below with
    history := { s.history with
      returned := s.history.returned ++
        [(t,
          { info := info
            outcome := outcome
            snapshotsAfter := (s.history.snapshots info.call.logger).length
            levelsAfter := (s.history.levels info.call.logger).length })] } }

end

section

variable [DecidableEq logger]

def updateLogger (s : SharedState logger sink thread) (l : logger)
    (change : Logger sink -> Logger sink) : SharedState logger sink thread :=
  { s with loggers := Function.update s.loggers l (change (s.loggers l)) }

def countError (s : SharedState logger sink thread) (l : logger) :
    SharedState logger sink thread :=
  s.updateLogger l Logger.countError

def setSinks (s : SharedState logger sink thread) (l : logger)
    (sinks : List (Option sink)) (published : Bool) :
    SharedState logger sink thread :=
  let s' := s.updateLogger l fun old => old.setSinks sinks published
  if published then
    { s' with history := { s'.history with
        snapshots := Function.update s'.history.snapshots l
          (s'.history.snapshots l ++ [some sinks]) } }
  else
    s'

def setRuntimeMin (s : SharedState logger sink thread) (l : logger)
    (level : LogLevel) : SharedState logger sink thread :=
  let s' := s.updateLogger l fun old => old.setRuntimeMin level
  { s' with history := { s'.history with
      levels := Function.update s'.history.levels l
        (s'.history.levels l ++ [level]) } }

end

end SharedState

section

variable [DecidableEq logger] [DecidableEq thread]
  (compileTimeMin : LogLevel)

def SharedState.record (s : SharedState logger sink thread)
    (call : LogCall logger) : LogRecordView :=
  loggedRecord (call.site (s.loggers call.logger).name) call.context
    call.callback

def logStep (s : SharedState logger sink thread) (t : thread) (throws : Bool)
    (info : CallInfo logger sink) (below : List (Frame logger sink)) :
    LogPc sink -> SharedState logger sink thread
  | LogPc.loadRuntimeMin =>
      -- Below the compile-time minimum the call does not even load.
      if info.call.enabled compileTimeMin (s.loggers info.call.logger) then
        s.setStack t (Frame.log info LogPc.callback :: below)
      else
        s.finish t info Outcome.filtered below
  | LogPc.callback =>
      if info.call.callback.throws then
        s.setStack t (Frame.log info LogPc.countCallbackError :: below)
      else
        s.setStack t (Frame.log info LogPc.loadSinks :: below)
  | LogPc.countCallbackError =>
      (s.countError info.call.logger).setStack t
        (Frame.log info LogPc.loadSinks :: below)
  | LogPc.loadSinks =>
      match (s.loggers info.call.logger).activeSinks with
      | none => s.finish t info Outcome.noSinks below
      | some [] => s.finish t info Outcome.noSinks below
      | some (first :: rest) =>
          if s.inDispatch t then
            s.setStack t (Frame.log info LogPc.countRefused :: below)
          else
            (s.setFlag t true).setStack t
              (Frame.log info (LogPc.nextSink (first :: rest)) :: below)
  | LogPc.countRefused =>
      (s.countError info.call.logger).finish t info Outcome.refused below
  | LogPc.nextSink [] =>
      (s.setFlag t false).finish t info Outcome.dispatched below
  | LogPc.nextSink (none :: rest) =>
      s.setStack t (Frame.log info (LogPc.nextSink rest) :: below)
  | LogPc.nextSink (some target :: rest) =>
      let write := (target, s.record info.call)
      { s.setStack t
          (Frame.log { info with written := info.written ++ [write] }
            (LogPc.inWrite rest) :: below) with
        history := { s.history with
          writes := s.history.writes ++ [(t, write)] } }
  | LogPc.inWrite rest =>
      if throws then
        s.setStack t (Frame.log info (LogPc.countSinkError rest) :: below)
      else
        s.setStack t (Frame.log info (LogPc.nextSink rest) :: below)
  | LogPc.countSinkError rest =>
      (s.countError info.call.logger).setStack t
        (Frame.log info (LogPc.nextSink rest) :: below)

def flushStep (s : SharedState logger sink thread) (t : thread) (throws : Bool)
    (l : logger) (below : List (Frame logger sink)) :
    FlushPc sink -> SharedState logger sink thread
  | FlushPc.loadSinks =>
      match (s.loggers l).activeSinks with
      | none => s.setStack t below
      | some sinks => s.setStack t (Frame.flush l (FlushPc.nextSink sinks) :: below)
  | FlushPc.nextSink [] => s.setStack t below
  | FlushPc.nextSink (none :: rest) =>
      s.setStack t (Frame.flush l (FlushPc.nextSink rest) :: below)
  | FlushPc.nextSink (some _ :: rest) =>
      s.setStack t (Frame.flush l (FlushPc.inFlush rest) :: below)
  | FlushPc.inFlush rest =>
      if throws then
        s.setStack t (Frame.flush l (FlushPc.countSinkError rest) :: below)
      else
        s.setStack t (Frame.flush l (FlushPc.nextSink rest) :: below)
  | FlushPc.countSinkError rest =>
      (s.countError l).setStack t
        (Frame.flush l (FlushPc.nextSink rest) :: below)

def SharedState.mayCall (s : SharedState logger sink thread) (t : thread) :
    Bool :=
  match s.stack t with
  | [] => true
  | frame :: _ => frame.inUserCode

def sharedLoggers (loggers : logger -> Logger sink) :
    Machine (SharedState logger sink thread)
      (SharedAction logger sink thread) where
  init :=
    { loggers := loggers
      history :=
        { snapshots := fun l => [(loggers l).activeSinks]
          levels := fun l => [(loggers l).runtimeMin] } }
  step := fun s action =>
    match action with
    | SharedAction.log t call =>
        if s.mayCall t then some (s.begin t call) else none
    | SharedAction.flush t l =>
        if s.mayCall t then
          some (s.setStack t (Frame.flush l FlushPc.loadSinks :: s.stack t))
        else
          none
    | SharedAction.setSinks t l sinks published =>
        if s.mayCall t then some (s.setSinks l sinks published) else none
    | SharedAction.setRuntimeMin t l level =>
        if s.mayCall t then some (s.setRuntimeMin l level) else none
    | SharedAction.goOn t throws =>
        match s.stack t with
        | [] => none
        | Frame.log info pc :: below =>
            some (logStep compileTimeMin s t throws info below pc)
        | Frame.flush l pc :: below => some (flushStep s t throws l below pc)

end

end Logging
end NginLog
