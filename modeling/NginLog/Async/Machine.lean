import NginLog.Async.Owned
import NginLog.Async.Queue
import NginLog.Foundation.Transition

/-!
# The asynchronous sink as a transition machine

Any number of client threads call `Write`, `Flush` and `GetStats` on one
`AsyncSink` while its worker thread runs `ConsumeLoop` and an owner destroys it.
One step of the machine is one atomic operation of one thread: an access to an
atomic member, one method of the queue (each holds the queue's mutex for its
whole body), taking or releasing one of the other mutexes, going to sleep on a
condition variable, waking up, or one call of the wrapped sink.

What the scheduler and the outside world decide is a `Choice`: whether a call of
the wrapped sink throws, whether a sleeper wakes without a notification or a
weak exchange fails without a reason, whether a deadline has passed.

The members of `History` are auxiliary.  No step reads them; they record what
happened so that the properties can be stated.
-/

namespace NginLog
namespace Async

open Record

/-!
## The members of the sink
-/

inductive AsyncOverflowPolicy where
  | dropNewest
  | block
  | blockForTimeout
  | syncFallback
deriving DecidableEq

/--
What a sink is constructed with.  `sinkPresent` says whether `m_sink` is
non-null.  The length of the timeout is left to the scheduler's choices.
-/
structure AsyncSinkConfig extends AsyncSinkParams where
  overflowPolicy : AsyncOverflowPolicy := AsyncOverflowPolicy.dropNewest
  emitDropReports : Bool := true
  sinkPresent : Bool := true

def smallSink (policy : AsyncOverflowPolicy) : AsyncSinkConfig where
  queueCapacity := 2
  batchSize := 1
  one_lt_queueCapacity := by decide
  queueCapacity_pow_two := by decide
  batchSize_pos := by decide
  overflowPolicy := policy

/-- An owned record, with the number of the `Write` call that made it. -/
structure Ticket where
  call : Nat
  record : OwnedLogRecord
deriving Inhabited, DecidableEq

inductive Agent (Thread : Type) where
  | worker
  | client (thread : Thread)
deriving DecidableEq

/--
What the wrapped sink is called with, in order.  `deliver` and `fallback` stand
for `Write` of `deliveredView ticket.record`, called by the worker and by a
producer.
-/
inductive SinkEvent (Thread : Type) where
  | deliver (ticket : Ticket)
  | fallback (thread : Thread) (ticket : Ticket)
  | report (dropped : Nat) (message : Bytes) (calls : List Nat)
  | flush (agent : Agent Thread)
deriving DecidableEq

structure AsyncSinkStats where
  enqueued : Nat := 0
  delivered : Nat := 0
  dropped : Nat := 0
  timeoutDropped : Nat := 0
  fallbackWrites : Nat := 0
  errors : Nat := 0
  queueHighWatermark : Nat := 0
  currentApproxDepth : Nat := 0
deriving DecidableEq

structure Call (Thread : Type) where
  thread : Thread
  record : LogRecordView

structure History (Thread : Type) where
  /-- Every `Write` call so far, in the order in which they began. -/
  calls : List (Call Thread) := []
  /-- Records in the order in which their queue insertion succeeded. -/
  accepted : List Ticket := []
  /-- Records in the order in which a full queue rejected them. -/
  rejected : List Ticket := []
  /-- Calls counted in `m_totalDropped`. -/
  dropped : List Nat := []
  /-- Calls counted in `m_unreportedDropped`, reported or not. -/
  reportable : List Nat := []
  /-- The calls behind the current value of `m_unreportedDropped`. -/
  unreported : List Nat := []
  /-- Calls of `Write` that have returned. -/
  returned : List Nat := []
  /-- For each `Flush` that has returned: who called it, and which calls of
  `Write` had returned when it began. -/
  flushed : List (Thread × List Nat) := []
  /-- What the calls of `GetStats` returned. -/
  snapshots : List AsyncSinkStats := []

/--
The members that the threads share.  `m_outstanding` is kept as an integer, so
that taking more from it than it holds would show.  A list of sleepers is the
set of threads asleep on a condition variable; `m_wakeMutex` is only ever taken
by the worker and is left out.
-/
structure Shared (Thread : Type) (C : AsyncSinkConfig) where
  queue : MpscBoundedQueue Ticket C.toAsyncSinkParams :=
    MpscBoundedQueue.empty
  running : Bool := true
  workerAsleep : Bool := false
  spaceMutex : Option (Agent Thread) := none
  spaceSleepers : List Thread := []
  deliveryMutex : Option (Agent Thread) := none
  totalEnqueued : Nat := 0
  totalDelivered : Nat := 0
  totalDropped : Nat := 0
  timeoutDropped : Nat := 0
  fallbackWrites : Nat := 0
  errorCount : Nat := 0
  unreportedDropped : Nat := 0
  queueHighWatermark : Nat := 0
  outstanding : Int := 0
  flushMutex : Option (Agent Thread) := none
  flushSleepers : List Thread := []
  sink : List (SinkEvent Thread) := []
  history : History Thread := {}

/-!
## Program points

Each routine of the source has its own: `NotifyFlushWaiters`, `Deliver`,
`EmitDropReportIfNeededLocked`, `FlushWrappedSink`, the enqueue functions, the
counting of a drop, `Flush` and `GetStats`.
-/

inductive Choice where
  | plain
  | throws
  | spurious
  | expires
deriving DecidableEq

inductive NotifyPc where
  | loadOutstanding
  | testEmpty
  | lock
  | notifyAll
  | unlock
deriving DecidableEq

inductive DeliverPc where
  | testSink
  | lock
  | write
  | countDelivered
  | recordError
  | unlock
deriving DecidableEq

/-- `EmitDropReportIfNeededLocked`, between the lock guards of its callers. -/
inductive ReportPc where
  | lock
  | exchange
  | write (dropped : Nat) (calls : List Nat)
  | recordError
  | unlock
deriving DecidableEq

inductive FlushSinkPc where
  | testSink
  | lock
  | flush
  | recordError
  | unlock
deriving DecidableEq

/--
The enqueue functions of the four policies and `TryEnqueueOwned`, which all of
them call.  `expired` says that the deadline of the wait has passed.
-/
inductive EnqueuePc where
  | loopRunning
  | addOutstanding
  | tryEnqueue
  | subOutstanding
  | notifyFlush (pc : NotifyPc)
  | countEnqueued
  | sampleDepth
  | loadWatermark (depth : Nat)
  | exchangeWatermark (depth current : Nat)
  | notifyWake
  | lockSpace
  | testRunning (expired : Bool)
  | testSpace (expired : Bool)
  | sleepSpace
  | asleepSpace
  | relockSpace (expired : Bool)
  | unlockSpace
  | addFallback
  | countFallback
  | deliver (pc : DeliverPc)
  | subFallback
  | notifyFallback (pc : NotifyPc)
deriving DecidableEq

/--
`RecordDrop` and `RecordTimeoutDrop`, followed by the return from `Write`, which
releases the space mutex if it is still held.
-/
inductive DropPc where
  | total
  | unreported
  | timeout
  | unlock
deriving DecidableEq

inductive FlushPc where
  | lock
  | testOutstanding
  | testEmpty
  | sleep
  | asleep
  | relock
  | unlock
  | report (pc : ReportPc)
  | flushSink (pc : FlushSinkPc)
deriving DecidableEq

/-- The eight loads of `GetStats`, in the order of its initializers. -/
inductive StatsPc where
  | loadEnqueued
  | loadDelivered
  | loadDropped
  | loadTimeoutDropped
  | loadFallbackWrites
  | loadErrors
  | loadHighWatermark
  | loadDepth
deriving DecidableEq

inductive ClientPc where
  | idle
  /-- `Write(record)` before it has loaded `m_running`. -/
  | enter (call : Nat) (record : LogRecordView)
  | enqueue (ticket : Ticket) (pc : EnqueuePc)
  | drop (call : Nat) (timeout holding : Bool) (pc : DropPc)
  | flush (before : List Nat) (pc : FlushPc)
  | stats (loaded : AsyncSinkStats) (pc : StatsPc)

/-- `ConsumeLoop`; `drained` is the counter of its inner loop. -/
inductive WorkerPc where
  | testRunning
  | testEmpty
  | dequeue (drained : Nat)
  | deliver (ticket : Ticket) (drained : Nat) (pc : DeliverPc)
  | subOutstanding (drained : Nat)
  | notifySpace (drained : Nat)
  | report (drained : Nat) (pc : ReportPc)
  | notifyFlush (drained : Nat) (pc : NotifyPc)
  | idleRunning (expired : Bool)
  | idleEmpty (expired : Bool)
  | idleAsleep
  | lastReport (pc : ReportPc)
  | lastFlush (pc : FlushSinkPc)
  | lastNotify (pc : NotifyPc)
  | finished

/-- The destructor, which is the one caller of `Shutdown`. -/
inductive OwnerPc where
  | alive
  | notifyWake
  | notifySpace
  | join
  | destroyed
deriving DecidableEq

/-!
## Shared routines

Each returns the shared members after the operation and the next program point
of the routine, where `none` means that it has returned.  The whole result is
`none` when the operation cannot happen, as when a mutex is held by another.
-/

variable {Thread : Type} {C : AsyncSinkConfig}

def notifyFlushStep (me : Agent Thread) (s : Shared Thread C) :
    NotifyPc -> Option (Shared Thread C × Option NotifyPc)
  | NotifyPc.loadOutstanding =>
      some (s, if s.outstanding = 0 then some NotifyPc.testEmpty else none)
  | NotifyPc.testEmpty =>
      some (s, if s.queue.isEmpty then some NotifyPc.lock else none)
  | NotifyPc.lock =>
      if s.flushMutex = none then
        some ({ s with flushMutex := some me }, some NotifyPc.notifyAll)
      else
        none
  | NotifyPc.notifyAll =>
      some ({ s with flushSleepers := [] }, some NotifyPc.unlock)
  | NotifyPc.unlock =>
      some ({ s with flushMutex := none }, none)

def deliverStep (me : Agent Thread) (event : SinkEvent Thread)
    (choice : Choice) (s : Shared Thread C) :
    DeliverPc -> Option (Shared Thread C × Option DeliverPc)
  | DeliverPc.testSink =>
      some (s, if C.sinkPresent then some DeliverPc.lock else none)
  | DeliverPc.lock =>
      if s.deliveryMutex = none then
        some ({ s with deliveryMutex := some me }, some DeliverPc.write)
      else
        none
  | DeliverPc.write =>
      some ({ s with sink := s.sink ++ [event] },
        if choice = Choice.throws then
          some DeliverPc.recordError
        else
          some DeliverPc.countDelivered)
  | DeliverPc.countDelivered =>
      some ({ s with totalDelivered := s.totalDelivered + 1 },
        some DeliverPc.unlock)
  | DeliverPc.recordError =>
      some ({ s with errorCount := s.errorCount + 1 }, some DeliverPc.unlock)
  | DeliverPc.unlock =>
      some ({ s with deliveryMutex := none }, none)

def reportStep (me : Agent Thread) (choice : Choice) (s : Shared Thread C) :
    ReportPc -> Option (Shared Thread C × Option ReportPc)
  | ReportPc.lock =>
      if s.deliveryMutex = none then
        some ({ s with deliveryMutex := some me }, some ReportPc.exchange)
      else
        none
  | ReportPc.exchange =>
      some
        ({ s with
            unreportedDropped := 0
            history := { s.history with unreported := [] } },
          if s.unreportedDropped = 0 ∨ C.sinkPresent = false then
            some ReportPc.unlock
          else
            some (ReportPc.write s.unreportedDropped s.history.unreported))
  | ReportPc.write dropped calls =>
      some
        ({ s with
            sink := s.sink ++
              [SinkEvent.report dropped (dropReportMessage dropped) calls] },
          if choice = Choice.throws then
            some ReportPc.recordError
          else
            some ReportPc.unlock)
  | ReportPc.recordError =>
      some ({ s with errorCount := s.errorCount + 1 }, some ReportPc.unlock)
  | ReportPc.unlock =>
      some ({ s with deliveryMutex := none }, none)

def flushSinkStep (me : Agent Thread) (choice : Choice) (s : Shared Thread C) :
    FlushSinkPc -> Option (Shared Thread C × Option FlushSinkPc)
  | FlushSinkPc.testSink =>
      some (s, if C.sinkPresent then some FlushSinkPc.lock else none)
  | FlushSinkPc.lock =>
      if s.deliveryMutex = none then
        some ({ s with deliveryMutex := some me }, some FlushSinkPc.flush)
      else
        none
  | FlushSinkPc.flush =>
      some ({ s with sink := s.sink ++ [SinkEvent.flush me] },
        if choice = Choice.throws then
          some FlushSinkPc.recordError
        else
          some FlushSinkPc.unlock)
  | FlushSinkPc.recordError =>
      some ({ s with errorCount := s.errorCount + 1 },
        some FlushSinkPc.unlock)
  | FlushSinkPc.unlock =>
      some ({ s with deliveryMutex := none }, none)

/-!
## Client threads

An idle client has no next step.  Where a `Write` begins, and where it goes on
when `TryEnqueueOwned` has returned false, depends on the policy.
-/

def returnWrite (s : Shared Thread C) (call : Nat) :
    Shared Thread C × ClientPc :=
  ({ s with
      history := { s.history with returned := s.history.returned ++ [call] } },
    ClientPc.idle)

def enqueueEntry (policy : AsyncOverflowPolicy) : EnqueuePc :=
  match policy with
  | AsyncOverflowPolicy.dropNewest => EnqueuePc.addOutstanding
  | AsyncOverflowPolicy.block => EnqueuePc.loopRunning
  | AsyncOverflowPolicy.blockForTimeout => EnqueuePc.loopRunning
  | AsyncOverflowPolicy.syncFallback => EnqueuePc.addOutstanding

def afterRejection (policy : AsyncOverflowPolicy) (ticket : Ticket) : ClientPc :=
  match policy with
  | AsyncOverflowPolicy.dropNewest =>
      ClientPc.drop ticket.call false false DropPc.total
  | AsyncOverflowPolicy.block => ClientPc.enqueue ticket EnqueuePc.lockSpace
  | AsyncOverflowPolicy.blockForTimeout =>
      ClientPc.enqueue ticket EnqueuePc.lockSpace
  | AsyncOverflowPolicy.syncFallback =>
      ClientPc.enqueue ticket EnqueuePc.addFallback

section

variable [DecidableEq Thread]

def enqueueStep (t : Thread) (choice : Choice) (s : Shared Thread C)
    (ticket : Ticket) : EnqueuePc -> Option (Shared Thread C × ClientPc)
  | EnqueuePc.loopRunning =>
      if s.running then
        some (s, ClientPc.enqueue ticket EnqueuePc.addOutstanding)
      else
        some (s,
          ClientPc.drop ticket.call
            (C.overflowPolicy == AsyncOverflowPolicy.blockForTimeout) false
            DropPc.total)
  | EnqueuePc.addOutstanding =>
      some ({ s with outstanding := s.outstanding + 1 },
        ClientPc.enqueue ticket EnqueuePc.tryEnqueue)
  | EnqueuePc.tryEnqueue =>
      match s.queue.tryEnqueue ticket with
      | (true, queue, ticket') =>
          some
            ({ s with
                queue := queue
                history := { s.history with
                  accepted := s.history.accepted ++ [ticket] } },
              ClientPc.enqueue ticket' EnqueuePc.countEnqueued)
      | (false, queue, ticket') =>
          some
            ({ s with
                queue := queue
                history := { s.history with
                  rejected := s.history.rejected ++ [ticket] } },
              ClientPc.enqueue ticket' EnqueuePc.subOutstanding)
  | EnqueuePc.subOutstanding =>
      some ({ s with outstanding := s.outstanding - 1 },
        ClientPc.enqueue ticket
          (EnqueuePc.notifyFlush NotifyPc.loadOutstanding))
  | EnqueuePc.notifyFlush pc =>
      (notifyFlushStep (Agent.client t) s pc).map fun (s', next) =>
        (s',
          match next with
          | some pc' => ClientPc.enqueue ticket (EnqueuePc.notifyFlush pc')
          | none => afterRejection C.overflowPolicy ticket)
  | EnqueuePc.countEnqueued =>
      some ({ s with totalEnqueued := s.totalEnqueued + 1 },
        ClientPc.enqueue ticket EnqueuePc.sampleDepth)
  | EnqueuePc.sampleDepth =>
      some (s,
        ClientPc.enqueue ticket
          (EnqueuePc.loadWatermark s.queue.approxDepth))
  | EnqueuePc.loadWatermark depth =>
      some (s,
        ClientPc.enqueue ticket
          (EnqueuePc.exchangeWatermark depth s.queueHighWatermark))
  | EnqueuePc.exchangeWatermark depth current =>
      if depth > current then
        -- A failed exchange stores the value that it found in `current`.
        if s.queueHighWatermark = current ∧ choice ≠ Choice.spurious then
          some ({ s with queueHighWatermark := depth },
            ClientPc.enqueue ticket EnqueuePc.notifyWake)
        else
          some (s,
            ClientPc.enqueue ticket
              (EnqueuePc.exchangeWatermark depth s.queueHighWatermark))
      else
        some (s, ClientPc.enqueue ticket EnqueuePc.notifyWake)
  | EnqueuePc.notifyWake =>
      some (returnWrite { s with workerAsleep := false } ticket.call)
  | EnqueuePc.lockSpace =>
      if s.spaceMutex = none then
        some ({ s with spaceMutex := some (Agent.client t) },
          ClientPc.enqueue ticket (EnqueuePc.testRunning false))
      else
        none
  | EnqueuePc.testRunning expired =>
      if s.running then
        some (s, ClientPc.enqueue ticket (EnqueuePc.testSpace expired))
      else
        some (s, ClientPc.enqueue ticket EnqueuePc.unlockSpace)
  | EnqueuePc.testSpace expired =>
      if s.queue.canEnqueue then
        some (s, ClientPc.enqueue ticket EnqueuePc.unlockSpace)
      else if expired then
        some (s, ClientPc.drop ticket.call true true DropPc.total)
      else
        some (s, ClientPc.enqueue ticket EnqueuePc.sleepSpace)
  | EnqueuePc.sleepSpace =>
      some
        ({ s with
            spaceMutex := none
            spaceSleepers := t :: s.spaceSleepers },
          ClientPc.enqueue ticket EnqueuePc.asleepSpace)
  | EnqueuePc.asleepSpace =>
      if choice = Choice.expires ∧
          C.overflowPolicy = AsyncOverflowPolicy.blockForTimeout then
        some
          ({ s with spaceSleepers := s.spaceSleepers.filter (· ≠ t) },
            ClientPc.enqueue ticket (EnqueuePc.relockSpace true))
      else if choice = Choice.spurious ∨ t ∉ s.spaceSleepers then
        some
          ({ s with spaceSleepers := s.spaceSleepers.filter (· ≠ t) },
            ClientPc.enqueue ticket (EnqueuePc.relockSpace false))
      else
        none
  | EnqueuePc.relockSpace expired =>
      if s.spaceMutex = none then
        some ({ s with spaceMutex := some (Agent.client t) },
          ClientPc.enqueue ticket (EnqueuePc.testRunning expired))
      else
        none
  | EnqueuePc.unlockSpace =>
      some ({ s with spaceMutex := none },
        ClientPc.enqueue ticket EnqueuePc.loopRunning)
  | EnqueuePc.addFallback =>
      some ({ s with outstanding := s.outstanding + 1 },
        ClientPc.enqueue ticket EnqueuePc.countFallback)
  | EnqueuePc.countFallback =>
      some ({ s with fallbackWrites := s.fallbackWrites + 1 },
        ClientPc.enqueue ticket (EnqueuePc.deliver DeliverPc.testSink))
  | EnqueuePc.deliver pc =>
      (deliverStep (Agent.client t) (SinkEvent.fallback t ticket) choice s
        pc).map
        fun (s', next) =>
          (s',
            match next with
            | some pc' => ClientPc.enqueue ticket (EnqueuePc.deliver pc')
            | none => ClientPc.enqueue ticket EnqueuePc.subFallback)
  | EnqueuePc.subFallback =>
      some ({ s with outstanding := s.outstanding - 1 },
        ClientPc.enqueue ticket
          (EnqueuePc.notifyFallback NotifyPc.loadOutstanding))
  | EnqueuePc.notifyFallback pc =>
      (notifyFlushStep (Agent.client t) s pc).map fun (s', next) =>
        match next with
        | some pc' =>
            (s', ClientPc.enqueue ticket (EnqueuePc.notifyFallback pc'))
        | none => returnWrite s' ticket.call

def dropStep (s : Shared Thread C) (call : Nat) (timeout holding : Bool) :
    DropPc -> Option (Shared Thread C × ClientPc)
  | DropPc.total =>
      some
        ({ s with
            totalDropped := s.totalDropped + 1
            history := { s.history with
              dropped := s.history.dropped ++ [call] } },
          ClientPc.drop call timeout holding DropPc.unreported)
  | DropPc.unreported =>
      let s' :=
        { s with
          unreportedDropped := s.unreportedDropped + 1
          history := { s.history with
            reportable := s.history.reportable ++ [call]
            unreported := s.history.unreported ++ [call] } }
      some
        (if timeout then
          (s', ClientPc.drop call timeout holding DropPc.timeout)
        else if holding then
          (s', ClientPc.drop call timeout holding DropPc.unlock)
        else
          returnWrite s' call)
  | DropPc.timeout =>
      let s' := { s with timeoutDropped := s.timeoutDropped + 1 }
      some
        (if holding then
          (s', ClientPc.drop call timeout holding DropPc.unlock)
        else
          returnWrite s' call)
  | DropPc.unlock =>
      some (returnWrite { s with spaceMutex := none } call)

def returnFlush (t : Thread) (s : Shared Thread C) (before : List Nat) :
    Shared Thread C × ClientPc :=
  ({ s with
      history := { s.history with
        flushed := s.history.flushed ++ [(t, before)] } },
    ClientPc.idle)

def flushStep (t : Thread) (choice : Choice) (s : Shared Thread C)
    (before : List Nat) : FlushPc -> Option (Shared Thread C × ClientPc)
  | FlushPc.lock =>
      if s.flushMutex = none then
        some ({ s with flushMutex := some (Agent.client t) },
          ClientPc.flush before FlushPc.testOutstanding)
      else
        none
  | FlushPc.testOutstanding =>
      some (s,
        if s.outstanding = 0 then
          ClientPc.flush before FlushPc.testEmpty
        else
          ClientPc.flush before FlushPc.sleep)
  | FlushPc.testEmpty =>
      some (s,
        if s.queue.isEmpty then
          ClientPc.flush before FlushPc.unlock
        else
          ClientPc.flush before FlushPc.sleep)
  | FlushPc.sleep =>
      some
        ({ s with
            flushMutex := none
            flushSleepers := t :: s.flushSleepers },
          ClientPc.flush before FlushPc.asleep)
  | FlushPc.asleep =>
      if choice = Choice.spurious ∨ t ∉ s.flushSleepers then
        some
          ({ s with flushSleepers := s.flushSleepers.filter (· ≠ t) },
            ClientPc.flush before FlushPc.relock)
      else
        none
  | FlushPc.relock =>
      if s.flushMutex = none then
        some ({ s with flushMutex := some (Agent.client t) },
          ClientPc.flush before FlushPc.testOutstanding)
      else
        none
  | FlushPc.unlock =>
      some ({ s with flushMutex := none },
        if C.emitDropReports then
          ClientPc.flush before (FlushPc.report ReportPc.lock)
        else
          ClientPc.flush before (FlushPc.flushSink FlushSinkPc.testSink))
  | FlushPc.report pc =>
      (reportStep (Agent.client t) choice s pc).map fun (s', next) =>
        (s',
          match next with
          | some pc' => ClientPc.flush before (FlushPc.report pc')
          | none =>
              ClientPc.flush before (FlushPc.flushSink FlushSinkPc.testSink))
  | FlushPc.flushSink pc =>
      (flushSinkStep (Agent.client t) choice s pc).map fun (s', next) =>
        match next with
        | some pc' => (s', ClientPc.flush before (FlushPc.flushSink pc'))
        | none => returnFlush t s' before

def statsStep (s : Shared Thread C) (loaded : AsyncSinkStats) :
    StatsPc -> Shared Thread C × ClientPc
  | StatsPc.loadEnqueued =>
      (s, ClientPc.stats { loaded with enqueued := s.totalEnqueued }
        StatsPc.loadDelivered)
  | StatsPc.loadDelivered =>
      (s, ClientPc.stats { loaded with delivered := s.totalDelivered }
        StatsPc.loadDropped)
  | StatsPc.loadDropped =>
      (s, ClientPc.stats { loaded with dropped := s.totalDropped }
        StatsPc.loadTimeoutDropped)
  | StatsPc.loadTimeoutDropped =>
      (s, ClientPc.stats { loaded with timeoutDropped := s.timeoutDropped }
        StatsPc.loadFallbackWrites)
  | StatsPc.loadFallbackWrites =>
      (s, ClientPc.stats { loaded with fallbackWrites := s.fallbackWrites }
        StatsPc.loadErrors)
  | StatsPc.loadErrors =>
      (s, ClientPc.stats { loaded with errors := s.errorCount }
        StatsPc.loadHighWatermark)
  | StatsPc.loadHighWatermark =>
      (s, ClientPc.stats
        { loaded with queueHighWatermark := s.queueHighWatermark }
        StatsPc.loadDepth)
  | StatsPc.loadDepth =>
      ({ s with
          history := { s.history with
            snapshots := s.history.snapshots ++
              [{ loaded with currentApproxDepth := s.queue.approxDepth }] } },
        ClientPc.idle)

def clientStep (t : Thread) (choice : Choice) (s : Shared Thread C) :
    ClientPc -> Option (Shared Thread C × ClientPc)
  | ClientPc.idle => none
  | ClientPc.enter call record =>
      some (s,
        if s.running then
          ClientPc.enqueue { call := call, record := toOwned record }
            (enqueueEntry C.overflowPolicy)
        else
          ClientPc.drop call false false DropPc.total)
  | ClientPc.enqueue ticket pc => enqueueStep t choice s ticket pc
  | ClientPc.drop call timeout holding pc => dropStep s call timeout holding pc
  | ClientPc.flush before pc => flushStep t choice s before pc
  | ClientPc.stats loaded pc => some (statsStep s loaded pc)

end

/-!
## The worker and the owner

What `ConsumeLoop` does after its inner loop, at the end of an iteration and
after its outer loop has a definition each.  The owner goes through `~AsyncSink`
and `Shutdown`.
-/

/-- The part of an iteration of `ConsumeLoop` after its inner loop. -/
def afterBatch (C : AsyncSinkConfig) (drained : Nat) : WorkerPc :=
  if C.emitDropReports then
    WorkerPc.report drained ReportPc.lock
  else
    WorkerPc.notifyFlush drained NotifyPc.loadOutstanding

def afterIteration (drained : Nat) : WorkerPc :=
  if drained = 0 then WorkerPc.idleRunning false else WorkerPc.testRunning

def afterLoop (C : AsyncSinkConfig) : WorkerPc :=
  if C.emitDropReports then
    WorkerPc.lastReport ReportPc.lock
  else
    WorkerPc.lastFlush FlushSinkPc.testSink

def workerStep (choice : Choice) (s : Shared Thread C) :
    WorkerPc -> Option (Shared Thread C × WorkerPc)
  | WorkerPc.testRunning =>
      some (s,
        if s.running then WorkerPc.dequeue 0 else WorkerPc.testEmpty)
  | WorkerPc.testEmpty =>
      some (s, if s.queue.isEmpty then afterLoop C else WorkerPc.dequeue 0)
  | WorkerPc.dequeue drained =>
      if drained < C.batchSize then
        match s.queue.tryDequeue default with
        | (true, queue, ticket) =>
            some ({ s with queue := queue },
              WorkerPc.deliver ticket drained DeliverPc.testSink)
        | (false, queue, _) =>
            some ({ s with queue := queue }, afterBatch C drained)
      else
        some (s, afterBatch C drained)
  | WorkerPc.deliver ticket drained pc =>
      (deliverStep Agent.worker (SinkEvent.deliver ticket) choice s pc).map
        fun (s', next) =>
          (s',
            match next with
            | some pc' => WorkerPc.deliver ticket drained pc'
            | none => WorkerPc.subOutstanding drained)
  | WorkerPc.subOutstanding drained =>
      some ({ s with outstanding := s.outstanding - 1 },
        WorkerPc.notifySpace drained)
  | WorkerPc.notifySpace drained =>
      some ({ s with spaceSleepers := [] }, WorkerPc.dequeue (drained + 1))
  | WorkerPc.report drained pc =>
      (reportStep Agent.worker choice s pc).map fun (s', next) =>
        (s',
          match next with
          | some pc' => WorkerPc.report drained pc'
          | none => WorkerPc.notifyFlush drained NotifyPc.loadOutstanding)
  | WorkerPc.notifyFlush drained pc =>
      (notifyFlushStep Agent.worker s pc).map fun (s', next) =>
        (s',
          match next with
          | some pc' => WorkerPc.notifyFlush drained pc'
          | none => afterIteration drained)
  | WorkerPc.idleRunning expired =>
      some (s,
        if s.running then WorkerPc.idleEmpty expired else WorkerPc.testRunning)
  | WorkerPc.idleEmpty expired =>
      if s.queue.isEmpty = true ∧ expired = false then
        some ({ s with workerAsleep := true }, WorkerPc.idleAsleep)
      else
        some (s, WorkerPc.testRunning)
  | WorkerPc.idleAsleep =>
      if choice = Choice.expires then
        some ({ s with workerAsleep := false }, WorkerPc.idleRunning true)
      else if choice = Choice.spurious ∨ s.workerAsleep = false then
        some ({ s with workerAsleep := false }, WorkerPc.idleRunning false)
      else
        none
  | WorkerPc.lastReport pc =>
      (reportStep Agent.worker choice s pc).map fun (s', next) =>
        (s',
          match next with
          | some pc' => WorkerPc.lastReport pc'
          | none => WorkerPc.lastFlush FlushSinkPc.testSink)
  | WorkerPc.lastFlush pc =>
      (flushSinkStep Agent.worker choice s pc).map fun (s', next) =>
        (s',
          match next with
          | some pc' => WorkerPc.lastFlush pc'
          | none => WorkerPc.lastNotify NotifyPc.loadOutstanding)
  | WorkerPc.lastNotify pc =>
      (notifyFlushStep Agent.worker s pc).map fun (s', next) =>
        (s',
          match next with
          | some pc' => WorkerPc.lastNotify pc'
          | none => WorkerPc.finished)
  | WorkerPc.finished => none

def ownerStep (s : Shared Thread C) (worker : WorkerPc) :
    OwnerPc -> Option (Shared Thread C × OwnerPc)
  | OwnerPc.alive =>
      some ({ s with running := false },
        if s.running then OwnerPc.notifyWake else OwnerPc.destroyed)
  | OwnerPc.notifyWake =>
      some ({ s with workerAsleep := false }, OwnerPc.notifySpace)
  | OwnerPc.notifySpace =>
      some ({ s with spaceSleepers := [] }, OwnerPc.join)
  | OwnerPc.join =>
      match worker with
      | WorkerPc.finished => some (s, OwnerPc.destroyed)
      | _ => none
  | OwnerPc.destroyed => none

/-!
## The machine
-/

structure State (Thread : Type) (C : AsyncSinkConfig) where
  shared : Shared Thread C := {}
  worker : WorkerPc := WorkerPc.testRunning
  client : Thread -> ClientPc := fun _ => ClientPc.idle
  owner : OwnerPc := OwnerPc.alive

inductive Action (Thread : Type) where
  /-- A client calls `Write(record)`. -/
  | write (t : Thread) (record : LogRecordView)
  /-- A client calls `Flush()`. -/
  | flush (t : Thread)
  /-- A client calls `GetStats()`. -/
  | getStats (t : Thread)
  /-- A client takes the next step of its call. -/
  | client (t : Thread) (choice : Choice)
  | worker (choice : Choice)
  | owner

section

variable [DecidableEq Thread]

def State.begin (s : State Thread C) (t : Thread) (shared : Shared Thread C)
    (pc : ClientPc) : Option (State Thread C) :=
  match s.client t with
  | ClientPc.idle =>
      some { s with
        shared := shared
        client := Function.update s.client t pc }
  | _ => none

def State.step (s : State Thread C) : Action Thread -> Option (State Thread C)
  | Action.write t record =>
      s.begin t
        { s.shared with
          history := { s.shared.history with
            calls := s.shared.history.calls ++
              [{ thread := t, record := record }] } }
        (ClientPc.enter s.shared.history.calls.length record)
  | Action.flush t =>
      s.begin t s.shared
        (ClientPc.flush s.shared.history.returned FlushPc.lock)
  | Action.getStats t =>
      s.begin t s.shared (ClientPc.stats {} StatsPc.loadEnqueued)
  | Action.client t choice =>
      (clientStep t choice s.shared (s.client t)).map fun (shared, pc) =>
        { s with
          shared := shared
          client := Function.update s.client t pc }
  | Action.worker choice =>
      (workerStep choice s.shared s.worker).map fun (shared, pc) =>
        { s with shared := shared, worker := pc }
  | Action.owner =>
      (ownerStep s.shared s.worker s.owner).map fun (shared, pc) =>
        { s with shared := shared, owner := pc }

def asyncSink (Thread : Type) [DecidableEq Thread] (C : AsyncSinkConfig) :
    Foundation.Machine (State Thread C) (Action Thread) where
  init := {}
  step := State.step

end

end Async
end NginLog
