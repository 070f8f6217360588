import NginLog.Async.BoundedWrite
import NginLog.Async.Termination

/-!
# No call goes round for ever

While no new call begins, the calls in progress take a bounded number of steps
altogether.  A producer that waits for space goes round its loop only when the
queue has changed, and the queue changes only so often: each call inserts one
record at most, and each record is taken out once.  A caller of `Flush` goes
back to sleep only when a producer has raised `m_outstanding` again.
-/

namespace NginLog
namespace Async

open Foundation

variable {Thread : Type} {C : AsyncSinkConfig}

/-!
## How far a producer is from the next change

A producer that does not try to enqueue any more leaves the waiting alone.
-/

def EnqueuePc.mayInsert (pc : EnqueuePc) : Nat :=
  if pc.settled then 0 else 1

def ClientPc.mayInsert : ClientPc -> Nat
  | ClientPc.enter _ _ => 1
  | ClientPc.enqueue _ pc => pc.mayInsert
  | _ => 0

/--
The most steps that a producer takes until it returns, sleeps or inserts, while
the queue stays full or stays not full.  Whoever sleeps and has been `notified`
goes on.
-/
def EnqueuePc.alone (C : AsyncSinkConfig) (full notified : Bool) :
    EnqueuePc -> Nat
  | EnqueuePc.loopRunning => 22
  | EnqueuePc.addOutstanding => 21
  | EnqueuePc.tryEnqueue => 20
  | EnqueuePc.subOutstanding => if full then 19 else 32
  | EnqueuePc.notifyFlush pc => (if full then 13 else 26) + pc.left
  | EnqueuePc.lockSpace => if full then 12 else 26
  | EnqueuePc.testRunning expired =>
      if full then (if expired then 6 else 11) else 25
  | EnqueuePc.testSpace expired =>
      if full then (if expired then 5 else 10) else 24
  | EnqueuePc.sleepSpace => if full then 9 else 28
  | EnqueuePc.asleepSpace => if full then (if notified then 13 else 8) else 27
  | EnqueuePc.relockSpace expired =>
      if full then (if expired then 7 else 12) else 26
  | EnqueuePc.unlockSpace => 23
  | pc => pc.left C

def DropPc.alone : DropPc -> Nat
  | DropPc.total => 4
  | DropPc.unreported => 3
  | DropPc.timeout => 2
  | DropPc.unlock => 1

def ClientPc.alone (C : AsyncSinkConfig) (full notified : Bool) :
    ClientPc -> Nat
  | ClientPc.enter _ _ => 23
  | ClientPc.enqueue _ pc => pc.alone C full notified
  | ClientPc.drop _ _ _ pc => pc.alone
  | _ => 0

theorem EnqueuePc.alone_of_settled {pc : EnqueuePc} (h : pc.settled = true)
    (full notified : Bool) :
    pc.alone C full notified = pc.left C := by
  cases pc <;> first | rfl | cases h

theorem ClientPc.alone_le {pc : ClientPc} (full notified : Bool)
    (hdepth : pc.stage.depth ≤ C.queueCapacity) :
    pc.alone C full notified ≤ C.queueCapacity + 32 := by
  cases pc with
  | enqueue ticket pc =>
      cases pc with
      | loadWatermark depth | exchangeWatermark depth current =>
          have hbound : depth ≤ C.queueCapacity := hdepth
          simp only [alone, EnqueuePc.alone, EnqueuePc.left]
          omega
      | notifyFlush pc =>
          have hleft := pc.left_le
          simp only [alone, EnqueuePc.alone]
          split <;> omega
      | notifyFallback pc =>
          have hleft := pc.left_le
          simp only [alone, EnqueuePc.alone, EnqueuePc.left]
          omega
      | deliver pc =>
          have hleft := pc.left_le
          simp only [alone, EnqueuePc.alone, EnqueuePc.left]
          omega
      | _ =>
          simp only [alone, EnqueuePc.alone, EnqueuePc.left]
          (repeat' split) <;> omega
  | drop call timeout holding pc =>
      cases pc <;> simp only [alone, DropPc.alone] <;> omega
  | _ =>
      simp only [alone]
      omega

section

variable [DecidableEq Thread]

def Shared.notifiedOfSpace (s : Shared Thread C) (t : Thread) : Bool :=
  decide (t ∉ s.spaceSleepers)

def Shared.alone (s : Shared Thread C) (t : Thread) (pc : ClientPc) : Nat :=
  pc.alone C (!s.queue.canEnqueue) (s.notifiedOfSpace t)

inductive WriteStep (t : Thread) (s s' : Shared Thread C) (pc pc' : ClientPc) :
    Prop where
  | inserts :
      s'.queue.size = s.queue.size + 1 -> pc.mayInsert = 1 ->
      pc'.mayInsert = 0 -> WriteStep t s s' pc pc'
  | nearer :
      s'.queue = s.queue ->
      (forall t', t' ≠ t -> s'.notifiedOfSpace t' = s.notifiedOfSpace t') ->
      pc'.mayInsert ≤ pc.mayInsert ->
      s'.alone t pc' + 1 ≤ s.alone t pc -> WriteStep t s s' pc pc'

theorem WriteStep.of_eq {t : Thread} {s s' : Shared Thread C}
    {pc pc' : ClientPc} (hqueue : s'.queue = s.queue)
    (hsleepers : s'.spaceSleepers = s.spaceSleepers)
    (hinsert : pc'.mayInsert ≤ pc.mayInsert)
    (halone : s.alone t pc' + 1 ≤ s.alone t pc) :
    WriteStep t s s' pc pc' := by
  refine WriteStep.nearer hqueue (fun t' _ => ?_) hinsert ?_
  · unfold Shared.notifiedOfSpace
    rw [hsleepers]
  · have hsame : s'.alone t pc' = s.alone t pc' := by
      unfold Shared.alone Shared.notifiedOfSpace
      rw [hqueue, hsleepers]
    rw [hsame]
    exact halone

theorem enqueueStep_settled_frame {t : Thread} {choice : Choice}
    {s s' : Shared Thread C} {ticket : Ticket} {pc : EnqueuePc} {pc' : ClientPc}
    (hpc : pc.settled = true)
    (h : enqueueStep t choice s ticket pc = some (s', pc')) :
    s'.queue = s.queue ∧ s'.spaceSleepers = s.spaceSleepers ∧
      (pc' = ClientPc.idle ∨ exists pc'' : EnqueuePc,
        pc''.settled = true ∧ pc' = ClientPc.enqueue ticket pc'') := by
  cases pc <;> simp only [enqueueStep] at h
  case notifyWake =>
    cases h
    exact ⟨rfl, rfl, Or.inl rfl⟩
  case deliver pc =>
    rcases Option.map_eq_some_iff.mp h with ⟨⟨s1, next⟩, hstep, hpair⟩
    rcases deliverStep_shape hstep with ⟨_, _, _, _, rfl, _⟩
    cases next <;> cases hpair <;> exact ⟨rfl, rfl, Or.inr ⟨_, rfl, rfl⟩⟩
  case notifyFallback pc =>
    rcases Option.map_eq_some_iff.mp h with ⟨⟨s1, next⟩, hstep, hpair⟩
    rcases notifyFlushStep_shape hstep with ⟨_, _, rfl⟩
    cases next <;> cases hpair
    · exact ⟨rfl, rfl, Or.inl rfl⟩
    · exact ⟨rfl, rfl, Or.inr ⟨_, rfl, rfl⟩⟩
  case countEnqueued | sampleDepth | loadWatermark depth |
      exchangeWatermark depth current | addFallback | countFallback |
      subFallback =>
    (repeat' split at h) <;> cases h <;>
      exact ⟨rfl, rfl, Or.inr ⟨_, rfl, rfl⟩⟩
  all_goals cases hpc

theorem afterRejection_alone (full notified : Bool)
    (policy : AsyncOverflowPolicy) (ticket : Ticket) :
    (afterRejection policy ticket).alone C full notified ≤
      if full then 13 else 26 := by
  cases policy <;> cases full <;>
    simp [afterRejection, ClientPc.alone, DropPc.alone, EnqueuePc.alone,
      EnqueuePc.left]

theorem afterRejection_mayInsert (policy : AsyncOverflowPolicy)
    (ticket : Ticket) :
    (afterRejection policy ticket).mayInsert ≤ 1 := by
  cases policy <;>
    simp [afterRejection, ClientPc.mayInsert, EnqueuePc.mayInsert,
      EnqueuePc.settled]

theorem Choice.cost_of_ne {choice : Choice} (h : choice ≠ Choice.spurious) :
    choice.cost = 1 := by
  cases choice <;> first | rfl | exact absurd rfl h

theorem enqueueStep_writeStep {t : Thread} {choice : Choice}
    {s s' : Shared Thread C} {ticket : Ticket} {pc : EnqueuePc} {pc' : ClientPc}
    (hrunning : s.running = true) (hchoice : choice ≠ Choice.spurious)
    (hfresh : (ClientPc.enqueue ticket pc).Fresh s.queueHighWatermark)
    (h : enqueueStep t choice s ticket pc = some (s', pc')) :
    WriteStep t s s' (ClientPc.enqueue ticket pc) pc' := by
  cases hpc : pc.settled with
  | true =>
      have hleft := (enqueueStep_settled hpc hfresh h).left
      rw [Choice.cost_of_ne hchoice] at hleft
      rcases enqueueStep_settled_frame hpc h with ⟨hqueue, hsleepers, hnext⟩
      have halone : s.alone t (ClientPc.enqueue ticket pc) = pc.left C :=
        EnqueuePc.alone_of_settled hpc _ _
      rcases hnext with rfl | ⟨pc'', hsettled, rfl⟩
      · refine WriteStep.of_eq hqueue hsleepers (Nat.zero_le _) ?_
        rw [halone]
        exact hleft
      · have halone' : s.alone t (ClientPc.enqueue ticket pc'') =
            pc''.left C := EnqueuePc.alone_of_settled hsettled _ _
        refine WriteStep.of_eq hqueue hsleepers ?_ ?_
        · simp [ClientPc.mayInsert, EnqueuePc.mayInsert, hsettled]
        · rw [halone, halone']
          exact hleft
  | false =>
      cases pc <;> simp only [enqueueStep] at h
      case tryEnqueue =>
        split at h
        · rename_i htry
          have hsize := (MpscBoundedQueue.contents_tryEnqueue htry).2.2.1
          cases h
          exact WriteStep.inserts hsize rfl rfl
        · rename_i htry
          rcases MpscBoundedQueue.tryEnqueue_false htry with ⟨rfl, _, hfull⟩
          cases h
          refine WriteStep.of_eq rfl rfl (Nat.le_refl _) ?_
          have hnone : s.queue.canEnqueue = false := by
            rw [Bool.eq_false_iff, ne_eq, MpscBoundedQueue.canEnqueue_iff]
            omega
          simp [Shared.alone, ClientPc.alone, EnqueuePc.alone, hnone]
      case notifyFlush pc =>
        rcases Option.map_eq_some_iff.mp h with ⟨⟨s1, next⟩, hstep, hpair⟩
        have hleft := notifyFlushStep_left hstep
        rcases notifyFlushStep_shape hstep with ⟨_, _, rfl⟩
        cases next <;> cases hpair
        · have hnext := @afterRejection_alone C (!s.queue.canEnqueue)
            (s.notifiedOfSpace t) C.overflowPolicy ticket
          refine WriteStep.of_eq rfl rfl
            (afterRejection_mayInsert _ _) ?_
          simp only [Shared.alone, ClientPc.alone, EnqueuePc.alone,
            stepsLeft_none] at hnext hleft ⊢
          omega
        · refine WriteStep.of_eq rfl rfl (Nat.le_refl _) ?_
          simp only [Shared.alone, ClientPc.alone, EnqueuePc.alone,
            stepsLeft_some] at hleft ⊢
          omega
      case loopRunning | testRunning expired =>
        rw [hrunning] at h
        cases h
        refine WriteStep.of_eq rfl rfl (Nat.le_refl _) ?_
        simp only [Shared.alone, ClientPc.alone, EnqueuePc.alone]
        (repeat' split) <;> omega
      case addOutstanding | subOutstanding | unlockSpace =>
        cases h
        refine WriteStep.of_eq rfl rfl (Nat.le_refl _) ?_
        simp only [Shared.alone, ClientPc.alone, EnqueuePc.alone,
          NotifyPc.left]
        (repeat' split) <;> omega
      case lockSpace | relockSpace expired =>
        split at h <;> cases h
        refine WriteStep.of_eq rfl rfl (Nat.le_refl _) ?_
        simp only [Shared.alone, ClientPc.alone, EnqueuePc.alone]
        (repeat' split) <;> simp_all
      case testSpace expired =>
        split at h
        · rename_i hroom
          cases h
          refine WriteStep.of_eq rfl rfl (Nat.le_refl _) ?_
          simp [Shared.alone, ClientPc.alone, EnqueuePc.alone, hroom]
        · rename_i hroom
          have hnone : s.queue.canEnqueue = false := Bool.eq_false_iff.mpr hroom
          split at h
          · rename_i hexpired
            cases h
            refine WriteStep.of_eq rfl rfl (Nat.zero_le _) ?_
            simp [Shared.alone, ClientPc.alone, EnqueuePc.alone, DropPc.alone,
              hnone, hexpired]
          · rename_i hexpired
            cases h
            refine WriteStep.of_eq rfl rfl (Nat.le_refl _) ?_
            simp [Shared.alone, ClientPc.alone, EnqueuePc.alone, hnone,
              hexpired]
      case sleepSpace =>
        cases h
        refine WriteStep.nearer rfl (fun t' ht => ?_) (Nat.le_refl _) ?_
        · simp [Shared.notifiedOfSpace, ht]
        · simp only [Shared.alone, ClientPc.alone, EnqueuePc.alone,
            Shared.notifiedOfSpace]
          (repeat' split) <;> simp_all
      case asleepSpace =>
        have hothers : forall t', t' ≠ t ->
            Shared.notifiedOfSpace
              { s with spaceSleepers := s.spaceSleepers.filter (· ≠ t) } t' =
              s.notifiedOfSpace t' := by
          intro t' ht
          simp [Shared.notifiedOfSpace, ht]
        split at h
        · cases h
          refine WriteStep.nearer rfl hothers (Nat.le_refl _) ?_
          simp only [Shared.alone, ClientPc.alone, EnqueuePc.alone, if_true]
          (repeat' split) <;> decide
        · split at h
          · rename_i hwoken
            have hnotified : s.notifiedOfSpace t = true :=
              decide_eq_true (hwoken.resolve_left hchoice)
            cases h
            refine WriteStep.nearer rfl hothers (Nat.le_refl _) ?_
            simp only [Shared.alone, ClientPc.alone, EnqueuePc.alone,
              hnotified]
            split <;> simp
          · cases h
      all_goals cases hpc

omit [DecidableEq Thread] in
theorem dropStep_shape_alone {s s' : Shared Thread C} {call : Nat}
    {timeout holding : Bool} {pc : DropPc} {pc' : ClientPc}
    (h : dropStep s call timeout holding pc = some (s', pc'))
    (full notified : Bool) :
    pc'.mayInsert = 0 ∧ pc'.alone C full notified + 1 ≤ pc.alone := by
  cases holding <;> cases timeout <;> cases pc <;> cases h <;>
    exact ⟨rfl, by simp [ClientPc.alone, DropPc.alone]⟩

theorem clientStep_writeStep {t : Thread} {choice : Choice}
    {s s' : Shared Thread C} {pc pc' : ClientPc}
    (hrunning : s.running = true) (hchoice : choice ≠ Choice.spurious)
    (hfresh : pc.Fresh s.queueHighWatermark) (hcall : pc.call?.isSome = true)
    (h : clientStep t choice s pc = some (s', pc')) :
    WriteStep t s s' pc pc' := by
  cases pc with
  | idle | flush before pc | stats loaded pc => cases hcall
  | enter call record =>
      simp only [clientStep, hrunning, if_true, Option.some.injEq,
        Prod.mk.injEq] at h
      rcases h with ⟨rfl, rfl⟩
      refine WriteStep.of_eq rfl rfl ?_ ?_
      · cases C.overflowPolicy <;>
          simp [enqueueEntry, ClientPc.mayInsert, EnqueuePc.mayInsert,
            EnqueuePc.settled]
      · cases C.overflowPolicy <;>
          simp [Shared.alone, ClientPc.alone, enqueueEntry, EnqueuePc.alone]
  | enqueue ticket pc =>
      exact enqueueStep_writeStep hrunning hchoice hfresh h
  | drop call timeout holding pc =>
      rcases dropStep_shape_alone h (!s.queue.canEnqueue)
        (s.notifiedOfSpace t) with ⟨hinsert, halone⟩
      rcases dropStep_shape h with ⟨⟨_, _, _, _, _, _, _, _, rfl⟩, _⟩
      exact WriteStep.of_eq rfl rfl (hinsert ▸ Nat.zero_le _) halone

end

/-!
## How far a caller of `Flush` is from its return

Nobody is further from the return when nothing is outstanding, and a
notification sends whoever sleeps five steps back at most.
-/

/--
The most steps that a call of `Flush` takes until it returns or sleeps.  While
`m_outstanding` is not zero, whoever has been notified may go back to sleep.
-/
def FlushPc.toReturn (dirty notified : Bool) : FlushPc -> Nat
  | FlushPc.lock => if dirty then 19 else 14
  | FlushPc.testOutstanding => if dirty then 18 else 13
  | FlushPc.testEmpty => if dirty then 17 else 12
  | FlushPc.sleep => 16
  | FlushPc.asleep => if dirty && notified then 20 else 15
  | FlushPc.relock => if dirty then 19 else 14
  | FlushPc.unlock => 11
  | FlushPc.report pc => 5 + pc.left
  | FlushPc.flushSink pc => pc.left

def StatsPc.left : StatsPc -> Nat
  | StatsPc.loadEnqueued => 8
  | StatsPc.loadDelivered => 7
  | StatsPc.loadDropped => 6
  | StatsPc.loadTimeoutDropped => 5
  | StatsPc.loadFallbackWrites => 4
  | StatsPc.loadErrors => 3
  | StatsPc.loadHighWatermark => 2
  | StatsPc.loadDepth => 1

def ClientPc.toReturn (dirty notified : Bool) : ClientPc -> Nat
  | ClientPc.flush _ pc => pc.toReturn dirty notified
  | ClientPc.stats _ pc => pc.left
  | _ => 0

theorem ClientPc.toReturn_le (dirty notified : Bool) (pc : ClientPc) :
    pc.toReturn dirty notified ≤ 20 := by
  cases pc with
  | flush before pc =>
      cases pc with
      | report pc =>
          have hleft := pc.left_le
          simp only [toReturn, FlushPc.toReturn]
          omega
      | flushSink pc =>
          have hleft := pc.left_le
          simp only [toReturn, FlushPc.toReturn]
          omega
      | _ =>
          simp only [toReturn, FlushPc.toReturn]
          (repeat' split) <;> decide
  | stats loaded pc => cases pc <;> simp [toReturn, StatsPc.left]
  | _ => exact Nat.zero_le _

theorem ClientPc.toReturn_clean_le (dirty notified notified' : Bool)
    (pc : ClientPc) :
    pc.toReturn false notified ≤ pc.toReturn dirty notified' := by
  cases pc with
  | flush before pc =>
      cases pc <;> cases dirty <;> cases notified' <;>
        simp [toReturn, FlushPc.toReturn]
  | _ => exact Nat.le_refl _

theorem ClientPc.toReturn_notified_le (dirty notified : Bool) (pc : ClientPc) :
    pc.toReturn dirty true ≤ pc.toReturn dirty notified + 5 := by
  cases pc with
  | flush before pc =>
      cases pc <;> cases dirty <;> cases notified <;>
        simp [toReturn, FlushPc.toReturn]
  | _ => exact Nat.le_add_right _ _

section

variable [DecidableEq Thread]

def Shared.dirty (s : Shared Thread C) : Bool :=
  decide (s.outstanding ≠ 0)

def Shared.notifiedOfFlush (s : Shared Thread C) (t : Thread) : Bool :=
  decide (t ∉ s.flushSleepers)

def Shared.toReturn (s : Shared Thread C) (t : Thread) (pc : ClientPc) : Nat :=
  pc.toReturn s.dirty (s.notifiedOfFlush t)

structure ReadStep (t : Thread) (s s' : Shared Thread C) (pc pc' : ClientPc) :
    Prop where
  queue : s'.queue = s.queue
  spaceSleepers : s'.spaceSleepers = s.spaceSleepers
  outstanding : s'.outstanding = s.outstanding
  others : forall t', t' ≠ t -> s'.notifiedOfFlush t' = s.notifiedOfFlush t'
  mayInsert : pc'.mayInsert = 0
  alone : forall full notified, pc'.alone C full notified = 0
  nearer : s'.toReturn t pc' + 1 ≤ s.toReturn t pc

theorem flushStep_readStep {t : Thread} {choice : Choice}
    {s s' : Shared Thread C} {before : List Nat} {pc : FlushPc} {pc' : ClientPc}
    (hchoice : choice ≠ Choice.spurious)
    (hempty : s.outstanding = 0 -> s.queue.isEmpty = true)
    (h : flushStep t choice s before pc = some (s', pc')) :
    ReadStep t s s' (ClientPc.flush before pc) pc' := by
  cases pc <;> simp only [flushStep] at h
  case lock | relock =>
    split at h <;> cases h
    refine ⟨rfl, rfl, rfl, fun _ _ => rfl, rfl, fun _ _ => rfl, ?_⟩
    show (if s.dirty then 18 else 13) + 1 ≤ if s.dirty then 19 else 14
    split <;> decide
  case testOutstanding =>
    cases h
    split
    · rename_i hzero
      refine ⟨rfl, rfl, rfl, fun _ _ => rfl, rfl, fun _ _ => rfl, ?_⟩
      simp [Shared.toReturn, ClientPc.toReturn, FlushPc.toReturn,
        Shared.dirty, hzero]
    · rename_i hsome
      refine ⟨rfl, rfl, rfl, fun _ _ => rfl, rfl, fun _ _ => rfl, ?_⟩
      simp [Shared.toReturn, ClientPc.toReturn, FlushPc.toReturn,
        Shared.dirty, hsome]
  case testEmpty =>
    cases h
    split
    · refine ⟨rfl, rfl, rfl, fun _ _ => rfl, rfl, fun _ _ => rfl, ?_⟩
      simp only [Shared.toReturn, ClientPc.toReturn, FlushPc.toReturn]
      split <;> decide
    · rename_i hsome
      have hdirty : s.outstanding ≠ 0 := fun hzero => hsome (hempty hzero)
      refine ⟨rfl, rfl, rfl, fun _ _ => rfl, rfl, fun _ _ => rfl, ?_⟩
      simp [Shared.toReturn, ClientPc.toReturn, FlushPc.toReturn,
        Shared.dirty, hdirty]
  case sleep =>
    cases h
    refine ⟨rfl, rfl, rfl, fun t' ht => ?_, rfl, fun _ _ => rfl, ?_⟩
    · simp [Shared.notifiedOfFlush, ht]
    · simp [Shared.toReturn, ClientPc.toReturn, FlushPc.toReturn,
        Shared.notifiedOfFlush]
  case asleep =>
    split at h
    · rename_i hwoken
      have hnotified := hwoken.resolve_left hchoice
      cases h
      refine ⟨rfl, rfl, rfl, fun t' ht => ?_, rfl, fun _ _ => rfl, ?_⟩
      · simp [Shared.notifiedOfFlush, ht]
      · have hnow : s.notifiedOfFlush t = true := decide_eq_true hnotified
        show (if s.dirty then 19 else 14) + 1 ≤
          if s.dirty && s.notifiedOfFlush t then 20 else 15
        rw [hnow, Bool.and_true]
        split <;> decide
    · cases h
  case unlock =>
    cases h
    split <;>
      refine ⟨rfl, rfl, rfl, fun _ _ => rfl, rfl, fun _ _ => rfl, ?_⟩ <;>
      simp [Shared.toReturn, ClientPc.toReturn, FlushPc.toReturn,
        ReportPc.left, FlushSinkPc.left]
  case report pc =>
    rcases Option.map_eq_some_iff.mp h with ⟨⟨s1, next⟩, hstep, hpair⟩
    have hleft := reportStep_left hstep
    rcases reportStep_shape hstep with ⟨_, _, _, _, _, rfl, _⟩
    cases next <;> cases hpair <;>
      refine ⟨rfl, rfl, rfl, fun _ _ => rfl, rfl, fun _ _ => rfl, ?_⟩ <;>
      simp only [Shared.toReturn, ClientPc.toReturn, FlushPc.toReturn,
        FlushSinkPc.left, stepsLeft_none, stepsLeft_some] at hleft ⊢ <;>
      omega
  case flushSink pc =>
    rcases Option.map_eq_some_iff.mp h with ⟨⟨s1, next⟩, hstep, hpair⟩
    have hleft := flushSinkStep_left hstep
    rcases flushSinkStep_shape hstep with ⟨_, _, _, rfl, _⟩
    cases next <;> cases hpair <;>
      refine ⟨rfl, rfl, rfl, fun _ _ => rfl, rfl, fun _ _ => rfl, ?_⟩ <;>
      simp only [Shared.toReturn, ClientPc.toReturn, FlushPc.toReturn,
        stepsLeft_none, stepsLeft_some] at hleft ⊢ <;>
      omega

theorem clientStep_readStep {t : Thread} {choice : Choice}
    {s s' : Shared Thread C} {pc pc' : ClientPc}
    (hchoice : choice ≠ Choice.spurious)
    (hempty : s.outstanding = 0 -> s.queue.isEmpty = true)
    (hcall : pc.call?.isSome = false)
    (h : clientStep t choice s pc = some (s', pc')) :
    ReadStep t s s' pc pc' := by
  cases pc with
  | idle => cases h
  | flush before pc => exact flushStep_readStep hchoice hempty h
  | stats loaded pc =>
      cases pc <;> cases h <;>
        exact ⟨rfl, rfl, rfl, fun _ _ => rfl, rfl, fun _ _ => rfl,
          Nat.le_refl _⟩
  | _ => cases hcall

end

/-!
## What the worker does to those who wait

It sends nobody back for nothing.
-/

def NotifyPc.committed : NotifyPc -> Bool
  | NotifyPc.testEmpty => true
  | NotifyPc.lock => true
  | NotifyPc.notifyAll => true
  | _ => false

def WorkerPc.committed : WorkerPc -> Bool
  | WorkerPc.notifyFlush _ pc => pc.committed
  | WorkerPc.lastNotify pc => pc.committed
  | _ => false

inductive FlushKept (s s' : Shared Thread C) (pc pc' : WorkerPc) : Prop where
  | keeps :
      s'.outstanding = s.outstanding -> s'.flushSleepers = s.flushSleepers ->
      (s.outstanding ≠ 0 -> pc'.committed = true -> pc.committed = true) ->
      FlushKept s s' pc pc'
  | lowers :
      s.outstanding ≠ 0 -> s'.flushSleepers = s.flushSleepers ->
      pc'.committed = false -> FlushKept s s' pc pc'
  | wakes :
      s'.outstanding = s.outstanding -> s'.flushSleepers = [] ->
      pc.committed = true -> pc'.committed = false -> FlushKept s s' pc pc'

inductive WorkStep (s s' : Shared Thread C) (pc pc' : WorkerPc) : Prop where
  | dequeues :
      s'.queue.size + 1 = s.queue.size -> pc.owesNotify = false ->
      WorkStep s s' pc pc'
  | notifies :
      s'.queue = s.queue -> pc.owesNotify = true -> pc'.owesNotify = false ->
      WorkStep s s' pc pc'
  | quiet :
      s'.queue = s.queue -> s'.spaceSleepers = s.spaceSleepers ->
      pc'.owesNotify = pc.owesNotify -> FlushKept s s' pc pc' ->
      WorkStep s s' pc pc'

theorem WorkStep.of_frame {s s' : Shared Thread C} {pc pc' : WorkerPc}
    (hqueue : s'.queue = s.queue)
    (hspace : s'.spaceSleepers = s.spaceSleepers)
    (hflush : s'.flushSleepers = s.flushSleepers)
    (houtstanding : s'.outstanding = s.outstanding)
    (howes : pc'.owesNotify = pc.owesNotify) (hcommitted : pc'.committed = false) :
    WorkStep s s' pc pc' :=
  WorkStep.quiet hqueue hspace howes (FlushKept.keeps houtstanding hflush
    fun _ h => by rw [hcommitted] at h; cases h)

theorem notifyFlushStep_kept {s s' : Shared Thread C} {pc : NotifyPc}
    {next : Option NotifyPc} {here there : WorkerPc}
    (hhere : here.committed = pc.committed)
    (hthere : there.committed = next.any NotifyPc.committed)
    (h : notifyFlushStep Agent.worker s pc = some (s', next)) :
    FlushKept s s' here there := by
  cases pc <;> simp only [notifyFlushStep] at h
  case loadOutstanding =>
    cases h
    refine FlushKept.keeps rfl rfl fun hsome hcommitted => ?_
    rw [if_neg hsome] at hthere
    cases hthere.symm.trans hcommitted
  case testEmpty =>
    cases h
    exact FlushKept.keeps rfl rfl fun _ _ => hhere
  case lock =>
    split at h <;> cases h
    exact FlushKept.keeps rfl rfl fun _ _ => hhere
  case notifyAll =>
    cases h
    exact FlushKept.wakes rfl rfl hhere hthere
  case unlock =>
    cases h
    refine FlushKept.keeps rfl rfl fun _ hcommitted => ?_
    cases hthere.symm.trans hcommitted

theorem workerStep_workStep {choice : Choice} {s s' : Shared Thread C}
    {pc pc' : WorkerPc} (howes : pc.owes ≠ 0 -> s.outstanding ≠ 0)
    (h : workerStep choice s pc = some (s', pc')) :
    WorkStep s s' pc pc' := by
  cases pc <;> simp only [workerStep] at h
  case testRunning | idleRunning expired =>
    cases h
    split <;> exact WorkStep.of_frame rfl rfl rfl rfl rfl rfl
  case testEmpty =>
    cases h
    split
    · exact WorkStep.of_frame rfl rfl rfl rfl
        (afterLoop_eq WorkerPc.owesNotify rfl rfl)
        (afterLoop_eq WorkerPc.committed rfl rfl)
    · exact WorkStep.of_frame rfl rfl rfl rfl rfl rfl
  case dequeue drained =>
    have hquiet : forall q, q = s.queue ->
        WorkStep s { s with queue := q } (WorkerPc.dequeue drained)
          (afterBatch C drained) := by
      rintro q rfl
      exact WorkStep.of_frame rfl rfl rfl rfl
        (afterBatch_eq WorkerPc.owesNotify rfl rfl)
        (afterBatch_eq WorkerPc.committed rfl rfl)
    split at h
    · split at h
      · rename_i hdequeue
        have hsize := (MpscBoundedQueue.contents_tryDequeue hdequeue).2
        cases h
        exact WorkStep.dequeues hsize.symm rfl
      · rename_i hdequeue
        cases h
        exact hquiet _ (MpscBoundedQueue.tryDequeue_false hdequeue).1
    · cases h
      exact hquiet _ rfl
  case deliver ticket drained pc =>
    rcases Option.map_eq_some_iff.mp h with ⟨⟨s1, next⟩, hstep, hpair⟩
    rcases deliverStep_shape hstep with ⟨_, _, _, _, rfl, _⟩
    cases next <;> cases hpair <;>
      exact WorkStep.of_frame rfl rfl rfl rfl rfl rfl
  case subOutstanding drained =>
    cases h
    exact WorkStep.quiet rfl rfl rfl
      (FlushKept.lowers (howes (by simp [WorkerPc.owes])) rfl rfl)
  case notifySpace drained =>
    cases h
    exact WorkStep.notifies rfl rfl rfl
  case report drained pc | lastReport pc =>
    rcases Option.map_eq_some_iff.mp h with ⟨⟨s1, next⟩, hstep, hpair⟩
    rcases reportStep_shape hstep with ⟨_, _, _, _, _, rfl, _⟩
    cases next <;> cases hpair <;>
      exact WorkStep.of_frame rfl rfl rfl rfl rfl rfl
  case notifyFlush drained pc =>
    rcases Option.map_eq_some_iff.mp h with ⟨⟨s1, next⟩, hstep, hpair⟩
    have hkept : FlushKept s s' (WorkerPc.notifyFlush drained pc) pc' := by
      cases next <;> cases hpair
      · exact notifyFlushStep_kept rfl
          (afterIteration_eq WorkerPc.committed rfl rfl) hstep
      · exact notifyFlushStep_kept rfl rfl hstep
    rcases notifyFlushStep_shape hstep with ⟨_, _, rfl⟩
    cases next <;> cases hpair
    · exact WorkStep.quiet rfl rfl
        (afterIteration_eq WorkerPc.owesNotify rfl rfl) hkept
    · exact WorkStep.quiet rfl rfl rfl hkept
  case lastFlush pc =>
    rcases Option.map_eq_some_iff.mp h with ⟨⟨s1, next⟩, hstep, hpair⟩
    rcases flushSinkStep_shape hstep with ⟨_, _, _, rfl, _⟩
    cases next <;> cases hpair <;>
      exact WorkStep.of_frame rfl rfl rfl rfl rfl rfl
  case lastNotify pc =>
    rcases Option.map_eq_some_iff.mp h with ⟨⟨s1, next⟩, hstep, hpair⟩
    have hkept : FlushKept s s' (WorkerPc.lastNotify pc) pc' := by
      cases next <;> cases hpair <;>
        exact notifyFlushStep_kept rfl rfl hstep
    rcases notifyFlushStep_shape hstep with ⟨_, _, rfl⟩
    cases next <;> cases hpair <;> exact WorkStep.quiet rfl rfl rfl hkept
  case idleEmpty expired | idleAsleep =>
    (repeat' split at h) <;> cases h <;>
      exact WorkStep.of_frame rfl rfl rfl rfl rfl rfl
  case finished => cases h

/-!
## The rank of a state
-/

section

variable [Fintype Thread] [DecidableEq Thread]

/--
How often the queue can still change, or space be announced: each call inserts
one record, each record is taken out, and each time the worker notifies.
-/
def changesLeft (s : State Thread C) : Nat :=
  3 * (∑ t, (s.client t).mayInsert) + 2 * s.shared.queue.size +
    s.worker.owesNotify.toNat

def aloneLimit (Thread : Type) [Fintype Thread] (C : AsyncSinkConfig) : Nat :=
  Fintype.card Thread * (C.queueCapacity + 32)

def writeRank (s : State Thread C) : Nat :=
  lexRank (aloneLimit Thread C) (changesLeft s)
    (∑ t, s.shared.alone t (s.client t))

def flushRank (s : State Thread C) : Nat :=
  (∑ t, s.shared.toReturn t (s.client t)) +
    if s.shared.dirty && s.worker.committed then
      Fintype.card Thread * 5
    else
      0

def flushLimit (Thread : Type) [Fintype Thread] : Nat :=
  Fintype.card Thread * 25

def settlingRank (s : State Thread C) : Nat :=
  lexRank (flushLimit Thread) (writeRank s) (flushRank s)

theorem alone_le_limit {s : State Thread C} (h : Gauged s) :
    (∑ t, s.shared.alone t (s.client t)) ≤ aloneLimit Thread C :=
  sum_le_card_mul fun t => ClientPc.alone_le _ _ (h.depth_le t)

theorem flushRank_le (s : State Thread C) :
    flushRank s ≤ flushLimit Thread := by
  have hsum : (∑ t, s.shared.toReturn t (s.client t)) ≤
      Fintype.card Thread * 20 :=
    sum_le_card_mul fun t => ClientPc.toReturn_le _ _ (s.client t)
  unfold flushRank flushLimit
  split <;> omega

theorem settlingRank_of_write {s s' : State Thread C}
    (h : writeRank s' < writeRank s) :
    settlingRank s' + 1 ≤ settlingRank s :=
  lexRank_of_outer h (flushRank_le s')

theorem sum_mayInsert_update (s : State Thread C) {t : Thread} {pc : ClientPc}
    (d : Nat) (h : pc.mayInsert + d ≤ (s.client t).mayInsert) :
    (∑ t', (Function.update s.client t pc t').mayInsert) + d ≤
      ∑ t', (s.client t').mayInsert := by
  refine sum_add_le_of_one t ?_ fun t' ht => ?_
  · simpa only [Function.update_self] using h
  · rw [Function.update_of_ne ht]

theorem WriteStep.lowers {s : State Thread C} {t : Thread}
    {shared : Shared Thread C} {pc : ClientPc}
    (h : WriteStep t s.shared shared (s.client t) pc)
    (hafter : Gauged
      { s with shared := shared, client := Function.update s.client t pc }) :
    settlingRank
        { s with
          shared := shared
          client := Function.update s.client t pc } + 1 ≤ settlingRank s := by
  have hothers : forall t', t' ≠ t ->
      Function.update s.client t pc t' = s.client t' := fun t' ht =>
    Function.update_of_ne ht _ _
  apply settlingRank_of_write
  cases h with
  | inserts hsize hbefore hnone =>
      refine lexRank_of_outer ?_ (alone_le_limit hafter)
      have hinserted : pc.mayInsert + 1 ≤ (s.client t).mayInsert := by omega
      have hinserts := sum_mayInsert_update s 1 hinserted
      simp only [changesLeft]
      omega
  | nearer hqueue hnotified hinsert halone =>
      refine lexRank_of_inner (d := 1) ?_
        (sum_add_le_of_one t ?_ fun t' ht => ?_)
      · have hinserts := sum_mayInsert_update s 0 hinsert
        simp only [changesLeft, hqueue]
        omega
      · simpa only [Function.update_self] using halone
      · simp only [hothers t' ht, Shared.alone, hqueue, hnotified t' ht]
        exact Nat.le_refl _

theorem ReadStep.lowers {s : State Thread C} {t : Thread}
    {shared : Shared Thread C} {pc : ClientPc}
    (h : ReadStep t s.shared shared (s.client t) pc) :
    settlingRank
        { s with
          shared := shared
          client := Function.update s.client t pc } + 1 ≤ settlingRank s := by
  have hothers : forall t', t' ≠ t ->
      Function.update s.client t pc t' = s.client t' := fun t' ht =>
    Function.update_of_ne ht _ _
  have hdirty : shared.dirty = s.shared.dirty := by
    unfold Shared.dirty
    rw [h.outstanding]
  refine lexRank_of_inner (d := 1) (lexRank_of_inner (d := 0) ?_
    (sum_add_le_of_one t ?_ fun t' ht => ?_)) ?_
  · have hnone : pc.mayInsert + 0 ≤ (s.client t).mayInsert := by
      rw [h.mayInsert]
      exact Nat.zero_le _
    have hinserts := sum_mayInsert_update s 0 hnone
    simp only [changesLeft, h.queue]
    omega
  · simp only [Function.update_self, Shared.alone, h.alone]
    exact Nat.zero_le _
  · simp only [hothers t' ht, Shared.alone, Shared.notifiedOfSpace, h.queue,
      h.spaceSleepers]
    exact Nat.le_refl _
  · have hsum := @sum_add_le_of_one Thread _
      (fun t' => s.shared.toReturn t' (s.client t'))
      (fun t' => shared.toReturn t' (Function.update s.client t pc t')) t 1
      (by simpa only [Function.update_self] using h.nearer)
      (fun t' ht => by
        simp only [hothers t' ht, Shared.toReturn, hdirty, h.others t' ht]
        exact Nat.le_refl _)
    simp only [flushRank, hdirty]
    omega

theorem FlushKept.flushRank_le {s : State Thread C} {shared : Shared Thread C}
    {pc : WorkerPc} (h : FlushKept s.shared shared s.worker pc) :
    flushRank { s with shared := shared, worker := pc } ≤ flushRank s := by
  cases h with
  | keeps houtstanding hsleepers hcommitted =>
      have hdirty : shared.dirty = s.shared.dirty := by
        unfold Shared.dirty
        rw [houtstanding]
      have hsum : (∑ t, shared.toReturn t (s.client t)) =
          ∑ t, s.shared.toReturn t (s.client t) := by
        simp only [Shared.toReturn, Shared.notifiedOfFlush, hdirty, hsleepers]
      simp only [flushRank, hsum, hdirty]
      cases hmode : s.shared.dirty with
      | false => simp
      | true =>
          have hsome : s.shared.outstanding ≠ 0 := of_decide_eq_true hmode
          cases hnext : pc.committed with
          | false => simp
          | true => simp [hcommitted hsome hnext]
  | lowers hsome hsleepers hnone =>
      have hdirty : s.shared.dirty = true := decide_eq_true hsome
      have hsum : (∑ t, shared.toReturn t (s.client t)) ≤
          ∑ t, s.shared.toReturn t (s.client t) := by
        refine Finset.sum_le_sum fun t _ => ?_
        simp only [Shared.toReturn, Shared.notifiedOfFlush, hdirty, hsleepers]
        cases shared.dirty with
        | false => exact ClientPc.toReturn_clean_le _ _ _ _
        | true => exact Nat.le_refl _
      simp only [flushRank, hnone, Bool.and_false, Bool.false_eq_true, if_false]
      omega
  | wakes houtstanding hsleepers hcommitted hnone =>
      have hdirty : shared.dirty = s.shared.dirty := by
        unfold Shared.dirty
        rw [houtstanding]
      have hnotified : forall t, shared.notifiedOfFlush t = true := by
        intro t
        simp [Shared.notifiedOfFlush, hsleepers]
      simp only [flushRank, hnone, hcommitted, Bool.and_true, Bool.and_false,
        Bool.false_eq_true, if_false, Nat.add_zero]
      cases hmode : s.shared.dirty with
      | false =>
          refine Nat.le_trans (Finset.sum_le_sum fun t _ => ?_)
            (Nat.le_add_right _ _)
          simp only [Shared.toReturn, hdirty, hmode]
          exact ClientPc.toReturn_clean_le _ _ _ _
      | true =>
          have hsum : (∑ t, shared.toReturn t (s.client t)) ≤
              ∑ t, (s.shared.toReturn t (s.client t) + 5) := by
            refine Finset.sum_le_sum fun t _ => ?_
            simp only [Shared.toReturn, hdirty, hnotified t]
            exact ClientPc.toReturn_notified_le _ _ _
          rw [Finset.sum_add_distrib] at hsum
          simpa using hsum

theorem WorkStep.lowers {s : State Thread C} {shared : Shared Thread C}
    {pc : WorkerPc} (h : WorkStep s.shared shared s.worker pc)
    (hafter : Gauged { s with shared := shared, worker := pc }) :
    settlingRank { s with shared := shared, worker := pc } ≤ settlingRank s := by
  have halone := alone_le_limit hafter
  cases h with
  | dequeues hsize hnone =>
      refine Nat.le_of_succ_le (settlingRank_of_write
        (lexRank_of_outer ?_ halone))
      have howes := Bool.toNat_le pc.owesNotify
      simp only [changesLeft, hnone, Bool.toNat_false]
      omega
  | notifies hqueue howes hnone =>
      refine Nat.le_of_succ_le (settlingRank_of_write
        (lexRank_of_outer ?_ halone))
      simp only [changesLeft, hqueue, howes, hnone, Bool.toNat_false,
        Bool.toNat_true]
      omega
  | quiet hqueue hsleepers howes hkept =>
      have hwrite : writeRank { s with shared := shared, worker := pc } =
          writeRank s := by
        simp only [writeRank, changesLeft, Shared.alone,
          Shared.notifiedOfSpace, hqueue, hsleepers, howes]
      exact lexRank_of_inner (d := 0) (Nat.le_of_eq hwrite)
        hkept.flushRank_le

end

end Async
end NginLog
