import NginLog.Async.BoundedDelivery
import NginLog.Async.Progress
import NginLog.Async.Snapshots

/-!
# A `Write` that does not wait

Under `DropNewest` and `SyncFallback` a producer never waits for space.  The one
loop on its way is the exchange that raises `m_queueHighWatermark`, and each
failed round of it has found a larger mark.  So a call of `Write` returns within
a number of its own steps that depends on the capacity of the queue alone.
-/

namespace NginLog
namespace Async

open Foundation

variable {Thread : Type} {C : AsyncSinkConfig}

/-!
## Program points that do not wait for space
-/

def EnqueuePc.prompt : EnqueuePc -> Bool
  | EnqueuePc.loopRunning => false
  | EnqueuePc.lockSpace => false
  | EnqueuePc.testRunning _ => false
  | EnqueuePc.testSpace _ => false
  | EnqueuePc.sleepSpace => false
  | EnqueuePc.asleepSpace => false
  | EnqueuePc.relockSpace _ => false
  | EnqueuePc.unlockSpace => false
  | _ => true

def DropPc.prompt : DropPc -> Bool
  | DropPc.total => true
  | DropPc.unreported => true
  | _ => false

/-- The record is in the queue, or its producer hands it over by itself. -/
def EnqueuePc.settled : EnqueuePc -> Bool
  | EnqueuePc.countEnqueued => true
  | EnqueuePc.sampleDepth => true
  | EnqueuePc.loadWatermark _ => true
  | EnqueuePc.exchangeWatermark _ _ => true
  | EnqueuePc.notifyWake => true
  | EnqueuePc.addFallback => true
  | EnqueuePc.countFallback => true
  | EnqueuePc.deliver _ => true
  | EnqueuePc.subFallback => true
  | EnqueuePc.notifyFallback _ => true
  | _ => false

def ClientPc.prompt : ClientPc -> Bool
  | ClientPc.enqueue _ pc => pc.prompt
  | ClientPc.drop _ timeout holding pc => !timeout && !holding && pc.prompt
  | _ => true

/-- The policies under which `Write` does not wait for space. -/
def AsyncOverflowPolicy.Prompt (policy : AsyncOverflowPolicy) : Prop :=
  policy = AsyncOverflowPolicy.dropNewest ∨
    policy = AsyncOverflowPolicy.syncFallback

theorem enqueueEntry_prompt {policy : AsyncOverflowPolicy} (h : policy.Prompt) :
    enqueueEntry policy = EnqueuePc.addOutstanding := by
  rcases h with rfl | rfl <;> rfl

theorem afterRejection_prompt {policy : AsyncOverflowPolicy} {ticket : Ticket}
    (h : policy.Prompt) :
    (afterRejection policy ticket).prompt = true := by
  rcases h with rfl | rfl <;> rfl

/-!
## Steps to the return
-/

theorem ClientPc.prompt_wants {pc : ClientPc} (h : pc.prompt = true) :
    pc.wants ≠ some SinkMutex.space ∧ pc.asleep = false := by
  cases pc with
  | enqueue ticket pc =>
      cases pc with
      | notifyFlush pc | notifyFallback pc | deliver pc =>
          cases pc <;> exact ⟨by simp [wants, EnqueuePc.wants, NotifyPc.wants,
            DeliverPc.wants], rfl⟩
      | lockSpace | relockSpace expired | asleepSpace => cases h
      | _ => exact ⟨by simp [wants, EnqueuePc.wants], rfl⟩
  | flush before pc =>
      cases pc with
      | report pc | flushSink pc =>
          cases pc <;> exact ⟨by simp [wants, FlushPc.wants, ReportPc.wants,
            FlushSinkPc.wants], rfl⟩
      | _ => exact ⟨by simp [wants, FlushPc.wants], rfl⟩
  | _ => exact ⟨nofun, rfl⟩

def EnqueuePc.left (C : AsyncSinkConfig) : EnqueuePc -> Nat
  | EnqueuePc.addOutstanding => C.queueCapacity + 21
  | EnqueuePc.tryEnqueue => C.queueCapacity + 20
  | EnqueuePc.subOutstanding => 19
  | EnqueuePc.notifyFlush pc => 13 + pc.left
  | EnqueuePc.countEnqueued => C.queueCapacity + 5
  | EnqueuePc.sampleDepth => C.queueCapacity + 4
  | EnqueuePc.loadWatermark depth => depth + 3
  | EnqueuePc.exchangeWatermark depth current => depth - current + 2
  | EnqueuePc.notifyWake => 1
  | EnqueuePc.addFallback => 13
  | EnqueuePc.countFallback => 12
  | EnqueuePc.deliver pc => 6 + pc.left
  | EnqueuePc.subFallback => 6
  | EnqueuePc.notifyFallback pc => pc.left
  | _ => 0

def DropPc.left : DropPc -> Nat
  | DropPc.total => 2
  | DropPc.unreported => 1
  | _ => 0

def ClientPc.left (C : AsyncSinkConfig) : ClientPc -> Nat
  | ClientPc.enter _ _ => C.queueCapacity + 22
  | ClientPc.enqueue _ pc => pc.left C
  | ClientPc.drop _ _ _ pc => pc.left
  | _ => 0

theorem afterRejection_left {policy : AsyncOverflowPolicy} {ticket : Ticket}
    (h : policy.Prompt) :
    (afterRejection policy ticket).left C ≤ 13 := by
  rcases h with rfl | rfl <;>
    simp [afterRejection, ClientPc.left, EnqueuePc.left, DropPc.left]

theorem NotifyPc.left_pos (pc : NotifyPc) : 0 < pc.left := by
  cases pc <;> decide

theorem ClientPc.left_pos {pc : ClientPc} {call : Nat}
    (hprompt : pc.prompt = true) (hcall : pc.call? = some call) :
    0 < pc.left C := by
  cases pc with
  | idle | flush before pc | stats loaded pc => cases hcall
  | enter call record => exact Nat.succ_pos _
  | enqueue ticket pc =>
      cases pc with
      | notifyFallback pc => exact pc.left_pos
      | notifyFlush pc | deliver pc => simp only [left, EnqueuePc.left]; omega
      | _ => first | exact Nat.succ_pos _ | cases hprompt
  | drop call timeout holding pc =>
      cases pc with
      | total | unreported => exact Nat.succ_pos _
      | timeout | unlock => simp [prompt, DropPc.prompt] at hprompt

/-!
## One step
-/

/-- The steps that count: a weak exchange may fail without a reason. -/
def Choice.cost : Choice -> Nat
  | Choice.spurious => 0
  | _ => 1

theorem Choice.cost_le (choice : Choice) : choice.cost ≤ 1 := by
  cases choice <;> decide

structure Shortens (C : AsyncSinkConfig) (cost : Nat) (pc pc' : ClientPc) :
    Prop where
  prompt : pc'.prompt = true
  left : pc'.left C + cost ≤ pc.left C

section

variable [DecidableEq Thread]

theorem enqueueStep_settled {t : Thread} {choice : Choice}
    {s s' : Shared Thread C} {ticket : Ticket} {pc : EnqueuePc} {pc' : ClientPc}
    (hpc : pc.settled = true)
    (hfresh : (ClientPc.enqueue ticket pc).Fresh s.queueHighWatermark)
    (h : enqueueStep t choice s ticket pc = some (s', pc')) :
    Shortens C choice.cost (ClientPc.enqueue ticket pc) pc' := by
  have hcost := choice.cost_le
  cases pc <;> simp only [enqueueStep] at h
  case sampleDepth =>
    have hsize : s.queue.approxDepth ≤ C.queueCapacity := s.queue.size_le
    cases h
    refine ⟨rfl, ?_⟩
    simp only [ClientPc.left, EnqueuePc.left]
    omega
  case loadWatermark depth =>
    cases h
    refine ⟨rfl, ?_⟩
    simp only [ClientPc.left, EnqueuePc.left]
    omega
  case exchangeWatermark depth current =>
    have hmark : current ≤ s.queueHighWatermark := hfresh
    split at h
    · rename_i hdepth
      split at h
      · cases h
        refine ⟨rfl, ?_⟩
        simp only [ClientPc.left, EnqueuePc.left]
        omega
      · rename_i hfails
        cases h
        refine ⟨rfl, ?_⟩
        simp only [ClientPc.left, EnqueuePc.left]
        -- Without a reason to fail, the exchange has found a larger mark.
        cases choice with
        | spurious =>
            simp only [Choice.cost]
            omega
        | _ =>
            simp only [ne_eq, reduceCtorEq, not_false_eq_true, and_true]
              at hfails
            omega
    · cases h
      refine ⟨rfl, ?_⟩
      simp only [ClientPc.left, EnqueuePc.left]
      omega
  case notifyWake =>
    cases h
    exact ⟨rfl, by simpa [ClientPc.left, EnqueuePc.left] using hcost⟩
  case deliver pc =>
    rcases Option.map_eq_some_iff.mp h with ⟨⟨s1, next⟩, hstep, hpair⟩
    have hleft := deliverStep_left hstep
    cases next <;> cases hpair <;> refine ⟨rfl, ?_⟩ <;>
      simp only [ClientPc.left, EnqueuePc.left, stepsLeft_none, stepsLeft_some]
        at hleft ⊢ <;>
      omega
  case notifyFallback pc =>
    rcases Option.map_eq_some_iff.mp h with ⟨⟨s1, next⟩, hstep, hpair⟩
    have hleft := notifyFlushStep_left hstep
    cases next <;> cases hpair <;> refine ⟨rfl, ?_⟩ <;>
      simp only [ClientPc.left, EnqueuePc.left, stepsLeft_none, stepsLeft_some]
        at hleft ⊢ <;>
      omega
  case countEnqueued | addFallback | countFallback | subFallback =>
    cases h
    refine ⟨rfl, ?_⟩
    simp only [ClientPc.left, EnqueuePc.left, NotifyPc.left, DeliverPc.left]
    omega
  all_goals cases hpc

theorem enqueueStep_shortens {t : Thread} {choice : Choice}
    {s s' : Shared Thread C} {ticket : Ticket} {pc : EnqueuePc} {pc' : ClientPc}
    (hpolicy : C.overflowPolicy.Prompt)
    (hprompt : pc.prompt = true)
    (hfresh : (ClientPc.enqueue ticket pc).Fresh s.queueHighWatermark)
    (h : enqueueStep t choice s ticket pc = some (s', pc')) :
    Shortens C choice.cost (ClientPc.enqueue ticket pc) pc' := by
  have hcost := choice.cost_le
  cases hpc : pc.settled with
  | true => exact enqueueStep_settled hpc hfresh h
  | false =>
      cases pc <;> simp only [enqueueStep] at h
      case tryEnqueue =>
        have hcapacity := C.queueCapacity_pos
        split at h <;> cases h <;> refine ⟨rfl, ?_⟩ <;>
          simp only [ClientPc.left, EnqueuePc.left] <;> omega
      case notifyFlush pc =>
        rcases Option.map_eq_some_iff.mp h with ⟨⟨s1, next⟩, hstep, hpair⟩
        have hleft := notifyFlushStep_left hstep
        cases next <;> cases hpair
        · have hnext := @afterRejection_left C C.overflowPolicy ticket hpolicy
          refine ⟨afterRejection_prompt hpolicy, ?_⟩
          simp only [ClientPc.left, EnqueuePc.left, stepsLeft_none]
            at hnext hleft ⊢
          omega
        · refine ⟨rfl, ?_⟩
          simp only [ClientPc.left, EnqueuePc.left, stepsLeft_some] at hleft ⊢
          omega
      case addOutstanding | subOutstanding =>
        cases h
        refine ⟨rfl, ?_⟩
        simp only [ClientPc.left, EnqueuePc.left, NotifyPc.left]
        omega
      all_goals first | (cases hpc; done) | cases hprompt

omit [DecidableEq Thread] in
theorem dropStep_shortens {cost call : Nat} {s s' : Shared Thread C}
    {timeout holding : Bool} {pc : DropPc} {pc' : ClientPc} (hcost : cost ≤ 1)
    (hprompt : (ClientPc.drop call timeout holding pc).prompt = true)
    (h : dropStep s call timeout holding pc = some (s', pc')) :
    Shortens C cost (ClientPc.drop call timeout holding pc) pc' := by
  simp only [ClientPc.prompt, Bool.and_eq_true, Bool.not_eq_true'] at hprompt
  rcases hprompt with ⟨⟨rfl, rfl⟩, hpc⟩
  cases pc with
  | total | unreported =>
      cases h
      refine ⟨rfl, ?_⟩
      simp only [ClientPc.left, DropPc.left]
      omega
  | timeout | unlock => cases hpc

theorem clientStep_shortens {t : Thread} {choice : Choice} {call : Nat}
    {s s' : Shared Thread C} {pc pc' : ClientPc}
    (hpolicy : C.overflowPolicy.Prompt) (hprompt : pc.prompt = true)
    (hfresh : pc.Fresh s.queueHighWatermark) (hcall : pc.call? = some call)
    (h : clientStep t choice s pc = some (s', pc')) :
    Shortens C choice.cost pc pc' := by
  have hcost := choice.cost_le
  cases pc with
  | idle | flush before pc | stats loaded pc => cases hcall
  | enter call record =>
      cases h
      split
      · rw [enqueueEntry_prompt hpolicy]
        refine ⟨rfl, ?_⟩
        simp only [ClientPc.left, EnqueuePc.left]
        omega
      · refine ⟨rfl, ?_⟩
        simp only [ClientPc.left, DropPc.left]
        omega
  | enqueue ticket pc => exact enqueueStep_shortens hpolicy hprompt hfresh h
  | drop call timeout holding pc => exact dropStep_shortens hcost hprompt h

theorem clientStep_prompt {t : Thread} {choice : Choice}
    {s s' : Shared Thread C} {pc pc' : ClientPc}
    (hpolicy : C.overflowPolicy.Prompt) (hprompt : pc.prompt = true)
    (hfresh : pc.Fresh s.queueHighWatermark)
    (h : clientStep t choice s pc = some (s', pc')) :
    Shortens C 0 pc pc' := by
  cases hcall : pc.call? with
  | some call =>
      have hshortens := clientStep_shortens hpolicy hprompt hfresh hcall h
      exact ⟨hshortens.prompt, Nat.le_of_add_right_le hshortens.left⟩
  | none =>
      cases pc with
      | idle => cases h
      | flush before pc =>
          rcases flushStep_shape h with ⟨_, hpc⟩
          rcases hpc with rfl | ⟨_, rfl⟩ <;> exact ⟨rfl, Nat.le_refl _⟩
      | stats loaded pc =>
          rcases statsStep_shape (Option.some.inj h) with ⟨_, hpc⟩
          rcases hpc with rfl | ⟨_, _, rfl⟩ <;> exact ⟨rfl, Nat.le_refl _⟩
      | _ => cases hcall

inductive CallStep (s s' : Shared Thread C) (pc pc' : ClientPc) : Prop where
  | goesOn :
      pc'.call? = pc.call? ->
      s'.history.returned = s.history.returned ->
      CallStep s s' pc pc'
  | returns {call : Nat} :
      pc.call? = some call ->
      s'.history.returned = s.history.returned ++ [call] ->
      CallStep s s' pc pc'

theorem enqueueStep_call {t : Thread} {choice : Choice}
    {s s' : Shared Thread C} {ticket : Ticket} {pc : EnqueuePc} {pc' : ClientPc}
    (h : enqueueStep t choice s ticket pc = some (s', pc')) :
    CallStep s s' (ClientPc.enqueue ticket pc) pc' := by
  cases pc <;> simp only [enqueueStep] at h
  case tryEnqueue =>
    split at h
    · rename_i htry
      rcases MpscBoundedQueue.contents_tryEnqueue htry with ⟨_, rfl, _⟩
      cases h
      exact CallStep.goesOn rfl rfl
    · rename_i htry
      rcases MpscBoundedQueue.tryEnqueue_false htry with ⟨_, rfl, _⟩
      cases h
      exact CallStep.goesOn rfl rfl
  case notifyFlush pc =>
    rcases Option.map_eq_some_iff.mp h with ⟨⟨s1, next⟩, hstep, hpair⟩
    rcases notifyFlushStep_shape hstep with ⟨_, _, rfl⟩
    cases next <;> cases hpair
    · exact CallStep.goesOn (afterRejection_eq ClientPc.call? rfl rfl rfl) rfl
    · exact CallStep.goesOn rfl rfl
  case deliver pc =>
    rcases Option.map_eq_some_iff.mp h with ⟨⟨s1, next⟩, hstep, hpair⟩
    rcases deliverStep_shape hstep with ⟨_, _, _, _, rfl, _⟩
    cases next <;> cases hpair <;> exact CallStep.goesOn rfl rfl
  case notifyFallback pc =>
    rcases Option.map_eq_some_iff.mp h with ⟨⟨s1, next⟩, hstep, hpair⟩
    rcases notifyFlushStep_shape hstep with ⟨_, _, rfl⟩
    cases next <;> cases hpair
    · exact CallStep.returns rfl rfl
    · exact CallStep.goesOn rfl rfl
  case notifyWake =>
    cases h
    exact CallStep.returns rfl rfl
  all_goals
    (repeat' split at h) <;> cases h <;> exact CallStep.goesOn rfl rfl

omit [DecidableEq Thread] in
theorem dropStep_call {s s' : Shared Thread C} {call : Nat}
    {timeout holding : Bool} {pc : DropPc} {pc' : ClientPc}
    (h : dropStep s call timeout holding pc = some (s', pc')) :
    CallStep s s' (ClientPc.drop call timeout holding pc) pc' := by
  cases holding <;> cases timeout <;> cases pc <;> cases h <;>
    first
      | exact CallStep.goesOn rfl rfl
      | exact CallStep.returns rfl rfl

theorem clientStep_call {t : Thread} {choice : Choice}
    {s s' : Shared Thread C} {pc pc' : ClientPc}
    (h : clientStep t choice s pc = some (s', pc')) :
    CallStep s s' pc pc' := by
  cases pc with
  | idle => cases h
  | enter call record =>
      cases h
      split
      · exact CallStep.goesOn (enqueueEntry_eq ClientPc.call? rfl rfl) rfl
      · exact CallStep.goesOn rfl rfl
  | enqueue ticket pc => exact enqueueStep_call h
  | drop call timeout holding pc => exact dropStep_call h
  | flush before pc =>
      rcases flushStep_shape h with ⟨⟨_, _, _, _, _, _, _, _, rfl, _⟩, hpc⟩
      rcases hpc with rfl | ⟨_, rfl⟩ <;> exact CallStep.goesOn rfl rfl
  | stats loaded pc =>
      rcases statsStep_shape (Option.some.inj h) with ⟨⟨_, rfl⟩, hpc⟩
      rcases hpc with rfl | ⟨_, _, rfl⟩ <;> exact CallStep.goesOn rfl rfl

omit [DecidableEq Thread] in
theorem CallStep.returned {s s' : Shared Thread C} {pc pc' : ClientPc}
    (h : CallStep s s' pc pc') :
    s.history.returned ⊆ s'.history.returned := by
  cases h with
  | goesOn _ hsame => rw [hsame]; exact List.Subset.refl _
  | returns _ hadds => rw [hadds]; exact List.subset_append_left _ _

/-!
## Runs
-/

structure PromptClients (s : State Thread C) : Prop where
  prompt : forall t, (s.client t).prompt = true
  left_le : forall t, (s.client t).left C ≤ C.queueCapacity + 22
  fresh : forall t, (s.client t).Fresh s.shared.queueHighWatermark

theorem PromptClients.client {s : State Thread C} {t : Thread}
    {shared : Shared Thread C} {pc : ClientPc} (hs : PromptClients s)
    (hprompt : pc.prompt = true) (hleft : pc.left C ≤ C.queueCapacity + 22)
    (hfresh : pc.Fresh shared.queueHighWatermark)
    (hmark : s.shared.queueHighWatermark ≤ shared.queueHighWatermark) :
    PromptClients
      { s with shared := shared, client := Function.update s.client t pc } := by
  constructor <;> intro t' <;> by_cases ht : t' = t
  · subst ht
    simpa using hprompt
  · simpa [ht] using hs.prompt t'
  · subst ht
    simpa using hleft
  · simpa [ht] using hs.left_le t'
  · subst ht
    simpa using hfresh
  · simpa [ht] using (hs.fresh t').mono hmark

theorem promptClients_step {s s' : State Thread C} {a : Action Thread}
    (hpolicy : C.overflowPolicy.Prompt) (hs : PromptClients s)
    (h : s.step a = some s') :
    PromptClients s' := by
  cases a with
  | write t record =>
      rcases State.begin_some h with ⟨_, rfl⟩
      exact hs.client rfl (Nat.le_refl _) trivial (Nat.le_refl _)
  | flush t | getStats t =>
      rcases State.begin_some h with ⟨_, rfl⟩
      exact hs.client rfl (Nat.zero_le _) trivial (Nat.le_refl _)
  | client t choice =>
      rcases Option.map_eq_some_iff.mp h with ⟨⟨shared, pc⟩, hclient, rfl⟩
      have htracked := clientStep_tracked (hs.fresh t) hclient
      have hshortens :=
        clientStep_prompt hpolicy (hs.prompt t) (hs.fresh t) hclient
      exact hs.client hshortens.prompt
        (Nat.le_trans hshortens.left (hs.left_le t)) htracked.fresh
        htracked.later.watermark
  | worker choice =>
      rcases Option.map_eq_some_iff.mp h with ⟨⟨shared, pc⟩, hworker, rfl⟩
      have hlater := workerStep_later hworker
      exact ⟨hs.prompt, hs.left_le, fun t => (hs.fresh t).mono hlater.watermark⟩
  | owner =>
      rcases Option.map_eq_some_iff.mp h with ⟨⟨shared, pc⟩, howner, rfl⟩
      rcases ownerStep_shape howner with ⟨_, _, _, rfl⟩
      exact ⟨hs.prompt, hs.left_le, hs.fresh⟩

theorem reachable_promptClients {s : State Thread C}
    (hpolicy : C.overflowPolicy.Prompt) (h : (asyncSink Thread C).Reachable s) :
    PromptClients s := by
  refine Machine.invariant
    ⟨fun _ => rfl, fun _ => Nat.zero_le _, fun _ => trivial⟩ ?_ h
  intro s a s' _ hs hstep
  exact promptClients_step hpolicy hs hstep

/-- A step that counts of client `t`. -/
def Action.advances (t : Thread) : Action Thread -> Bool
  | Action.client t' choice => t' == t && choice != Choice.spurious
  | _ => false

theorem Action.advances_self (t : Thread) (choice : Choice) :
    ((Action.client t choice).advances t).toNat = choice.cost := by
  cases choice <;> simp [advances, Choice.cost]

def InCall (call : Nat) (t : Thread) (s : State Thread C) : Prop :=
  call ∈ s.shared.history.returned ∨ (s.client t).call? = some call

theorem step_elsewhere {s s' : State Thread C} {a : Action Thread} {t : Thread}
    {call : Nat} (hs : (s.client t).call? = some call)
    (ha : forall choice, a ≠ Action.client t choice) (h : s.step a = some s') :
    s'.client t = s.client t := by
  have hbegins : forall t' : Thread, s.client t' = ClientPc.idle -> t ≠ t' := by
    rintro t' hidle rfl
    rw [hidle] at hs
    cases hs
  cases a with
  | write t' record | flush t' | getStats t' =>
      rcases State.begin_some h with ⟨hidle, rfl⟩
      simp [hbegins t' hidle]
  | client t' choice =>
      rcases Option.map_eq_some_iff.mp h with ⟨⟨shared, pc⟩, _, rfl⟩
      have hother : t ≠ t' := by
        rintro rfl
        exact ha choice rfl
      simp [hother]
  | worker choice | owner =>
      rcases Option.map_eq_some_iff.mp h with ⟨_, _, rfl⟩
      rfl

theorem step_returned {s s' : State Thread C} {a : Action Thread}
    (h : s.step a = some s') :
    s.shared.history.returned ⊆ s'.shared.history.returned := by
  cases a with
  | write t record | flush t | getStats t =>
      rcases State.begin_some h with ⟨_, rfl⟩
      exact List.Subset.refl _
  | client t choice =>
      rcases Option.map_eq_some_iff.mp h with ⟨⟨shared, pc⟩, hclient, rfl⟩
      exact (clientStep_call hclient).returned
  | worker choice =>
      rcases Option.map_eq_some_iff.mp h with ⟨⟨shared, pc⟩, hworker, rfl⟩
      rcases workerStep_shape hworker with
        ⟨_, _, _, _, _, _, _, _, _, _, _, _, rfl, rfl⟩
      exact List.Subset.refl _
  | owner =>
      rcases Option.map_eq_some_iff.mp h with ⟨⟨shared, pc⟩, howner, rfl⟩
      rcases ownerStep_shape howner with ⟨_, _, _, rfl⟩
      exact List.Subset.refl _

theorem inCall_step {s s' : State Thread C} {a : Action Thread} {t : Thread}
    {call : Nat} (hs : InCall call t s) (h : s.step a = some s') :
    InCall call t s' := by
  rcases hs with hreturned | hcall
  · exact Or.inl (step_returned h hreturned)
  by_cases ha : exists choice, a = Action.client t choice
  · rcases ha with ⟨choice, rfl⟩
    rcases Option.map_eq_some_iff.mp h with ⟨⟨shared, pc⟩, hclient, rfl⟩
    cases clientStep_call hclient with
    | goesOn hsame _ => exact Or.inr (by simpa [hsame] using hcall)
    | returns hown hadds =>
        cases hcall.symm.trans hown
        exact Or.inl (by simp [hadds])
  · have hsame := step_elsewhere hcall (fun choice heq => ha ⟨choice, heq⟩) h
    exact Or.inr (by rw [hsame]; exact hcall)

theorem ranked_write (hpolicy : C.overflowPolicy.Prompt) (t : Thread)
    (call : Nat) :
    (asyncSink Thread C).Ranked (fun _ => True) (Action.advances t)
      (fun s => (asyncSink Thread C).Reachable s ∧ InCall call t s)
      (fun s => call ∈ s.shared.history.returned)
      (fun s => (s.client t).left C) where
  keeps := fun s a s' hs _ hstep =>
    ⟨hs.1.step hstep, inCall_step hs.2 hstep⟩
  stays := fun s a s' _ _ hdone hstep => step_returned hstep hdone
  lowers := by
    intro s a s' hs _ hdone hstep
    have hclients := reachable_promptClients hpolicy hs.1
    have hcall := hs.2.resolve_left hdone
    change s.step a = some s' at hstep
    by_cases ha : exists choice, a = Action.client t choice
    · rcases ha with ⟨choice, rfl⟩
      rcases Option.map_eq_some_iff.mp hstep with ⟨⟨shared, pc⟩, hclient, rfl⟩
      have hshortens := clientStep_shortens hpolicy (hclients.prompt t)
        (hclients.fresh t) hcall hclient
      right
      rw [Action.advances_self]
      simpa using hshortens.left
    · have hsame := step_elsewhere hcall (fun choice heq => ha ⟨choice, heq⟩)
        hstep
      have hother : a.advances t = false := by
        cases a with
        | client t' choice =>
            have hne : t' ≠ t := by
              rintro rfl
              exact ha ⟨choice, rfl⟩
            simp [Action.advances, hne]
        | _ => rfl
      right
      rw [hsame, hother]
      exact Nat.le_refl _

/--
Under `DropNewest` and `SyncFallback` a call of `Write` has returned by the time
its thread has taken 22 steps and one for each slot of the queue, whatever the
other threads do in between; and nobody waits for space.
-/
theorem write_returns_within_own_steps (Thread : Type) [DecidableEq Thread]
    (C : AsyncSinkConfig) (hpolicy : C.overflowPolicy.Prompt) :
    (forall s, (asyncSink Thread C).Reachable s -> forall t,
      s.wants (Agent.client t) ≠ some SinkMutex.space ∧
        ¬AsleepForSpace s t) ∧
    (forall s s' t call trace, (asyncSink Thread C).Reachable s ->
      (s.client t).call? = some call ->
      (asyncSink Thread C).runFrom s trace = some s' ->
      C.queueCapacity + 22 ≤ trace.countP (Action.advances t) ->
      call ∈ s'.shared.history.returned) := by
  constructor
  · intro s h t
    have hprompt := (reachable_promptClients hpolicy h).prompt t
    rcases ClientPc.prompt_wants hprompt with ⟨hwants, hawake⟩
    refine ⟨hwants, ?_⟩
    rintro ⟨hasleep, _⟩
    cases hasleep.symm.trans hawake
  · intro s s' t call trace h hcall hrun heffort
    have hranked := @ranked_write Thread C _ hpolicy t call
    by_contra hopen
    have hpaid := (hranked.done_or_paid ⟨h, Or.inr hcall⟩ (fun _ _ => trivial)
      hrun).resolve_left hopen
    have hend := hranked.inv_of_runFrom ⟨h, Or.inr hcall⟩ (fun _ _ => trivial)
      hrun
    have hbegin := (reachable_promptClients hpolicy h).left_le t
    have hleft := ClientPc.left_pos (C := C)
      ((reachable_promptClients hpolicy hend.1).prompt t)
      (hend.2.resolve_left hopen)
    omega

end

def busyWrites : List (Action Unit) :=
  List.replicate 8 (Action.client () Choice.plain) ++
    Action.write () {} :: List.replicate 8 (Action.client () Choice.plain) ++
    Action.write () {} :: List.replicate 8 (Action.client () Choice.plain)

theorem busyWrites_returned :
    exists s s' : State Unit (smallSink AsyncOverflowPolicy.syncFallback),
      (asyncSink Unit (smallSink AsyncOverflowPolicy.syncFallback)).Reachable s ∧
      (s.client ()).call? = some 0 ∧
      0 ∈ s'.shared.history.returned := by
  have hrun : ((asyncSink Unit (smallSink AsyncOverflowPolicy.syncFallback)).run
      [Action.write () {}]).any (fun s =>
        decide ((s.client ()).call? = some 0) &&
        ((asyncSink Unit (smallSink AsyncOverflowPolicy.syncFallback)).runFrom s
          busyWrites).isSome) = true := by
    decide
  rcases Machine.exists_reachable_of_run hrun with ⟨s, hreachable, htest⟩
  simp only [Bool.and_eq_true, decide_eq_true_eq, Option.isSome_iff_exists]
    at htest
  rcases htest with ⟨hcall, s', hrest⟩
  have hreturns := (write_returns_within_own_steps Unit _ (Or.inr rfl)).2 s s' ()
    0 busyWrites hreachable hcall hrest (by decide)
  exact ⟨s, s', hreachable, hcall, hreturns⟩

end Async
end NginLog
