import NginLog.Async.Fifo

/-!
# What happens to each call of Write

The lists that grow during a run (the insertions, the rejections, the fallback
deliveries, the counted drops, the returns) are the books of the sink.  One step
of a client makes at most one entry, and only about the call that the client is
in.  From this follows, for every call ever begun, how often it occurs in each
list: a call that has returned was either queued once, or handed over by its
producer once, or counted once as a drop.
-/

namespace NginLog
namespace Async

open Foundation Record

variable {Thread : Type} {C : AsyncSinkConfig}

/-!
## The books
-/

structure Books (Thread : Type) where
  calls : List (Call Thread)
  accepted : List Ticket
  rejected : List Ticket
  fellBack : List (Thread × Ticket)
  dropped : List Nat
  totalDropped : Nat
  reportable : List Nat
  returned : List Nat

def Shared.books (s : Shared Thread C) : Books Thread where
  calls := s.history.calls
  accepted := s.history.accepted
  rejected := s.history.rejected
  fellBack := Async.fellBack s.sink
  dropped := s.history.dropped
  totalDropped := s.totalDropped
  reportable := s.history.reportable
  returned := s.history.returned

/-- How often a call occurs in each of the books. -/
structure Tally where
  accepted : Nat := 0
  refused : Nat := 0
  fellBack : Nat := 0
  dropped : Nat := 0
  reportable : Nat := 0
  returned : Nat := 0
deriving DecidableEq

/--
Under the other policies a call may be rejected any number of times before it is
accepted, so only the rejections of `SyncFallback` are counted.
-/
def Books.tally (policy : AsyncOverflowPolicy) (b : Books Thread) (call : Nat) :
    Tally where
  accepted := (b.accepted.map Ticket.call).count call
  refused :=
    if policy = AsyncOverflowPolicy.syncFallback then
      (b.rejected.map Ticket.call).count call
    else
      0
  fellBack := (b.fellBack.map fun p => p.2.call).count call
  dropped := b.dropped.count call
  reportable := b.reportable.count call
  returned := b.returned.count call

inductive Finished : Tally -> Prop where
  | queued : Finished { accepted := 1, returned := 1 }
  | handed : Finished { refused := 1, fellBack := 1, returned := 1 }
  | lost : Finished { dropped := 1, reportable := 1, returned := 1 }

/-!
## What a client stands for
-/

def ClientPc.call? : ClientPc -> Option Nat
  | ClientPc.enter call _ => some call
  | ClientPc.enqueue ticket _ => some ticket.call
  | ClientPc.drop call _ _ _ => some call
  | _ => none

def ClientPc.Holds (record : LogRecordView) : ClientPc -> Prop
  | ClientPc.enter _ held => held = record
  | ClientPc.enqueue ticket _ => ticket.record = toOwned record
  | _ => True

/-- The entries already made for a call that is in an enqueue function. -/
def EnqueuePc.tally (policy : AsyncOverflowPolicy) : EnqueuePc -> Tally
  | EnqueuePc.countEnqueued => { accepted := 1 }
  | EnqueuePc.sampleDepth => { accepted := 1 }
  | EnqueuePc.loadWatermark _ => { accepted := 1 }
  | EnqueuePc.exchangeWatermark _ _ => { accepted := 1 }
  | EnqueuePc.notifyWake => { accepted := 1 }
  | EnqueuePc.subOutstanding | EnqueuePc.notifyFlush _ =>
      { refused :=
          if policy = AsyncOverflowPolicy.syncFallback then 1 else 0 }
  | EnqueuePc.addFallback => { refused := 1 }
  | EnqueuePc.countFallback => { refused := 1 }
  | EnqueuePc.deliver pc =>
      { refused := 1, fellBack := if pc.handed then 1 else 0 }
  | EnqueuePc.subFallback => { refused := 1, fellBack := 1 }
  | EnqueuePc.notifyFallback _ => { refused := 1, fellBack := 1 }
  | _ => {}

def DropPc.tally : DropPc -> Tally
  | DropPc.total => {}
  | DropPc.unreported => { dropped := 1 }
  | DropPc.timeout => { dropped := 1, reportable := 1 }
  | DropPc.unlock => { dropped := 1, reportable := 1 }

def ClientPc.tally (policy : AsyncOverflowPolicy) : ClientPc -> Tally
  | ClientPc.enqueue _ pc => pc.tally policy
  | ClientPc.drop _ _ _ pc => pc.tally
  | _ => {}

theorem afterRejection_tally (policy : AsyncOverflowPolicy) (ticket : Ticket) :
    (afterRejection policy ticket).tally policy =
      { refused :=
          if policy = AsyncOverflowPolicy.syncFallback then 1 else 0 } := by
  cases policy <;> rfl

theorem afterRejection_holds {policy : AsyncOverflowPolicy} {ticket : Ticket}
    {record : LogRecordView} (h : ticket.record = toOwned record) :
    (afterRejection policy ticket).Holds record := by
  cases policy with
  | dropNewest => trivial
  | _ => exact h

/-!
## The entries of one step
-/

/-- What a step of client `t` may do to the books. -/
inductive Entry (policy : AsyncOverflowPolicy) (t : Thread) (b : Books Thread) :
    ClientPc -> ClientPc -> Books Thread -> Prop where
  | silent {pc pc' : ClientPc} :
      pc'.call? = pc.call? ->
      pc'.tally policy = pc.tally policy ->
      (forall record, pc.Holds record -> pc'.Holds record) ->
      Entry policy t b pc pc' b
  | insert {ticket : Ticket} :
      Entry policy t b
        (ClientPc.enqueue ticket EnqueuePc.tryEnqueue)
        (ClientPc.enqueue ticket EnqueuePc.countEnqueued)
        { b with accepted := b.accepted ++ [ticket] }
  | refuse {ticket : Ticket} :
      Entry policy t b
        (ClientPc.enqueue ticket EnqueuePc.tryEnqueue)
        (ClientPc.enqueue ticket EnqueuePc.subOutstanding)
        { b with rejected := b.rejected ++ [ticket] }
  | handOver {ticket : Ticket} {pc' : DeliverPc} :
      pc'.handed = true ->
      Entry policy t b
        (ClientPc.enqueue ticket (EnqueuePc.deliver DeliverPc.write))
        (ClientPc.enqueue ticket (EnqueuePc.deliver pc'))
        { b with fellBack := b.fellBack ++ [(t, ticket)] }
  | drop {call : Nat} {timeout holding : Bool} :
      Entry policy t b
        (ClientPc.drop call timeout holding DropPc.total)
        (ClientPc.drop call timeout holding DropPc.unreported)
        { b with
          dropped := b.dropped ++ [call]
          totalDropped := b.totalDropped + 1 }
  | report {call : Nat} {timeout holding : Bool} {pc' : DropPc} :
      pc'.tally = { dropped := 1, reportable := 1 } ->
      Entry policy t b
        (ClientPc.drop call timeout holding DropPc.unreported)
        (ClientPc.drop call timeout holding pc')
        { b with reportable := b.reportable ++ [call] }
  | reportReturn {call : Nat} {timeout holding : Bool} :
      Entry policy t b
        (ClientPc.drop call timeout holding DropPc.unreported)
        ClientPc.idle
        { b with
          reportable := b.reportable ++ [call]
          returned := b.returned ++ [call] }
  | finish {pc : ClientPc} {call : Nat} :
      pc.call? = some call ->
      Finished { pc.tally policy with returned := 1 } ->
      Entry policy t b pc ClientPc.idle
        { b with returned := b.returned ++ [call] }

theorem Entry.of_same {policy : AsyncOverflowPolicy} {t : Thread}
    {b b' : Books Thread} {pc pc' : ClientPc} (hbooks : b' = b)
    (hcall : pc'.call? = pc.call?)
    (htally : pc'.tally policy = pc.tally policy)
    (hholds : forall record, pc.Holds record -> pc'.Holds record) :
    Entry policy t b pc pc' b' := by
  subst hbooks
  exact Entry.silent hcall htally hholds

theorem enqueueStep_entry [DecidableEq Thread] {t : Thread} {choice : Choice}
    {s s' : Shared Thread C} {ticket : Ticket} {pc : EnqueuePc} {pc' : ClientPc}
    (hsink : C.sinkPresent = true)
    (h : enqueueStep t choice s ticket pc = some (s', pc')) :
    Entry C.overflowPolicy t s.books (ClientPc.enqueue ticket pc) pc'
      s'.books := by
  cases pc <;> simp only [enqueueStep] at h
  case tryEnqueue =>
    split at h
    · rename_i htry
      obtain ⟨-, rfl, -⟩ := MpscBoundedQueue.contents_tryEnqueue htry
      cases h
      exact Entry.insert
    · rename_i htry
      obtain ⟨-, rfl, -⟩ := MpscBoundedQueue.tryEnqueue_false htry
      cases h
      exact Entry.refuse
  case notifyFlush pc =>
    rcases Option.map_eq_some_iff.mp h with ⟨⟨s1, next⟩, hstep, hpair⟩
    rcases notifyFlushStep_shape hstep with ⟨_, _, rfl⟩
    cases next <;> cases hpair
    · exact Entry.of_same rfl (afterRejection_eq ClientPc.call? rfl rfl rfl)
        (afterRejection_tally _ _) (fun _ => afterRejection_holds)
    · exact Entry.of_same rfl rfl rfl (fun _ => id)
  case deliver pc =>
    rcases Option.map_eq_some_iff.mp h with ⟨⟨s1, next⟩, hstep, hpair⟩
    have hhanded := deliverStep_handed hsink hstep
    rcases deliverStep_shape hstep with ⟨_, _, _, _, rfl, rfl⟩
    cases hpc : pc <;> subst hpc
    case write =>
      cases next with
      | none => cases hstep' : choice <;> simp [deliverStep, hstep'] at hstep
      | some pc' =>
          cases hpair
          simpa [Shared.books, DeliverPc.events, fellBack, SinkEvent.fallback?]
            using Entry.handOver (b := s.books) hhanded
    all_goals
      cases next <;> cases hpair <;>
        refine Entry.of_same (by simp [Shared.books, DeliverPc.events]) rfl ?_
          (fun _ => id) <;>
        simp_all [ClientPc.tally, EnqueuePc.tally, DeliverPc.handed]
  case notifyFallback pc =>
    rcases Option.map_eq_some_iff.mp h with ⟨⟨s1, next⟩, hstep, hpair⟩
    rcases notifyFlushStep_shape hstep with ⟨_, _, rfl⟩
    cases next <;> cases hpair
    · exact Entry.finish rfl Finished.handed
    · exact Entry.of_same rfl rfl rfl (fun _ => id)
  case notifyWake =>
    cases h
    exact Entry.finish rfl Finished.queued
  all_goals
    (repeat' split at h) <;> cases h <;>
      exact Entry.of_same rfl rfl rfl (fun _ h => by first | exact h | trivial)

theorem dropStep_entry {t : Thread} {s s' : Shared Thread C} {call : Nat}
    {timeout holding : Bool} {pc : DropPc} {pc' : ClientPc}
    (h : dropStep s call timeout holding pc = some (s', pc')) :
    Entry C.overflowPolicy t s.books (ClientPc.drop call timeout holding pc) pc'
      s'.books := by
  cases pc <;> simp only [dropStep] at h
  case total =>
    cases h
    exact Entry.drop
  case unreported =>
    cases timeout
    · cases holding <;> cases h
      · exact Entry.reportReturn
      · exact Entry.report rfl
    · cases h
      exact Entry.report rfl
  case timeout =>
    cases holding <;> cases h
    · exact Entry.finish rfl Finished.lost
    · exact Entry.of_same rfl rfl rfl (fun _ => id)
  case unlock =>
    cases h
    exact Entry.finish rfl Finished.lost

theorem clientStep_entry [DecidableEq Thread] {t : Thread} {choice : Choice}
    {s s' : Shared Thread C} {pc pc' : ClientPc} (hsink : C.sinkPresent = true)
    (h : clientStep t choice s pc = some (s', pc')) :
    Entry C.overflowPolicy t s.books pc pc' s'.books := by
  cases pc with
  | idle => cases h
  | enter call record =>
      cases h
      split
      · refine Entry.of_same rfl rfl (enqueueEntry_eq (ClientPc.tally _) rfl rfl) ?_
        rintro record rfl
        rfl
      · exact Entry.of_same rfl rfl rfl (fun _ _ => trivial)
  | enqueue ticket pc => exact enqueueStep_entry hsink h
  | drop call timeout holding pc => exact dropStep_entry h
  | flush before pc =>
      rcases flushStep_shape h with ⟨⟨_, _, _, _, _, _, _, _, rfl, rfl⟩, hpc⟩
      rcases hpc with rfl | ⟨_, rfl⟩ <;>
        exact Entry.of_same (by simp [Shared.books]) rfl rfl (fun _ => id)
  | stats loaded pc =>
      rcases statsStep_shape (Option.some.inj h) with ⟨⟨_, rfl⟩, hpc⟩
      rcases hpc with rfl | ⟨_, _, rfl⟩ <;>
        exact Entry.of_same rfl rfl rfl (fun _ => id)

theorem workerStep_books {choice : Choice} {s s' : Shared Thread C}
    {pc pc' : WorkerPc} (h : workerStep choice s pc = some (s', pc')) :
    s'.books = s.books := by
  rcases workerStep_shape h with
    ⟨_, _, _, _, _, _, _, _, _, _, _, _, rfl, rfl⟩
  simp [Shared.books]

/-!
## What an entry does to the tallies

The call that the client is in keeps the tally that the program point promises,
or is finished.  No other tally changes.
-/

theorem Entry.calls_eq {policy : AsyncOverflowPolicy} {t : Thread}
    {b b' : Books Thread} {pc pc' : ClientPc} (h : Entry policy t b pc pc' b') :
    b'.calls = b.calls := by
  cases h <;> rfl

theorem Entry.tally_other {policy : AsyncOverflowPolicy} {t : Thread}
    {b b' : Books Thread} {pc pc' : ClientPc} {call : Nat}
    (h : Entry policy t b pc pc' b') (hother : pc.call? ≠ some call) :
    b'.tally policy call = b.tally policy call := by
  have hne : forall own, pc.call? = some own -> ¬own = call :=
    fun own hown heq => hother (hown.trans (congrArg some heq))
  cases h with
  | silent => rfl
  | finish hcall _ =>
      simp [Books.tally, hne _ hcall]
  | _ => simp [Books.tally, hne _ rfl]

section

variable (policy : AsyncOverflowPolicy) (b : Books Thread)

theorem Books.tally_accepted (ticket : Ticket) :
    Books.tally policy { b with accepted := b.accepted ++ [ticket] }
        ticket.call =
      { b.tally policy ticket.call with
        accepted := (b.tally policy ticket.call).accepted + 1 } := by
  simp [Books.tally]

theorem Books.tally_rejected (ticket : Ticket) :
    Books.tally policy { b with rejected := b.rejected ++ [ticket] }
        ticket.call =
      { b.tally policy ticket.call with
        refused := (b.tally policy ticket.call).refused +
          if policy = AsyncOverflowPolicy.syncFallback then 1 else 0 } := by
  by_cases hpolicy : policy = AsyncOverflowPolicy.syncFallback <;>
    simp [Books.tally, hpolicy]

theorem Books.tally_fellBack (t : Thread) (ticket : Ticket) :
    Books.tally policy { b with fellBack := b.fellBack ++ [(t, ticket)] }
        ticket.call =
      { b.tally policy ticket.call with
        fellBack := (b.tally policy ticket.call).fellBack + 1 } := by
  simp [Books.tally]

theorem Books.tally_dropped (call total : Nat) :
    Books.tally policy { b with
        dropped := b.dropped ++ [call]
        totalDropped := total } call =
      { b.tally policy call with
        dropped := (b.tally policy call).dropped + 1 } := by
  simp [Books.tally]

theorem Books.tally_reportable (call : Nat) :
    Books.tally policy { b with reportable := b.reportable ++ [call] } call =
      { b.tally policy call with
        reportable := (b.tally policy call).reportable + 1 } := by
  simp [Books.tally]

theorem Books.tally_returned (call : Nat) :
    Books.tally policy { b with returned := b.returned ++ [call] } call =
      { b.tally policy call with
        returned := (b.tally policy call).returned + 1 } := by
  simp [Books.tally]

end

theorem EnqueuePc.tally_returned (policy : AsyncOverflowPolicy)
    (pc : EnqueuePc) :
    (pc.tally policy).returned = 0 := by
  cases pc <;> rfl

theorem ClientPc.tally_returned (policy : AsyncOverflowPolicy)
    (pc : ClientPc) :
    (pc.tally policy).returned = 0 := by
  cases pc with
  | enqueue ticket pc => exact pc.tally_returned policy
  | drop call timeout holding pc => cases pc <;> rfl
  | _ => rfl

theorem Entry.tally_own {policy : AsyncOverflowPolicy} {t : Thread}
    {b b' : Books Thread} {pc pc' : ClientPc} {call : Nat}
    (h : Entry policy t b pc pc' b') (hcall : pc.call? = some call)
    (htally : b.tally policy call = pc.tally policy) :
    (pc'.call? = some call ∧ b'.tally policy call = pc'.tally policy) ∨
      (pc'.call? = none ∧ Finished (b'.tally policy call)) := by
  cases h with
  | silent hsame hsameTally _ =>
      exact Or.inl ⟨hsame.trans hcall, htally.trans hsameTally.symm⟩
  | insert =>
      cases hcall
      exact Or.inl ⟨rfl, by rw [Books.tally_accepted, htally]; rfl⟩
  | refuse =>
      cases hcall
      refine Or.inl ⟨rfl, ?_⟩
      rw [Books.tally_rejected, htally]
      simp [ClientPc.tally, EnqueuePc.tally]
  | handOver hhanded =>
      cases hcall
      refine Or.inl ⟨rfl, ?_⟩
      rw [Books.tally_fellBack, htally]
      simp only [ClientPc.tally, EnqueuePc.tally, hhanded]
      rfl
  | drop =>
      cases hcall
      exact Or.inl ⟨rfl, by rw [Books.tally_dropped, htally]; rfl⟩
  | report hnext =>
      cases hcall
      refine Or.inl ⟨rfl, ?_⟩
      rw [Books.tally_reportable, htally]
      exact hnext.symm
  | reportReturn =>
      cases hcall
      refine Or.inr ⟨rfl, ?_⟩
      have hboth := Books.tally_returned policy
        { b with reportable := b.reportable ++ [call] } call
      rw [Books.tally_reportable, htally] at hboth
      rw [hboth]
      exact Finished.lost
  | finish hsome hfinished =>
      cases hsome.symm.trans hcall
      refine Or.inr ⟨rfl, ?_⟩
      rw [Books.tally_returned, htally, ClientPc.tally_returned]
      exact hfinished

theorem Entry.call_eq {policy : AsyncOverflowPolicy} {t : Thread}
    {b b' : Books Thread} {pc pc' : ClientPc} {call : Nat}
    (h : Entry policy t b pc pc' b') (hcall : pc'.call? = some call) :
    pc.call? = some call ∧
      forall record, pc.Holds record -> pc'.Holds record := by
  cases h with
  | silent hsame _ hholds => exact ⟨hsame.symm.trans hcall, hholds⟩
  | reportReturn => cases hcall
  | finish => cases hcall
  | _ => exact ⟨hcall, fun _ => id⟩

theorem Entry.counted {policy : AsyncOverflowPolicy} {t : Thread}
    {b b' : Books Thread} {pc pc' : ClientPc} (h : Entry policy t b pc pc' b')
    (hcounted : b.totalDropped = b.dropped.length) :
    b'.totalDropped = b'.dropped.length := by
  cases h with
  | drop => simp [hcounted]
  | _ => exact hcounted

theorem Entry.accepted_cases {policy : AsyncOverflowPolicy} {t : Thread}
    {b b' : Books Thread} {pc pc' : ClientPc} (h : Entry policy t b pc pc' b') :
    b'.accepted = b.accepted ∨
      exists ticket, pc = ClientPc.enqueue ticket EnqueuePc.tryEnqueue ∧
        b'.accepted = b.accepted ++ [ticket] := by
  cases h with
  | insert => exact Or.inr ⟨_, rfl, rfl⟩
  | _ => exact Or.inl rfl

theorem Entry.rejected_cases {policy : AsyncOverflowPolicy} {t : Thread}
    {b b' : Books Thread} {pc pc' : ClientPc} (h : Entry policy t b pc pc' b') :
    b'.rejected = b.rejected ∨
      exists ticket next, pc = ClientPc.enqueue ticket next ∧
        b'.rejected = b.rejected ++ [ticket] := by
  cases h with
  | refuse => exact Or.inr ⟨_, _, rfl, rfl⟩
  | _ => exact Or.inl rfl

theorem Entry.fellBack_cases {policy : AsyncOverflowPolicy} {t : Thread}
    {b b' : Books Thread} {pc pc' : ClientPc} (h : Entry policy t b pc pc' b') :
    b'.fellBack = b.fellBack ∨
      exists ticket next, pc = ClientPc.enqueue ticket next ∧
        b'.fellBack = b.fellBack ++ [(t, ticket)] := by
  cases h with
  | handOver => exact Or.inr ⟨_, _, rfl, rfl⟩
  | _ => exact Or.inl rfl

/-!
## The ledger
-/

def Books.Made (b : Books Thread) (t : Thread) (ticket : Ticket) : Prop :=
  exists record, b.calls[ticket.call]? = some { thread := t, record := record } ∧
    ticket.record = toOwned record

theorem Books.Made.thread_eq {b : Books Thread} {t t' : Thread}
    {ticket : Ticket} (h : b.Made t ticket) (h' : b.Made t' ticket) :
    t = t' := by
  rcases h with ⟨record, hcall, _⟩
  rcases h' with ⟨record', hcall', _⟩
  rw [hcall] at hcall'
  exact congrArg Call.thread (Option.some.inj hcall')

theorem Books.Made.unique {b : Books Thread} {t t' : Thread}
    {first second : Ticket} (h : b.Made t first) (h' : b.Made t' second)
    (hcall : first.call = second.call) :
    first = second := by
  rcases h with ⟨record, hfirst, hrecord⟩
  rcases h' with ⟨record', hsecond, hrecord'⟩
  rw [hcall, hsecond] at hfirst
  cases Option.some.inj hfirst
  cases first
  cases second
  simp_all

/--
What the books say in every reachable state, given where the clients are.  A
call that its client is still in has the tally of the client's program point,
and a call that its client has left is finished.
-/
structure Ledger (policy : AsyncOverflowPolicy) (b : Books Thread)
    (client : Thread -> ClientPc) : Prop where
  carried : forall t call, (client t).call? = some call ->
    exists record, b.calls[call]? = some { thread := t, record := record } ∧
      (client t).Holds record
  newest : forall t call, (client t).call? = some call ->
    forall other record,
      b.calls[other]? = some { thread := t, record := record } -> other ≤ call
  current : forall t call, (client t).call? = some call ->
    b.tally policy call = (client t).tally policy
  past : forall t call record,
    b.calls[call]? = some { thread := t, record := record } ->
    (client t).call? ≠ some call -> Finished (b.tally policy call)
  future : forall call, b.calls.length ≤ call -> b.tally policy call = {}
  accepted : forall ticket, ticket ∈ b.accepted -> exists t, b.Made t ticket
  rejected : forall ticket, ticket ∈ b.rejected -> exists t, b.Made t ticket
  fellBack : forall t ticket, (t, ticket) ∈ b.fellBack -> b.Made t ticket
  programOrder : b.accepted.Pairwise fun first second =>
    forall t, b.Made t first -> b.Made t second -> first.call < second.call
  counted : b.totalDropped = b.dropped.length

theorem Books.made_congr {b b' : Books Thread} (hcalls : b'.calls = b.calls)
    (t : Thread) (ticket : Ticket) :
    b'.Made t ticket <-> b.Made t ticket := by
  unfold Books.Made
  rw [hcalls]

namespace Ledger

variable {policy : AsyncOverflowPolicy} {b b' : Books Thread}
  {client : Thread -> ClientPc}

theorem made (h : Ledger policy b client) {t : Thread} {ticket : Ticket}
    {pc : EnqueuePc} (hclient : client t = ClientPc.enqueue ticket pc) :
    b.Made t ticket := by
  rcases h.carried t ticket.call (by rw [hclient]; rfl) with
    ⟨record, hcall, hholds⟩
  rw [hclient] at hholds
  exact ⟨record, hcall, hholds⟩

theorem carried_unique (h : Ledger policy b client) {t t' : Thread} {call : Nat}
    (ht : (client t).call? = some call) (ht' : (client t').call? = some call) :
    t = t' := by
  rcases h.carried t call ht with ⟨record, hcall, _⟩
  rcases h.carried t' call ht' with ⟨record', hcall', _⟩
  rw [hcall] at hcall'
  exact congrArg Call.thread (Option.some.inj hcall')

theorem earlier (h : Ledger policy b client) {t : Thread} {ticket old : Ticket}
    (hclient : client t = ClientPc.enqueue ticket EnqueuePc.tryEnqueue)
    (hold : old ∈ b.accepted) (hmade : b.Made t old) :
    old.call < ticket.call := by
  rcases hmade with ⟨record, hcall, _⟩
  have hmine : (client t).call? = some ticket.call := by rw [hclient]; rfl
  have hle := h.newest t ticket.call hmine old.call record hcall
  refine Nat.lt_of_le_of_ne hle fun heq => ?_
  have htally := congrArg Tally.accepted (h.current t ticket.call hmine)
  rw [hclient] at htally
  have hzero : (b.accepted.map Ticket.call).count ticket.call = 0 := htally
  rw [List.count_eq_zero] at hzero
  exact hzero (heq ▸ List.mem_map_of_mem hold)

theorem finished (h : Ledger policy b client) {call : Nat}
    (hreturned : call ∈ b.returned) :
    Finished (b.tally policy call) := by
  have hpos : 0 < (b.tally policy call).returned :=
    List.count_pos_iff.mpr hreturned
  cases hcall : b.calls[call]? with
  | none =>
      rw [h.future call (List.getElem?_eq_none_iff.mp hcall)] at hpos
      cases hpos
  | some made =>
      refine h.past made.thread call made.record hcall fun hcarried => ?_
      rw [h.current made.thread call hcarried,
        ClientPc.tally_returned] at hpos
      cases hpos

theorem entry [DecidableEq Thread] (h : Ledger policy b client) {t : Thread}
    {pc' : ClientPc} (hentry : Entry policy t b (client t) pc' b') :
    Ledger policy b' (Function.update client t pc') where
  carried := by
    intro t' call hcall
    rw [hentry.calls_eq]
    by_cases ht : t' = t
    · subst ht
      rw [Function.update_self] at hcall ⊢
      rcases hentry.call_eq hcall with ⟨hbefore, hholds⟩
      rcases h.carried t' call hbefore with ⟨record, hmine, hrecord⟩
      exact ⟨record, hmine, hholds record hrecord⟩
    · rw [Function.update_of_ne ht] at hcall ⊢
      exact h.carried t' call hcall
  newest := by
    intro t' call hcall
    rw [hentry.calls_eq]
    by_cases ht : t' = t
    · subst ht
      rw [Function.update_self] at hcall
      exact h.newest t' call (hentry.call_eq hcall).1
    · rw [Function.update_of_ne ht] at hcall
      exact h.newest t' call hcall
  current := by
    intro t' call hcall
    by_cases ht : t' = t
    · subst ht
      rw [Function.update_self] at hcall ⊢
      have hbefore := (hentry.call_eq hcall).1
      rcases hentry.tally_own hbefore (h.current t' call hbefore) with
        ⟨_, htally⟩ | ⟨hnone, _⟩
      · exact htally
      · rw [hcall] at hnone
        cases hnone
    · rw [Function.update_of_ne ht] at hcall ⊢
      have hother : (client t).call? ≠ some call :=
        fun hmine => ht (h.carried_unique hcall hmine)
      rw [hentry.tally_other hother]
      exact h.current t' call hcall
  past := by
    intro t' call record hmade hcall
    rw [hentry.calls_eq] at hmade
    by_cases hmine : (client t).call? = some call
    · rcases h.carried t call hmine with ⟨record', hmade', _⟩
      rw [hmade] at hmade'
      cases Option.some.inj hmade'
      rw [Function.update_self] at hcall
      rcases hentry.tally_own hmine (h.current t call hmine) with
        ⟨hsame, _⟩ | ⟨_, hfinished⟩
      · exact absurd hsame hcall
      · exact hfinished
    · rw [hentry.tally_other hmine]
      refine h.past t' call record hmade fun hbefore => ?_
      by_cases ht : t' = t
      · subst ht
        exact hmine hbefore
      · rw [Function.update_of_ne ht] at hcall
        exact hcall hbefore
  future := by
    intro call hlength
    rw [hentry.calls_eq] at hlength
    rw [hentry.tally_other]
    · exact h.future call hlength
    · intro hmine
      rcases h.carried t call hmine with ⟨record, hmade, _⟩
      rw [List.getElem?_eq_none hlength] at hmade
      cases hmade
  accepted := by
    intro ticket hticket
    simp only [Books.made_congr hentry.calls_eq]
    rcases hentry.accepted_cases with hsame | ⟨new, hclient, hnew⟩
    · exact h.accepted ticket (hsame ▸ hticket)
    · rw [hnew, List.mem_append, List.mem_singleton] at hticket
      rcases hticket with hold | rfl
      · exact h.accepted ticket hold
      · exact ⟨t, h.made hclient⟩
  rejected := by
    intro ticket hticket
    simp only [Books.made_congr hentry.calls_eq]
    rcases hentry.rejected_cases with hsame | ⟨new, next, hclient, hnew⟩
    · exact h.rejected ticket (hsame ▸ hticket)
    · rw [hnew, List.mem_append, List.mem_singleton] at hticket
      rcases hticket with hold | rfl
      · exact h.rejected ticket hold
      · exact ⟨t, h.made hclient⟩
  fellBack := by
    intro t' ticket hticket
    rw [Books.made_congr hentry.calls_eq]
    rcases hentry.fellBack_cases with hsame | ⟨new, next, hclient, hnew⟩
    · exact h.fellBack t' ticket (hsame ▸ hticket)
    · rw [hnew, List.mem_append, List.mem_singleton] at hticket
      rcases hticket with hold | hmine
      · exact h.fellBack t' ticket hold
      · cases hmine
        exact h.made hclient
  programOrder := by
    simp only [Books.made_congr hentry.calls_eq]
    rcases hentry.accepted_cases with hsame | ⟨new, hclient, hnew⟩
    · rw [hsame]
      exact h.programOrder
    · rw [hnew, List.pairwise_append]
      refine ⟨h.programOrder, List.pairwise_singleton _ _, ?_⟩
      intro old hold last hlast t' hmadeOld hmadeLast
      rw [List.mem_singleton] at hlast
      subst hlast
      cases hmadeLast.thread_eq (h.made hclient)
      exact h.earlier hclient hold hmadeOld
  counted := hentry.counted h.counted

theorem getElem?_concat_iff {call : Nat} {old new : Call Thread}
    {calls : List (Call Thread)} :
    (calls ++ [new])[call]? = some old <->
      calls[call]? = some old ∨ (call = calls.length ∧ new = old) := by
  rw [List.getElem?_append]
  split
  · rename_i hlt
    simp [Nat.ne_of_lt hlt]
  · rename_i hge
    rw [List.getElem?_eq_none (Nat.le_of_not_lt hge), List.getElem?_singleton]
    split <;> simp <;> omega

theorem made_concat {t : Thread} {ticket : Ticket} (h : b.Made t ticket)
    (new : Call Thread) :
    Books.Made { b with calls := b.calls ++ [new] } t ticket := by
  rcases h with ⟨record, hmade, hrecord⟩
  exact ⟨record, getElem?_concat_iff.mpr (Or.inl hmade), hrecord⟩

theorem begin [DecidableEq Thread] (h : Ledger policy b client) {t : Thread}
    {record : LogRecordView} (hidle : client t = ClientPc.idle) :
    Ledger policy
      { b with calls := b.calls ++ [{ thread := t, record := record }] }
      (Function.update client t (ClientPc.enter b.calls.length record)) where
  carried := by
    intro t' call hcall
    by_cases ht : t' = t
    · subst ht
      rw [Function.update_self] at hcall ⊢
      cases hcall
      exact ⟨record, getElem?_concat_iff.mpr (Or.inr ⟨rfl, rfl⟩), rfl⟩
    · rw [Function.update_of_ne ht] at hcall ⊢
      rcases h.carried t' call hcall with ⟨old, hmade, hholds⟩
      exact ⟨old, getElem?_concat_iff.mpr (Or.inl hmade), hholds⟩
  newest := by
    intro t' call hcall other old hmade
    rcases getElem?_concat_iff.mp hmade with holder | ⟨rfl, hnew⟩
    · by_cases ht : t' = t
      · subst ht
        rw [Function.update_self] at hcall
        cases hcall
        exact Nat.le_of_lt (List.getElem?_eq_some_iff.mp holder).1
      · rw [Function.update_of_ne ht] at hcall
        exact h.newest t' call hcall other old holder
    · cases hnew
      rw [Function.update_self] at hcall
      cases hcall
      exact Nat.le_refl _
  current := by
    intro t' call hcall
    by_cases ht : t' = t
    · subst ht
      rw [Function.update_self] at hcall ⊢
      cases hcall
      exact h.future _ (Nat.le_refl _)
    · rw [Function.update_of_ne ht] at hcall ⊢
      exact h.current t' call hcall
  past := by
    intro t' call old hmade hcall
    rcases getElem?_concat_iff.mp hmade with holder | ⟨rfl, hnew⟩
    · refine h.past t' call old holder fun hbefore => ?_
      by_cases ht : t' = t
      · subst ht
        rw [hidle] at hbefore
        cases hbefore
      · rw [Function.update_of_ne ht] at hcall
        exact hcall hbefore
    · cases hnew
      rw [Function.update_self] at hcall
      exact absurd rfl hcall
  future := by
    intro call hlength
    rw [List.length_append] at hlength
    exact h.future call (by omega)
  accepted := by
    intro ticket hticket
    rcases h.accepted ticket hticket with ⟨t', hmade⟩
    exact ⟨t', made_concat hmade _⟩
  rejected := by
    intro ticket hticket
    rcases h.rejected ticket hticket with ⟨t', hmade⟩
    exact ⟨t', made_concat hmade _⟩
  fellBack := fun t' ticket hticket =>
    made_concat (h.fellBack t' ticket hticket) _
  programOrder := by
    -- Accepted tickets belong to older calls, so the new one decides nothing.
    have hold : forall {t' : Thread} {ticket : Ticket}, ticket ∈ b.accepted ->
        Books.Made { b with calls := b.calls ++ [⟨t, record⟩] } t' ticket ->
        b.Made t' ticket := by
      intro t' ticket hticket hnew
      rcases h.accepted ticket hticket with ⟨t0, hmade⟩
      cases hnew.thread_eq (made_concat hmade _)
      exact hmade
    refine List.Pairwise.imp_of_mem ?_ h.programOrder
    intro first second hfirst hsecond horder t' hmadeFirst hmadeSecond
    exact horder t' (hold hfirst hmadeFirst) (hold hsecond hmadeSecond)
  counted := h.counted

end Ledger

/-!
## Every reachable state
-/

theorem ledger_init (policy : AsyncOverflowPolicy) :
    Ledger policy ({} : Shared Thread C).books (fun _ => ClientPc.idle) where
  carried := by intro t call hcall; cases hcall
  newest := by intro t call hcall; cases hcall
  current := by intro t call hcall; cases hcall
  past := by intro t call record hmade; cases hmade
  future := by intro call _; simp [Shared.books, Books.tally, fellBack]
  accepted := by intro ticket hticket; cases hticket
  rejected := by intro ticket hticket; cases hticket
  fellBack := by intro t ticket hticket; cases hticket
  programOrder := List.Pairwise.nil
  counted := rfl

theorem reachable_ledger [DecidableEq Thread] {s : State Thread C}
    (hsink : C.sinkPresent = true) (h : (asyncSink Thread C).Reachable s) :
    Ledger C.overflowPolicy s.shared.books s.client := by
  refine Machine.invariant
    (P := fun s => Ledger C.overflowPolicy s.shared.books s.client)
    (ledger_init _) (fun s a s' _ hs hstep => ?_) h
  cases a with
  | write t record =>
      rcases State.begin_some hstep with ⟨hidle, rfl⟩
      exact hs.begin hidle
  | flush t =>
      rcases State.begin_some hstep with ⟨hidle, rfl⟩
      apply hs.entry
      rw [hidle]
      exact Entry.silent rfl rfl fun _ => id
  | getStats t =>
      rcases State.begin_some hstep with ⟨hidle, rfl⟩
      apply hs.entry
      rw [hidle]
      exact Entry.silent rfl rfl fun _ => id
  | client t choice =>
      rcases Option.map_eq_some_iff.mp hstep with ⟨⟨shared, pc⟩, hclient, rfl⟩
      exact hs.entry (clientStep_entry hsink hclient)
  | worker choice =>
      rcases Option.map_eq_some_iff.mp hstep with ⟨⟨shared, pc⟩, hworker, rfl⟩
      have hbooks := workerStep_books hworker
      simp only
      rw [hbooks]
      exact hs
  | owner =>
      rcases Option.map_eq_some_iff.mp hstep with ⟨⟨shared, pc⟩, howner, rfl⟩
      rcases ownerStep_shape howner with ⟨_, _, _, rfl⟩
      exact hs

end Async
end NginLog
