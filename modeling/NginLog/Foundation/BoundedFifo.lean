import Mathlib.Data.List.Basic

/-!
# Objects and bounded queues

An object answers one call after another.  A relation between the states of two
objects that every call keeps, with the same answer, makes their answers the same
over every sequence of calls.  The object of this module that others are compared
with is a list that takes in at its back, as long as it is short enough, and
gives out at its front.
-/

namespace NginLog
namespace Foundation

structure Object (state call reply : Type) where
  init : state
  answer : state -> call -> reply × state

namespace Object

variable {state state' call reply : Type}

/-- The answers to a sequence of calls, and the state after it. -/
def runFrom (O : Object state call reply) :
    state -> List call -> List reply × state
  | s, [] => ([], s)
  | s, c :: rest =>
      let answered := O.answer s c
      let run := runFrom O answered.2 rest
      (answered.1 :: run.1, run.2)

def run (O : Object state call reply) (calls : List call) :
    List reply × state :=
  O.runFrom O.init calls

structure Simulates (O : Object state call reply)
    (A : Object state' call reply) (R : state -> state' -> Prop) : Prop where
  init : R O.init A.init
  answer : forall s a c, R s a ->
    (O.answer s c).1 = (A.answer a c).1 ∧ R (O.answer s c).2 (A.answer a c).2

theorem Simulates.runFrom {O : Object state call reply}
    {A : Object state' call reply} {R : state -> state' -> Prop}
    (h : O.Simulates A R) {s : state} {a : state'} (hs : R s a)
    (calls : List call) :
    (O.runFrom s calls).1 = (A.runFrom a calls).1 ∧
      R (O.runFrom s calls).2 (A.runFrom a calls).2 := by
  induction calls generalizing s a with
  | nil => exact ⟨rfl, hs⟩
  | cons c rest ih =>
      rcases h.answer s a c hs with ⟨hreply, hnext⟩
      rcases ih hnext with ⟨hreplies, hend⟩
      constructor
      · rw [Object.runFrom, Object.runFrom, hreply, hreplies]
      · exact hend

theorem Simulates.run {O : Object state call reply}
    {A : Object state' call reply} {R : state -> state' -> Prop}
    (h : O.Simulates A R) (calls : List call) :
    (O.run calls).1 = (A.run calls).1 ∧ R (O.run calls).2 (A.run calls).2 :=
  h.runFrom h.init calls

end Object

/-!
## The bounded queue
-/

namespace BoundedFifo

variable {item : Type}

inductive Call (item : Type) where
  | enqueue (new : item)
  | dequeue (output : item)
  | depth

/-- Whether a call succeeds, with its argument or its output after it. -/
inductive Reply (item : Type) where
  | enqueued (success : Bool) (argument : item)
  | dequeued (success : Bool) (output : item)
  | depth (size : Nat)

def answer (capacity : Nat) (items : List item) :
    Call item -> Reply item × List item
  | Call.enqueue new =>
      if items.length < capacity then
        (Reply.enqueued true new, items ++ [new])
      else
        (Reply.enqueued false new, items)
  | Call.dequeue output =>
      match items with
      | [] => (Reply.dequeued false output, [])
      | first :: rest => (Reply.dequeued true first, rest)
  | Call.depth => (Reply.depth items.length, items)

def queue (item : Type) (capacity : Nat) :
    Object (List item) (Call item) (Reply item) where
  init := []
  answer := answer capacity

end BoundedFifo

end Foundation
end NginLog
