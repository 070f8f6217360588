import Mathlib.Data.List.Basic
import Mathlib.Data.List.Forall2

/-!
# Storing entries in a bounded room

Entries are stored one after another.  Each is cut to the room that the earlier
ones left, and takes its size from that room, or all of it.
-/

namespace NginLog
namespace Foundation

namespace Clip

variable {entry : Type} (cut : Nat -> entry -> entry) (size : entry -> Nat)

def clip : Nat -> List entry -> List entry
  | _, [] => []
  | room, e :: rest => cut room e :: clip (room - size e) rest

/-- The size of all entries together. -/
def total : List entry -> Nat
  | [] => 0
  | e :: rest => size e + total rest

@[simp] theorem total_nil : total size ([] : List entry) = 0 := rfl

@[simp] theorem total_cons (e : entry) (rest : List entry) :
    total size (e :: rest) = size e + total size rest := rfl

@[simp] theorem total_append (first second : List entry) :
    total size (first ++ second) = total size first + total size second := by
  induction first with
  | nil => simp
  | cons e rest ih => simp [ih, Nat.add_assoc]

theorem total_le_total {size size' : entry -> Nat}
    (h : forall e, size e ≤ size' e) (items : List entry) :
    total size items ≤ total size' items := by
  induction items with
  | nil => exact Nat.le_refl _
  | cons e rest ih => exact Nat.add_le_add (h e) ih

theorem total_eq_zero_iff {items : List entry} :
    total size items = 0 <-> forall e, e ∈ items -> size e = 0 := by
  induction items with
  | nil => simp
  | cons e rest ih => simp [ih]

@[simp] theorem clip_nil (room : Nat) : clip cut size room [] = [] := rfl

@[simp] theorem clip_cons (room : Nat) (e : entry) (rest : List entry) :
    clip cut size room (e :: rest) =
      cut room e :: clip cut size (room - size e) rest := rfl

@[simp] theorem clip_length (room : Nat) (items : List entry) :
    (clip cut size room items).length = items.length := by
  induction items generalizing room with
  | nil => rfl
  | cons e rest ih => simp [ih]

theorem clip_append (room : Nat) (first second : List entry) :
    clip cut size room (first ++ second) =
      clip cut size room first ++
        clip cut size (room - total size first) second := by
  induction first generalizing room with
  | nil => rfl
  | cons e rest ih =>
      simp only [List.cons_append, clip_cons, total_cons, ih, Nat.sub_sub]

theorem clip_getElem? (room : Nat) (items : List entry) (i : Nat) :
    (clip cut size room items)[i]? =
      items[i]?.map (cut (room - total size (items.take i))) := by
  induction items generalizing room i with
  | nil => rfl
  | cons e rest ih =>
      cases i with
      | zero => rfl
      | succ i =>
          rw [clip_cons, List.getElem?_cons_succ, List.getElem?_cons_succ,
            List.take_succ_cons, total_cons, ih, Nat.sub_sub]

variable {cut size}

theorem forall_mem_clip {P : entry -> Prop} {room : Nat} {items : List entry}
    (hcut : forall room' e, room' ≤ room -> P (cut room' e)) :
    forall e, e ∈ clip cut size room items -> P e := by
  induction items generalizing room with
  | nil => exact fun _ h => absurd h List.not_mem_nil
  | cons first rest ih =>
      intro e he
      rcases List.mem_cons.mp he with rfl | he
      · exact hcut room first (Nat.le_refl _)
      · exact ih (fun room' e' h => hcut room' e'
          (Nat.le_trans h (Nat.sub_le _ _))) e he

theorem forall₂_clip {R : entry -> entry -> Prop}
    (hcut : forall room e, R (cut room e) e) (room : Nat)
    (items : List entry) :
    List.Forall₂ R (clip cut size room items) items := by
  induction items generalizing room with
  | nil => exact List.Forall₂.nil
  | cons e rest ih => exact List.Forall₂.cons (hcut room e) (ih _)

theorem total_cut_clip
    (hsize : forall room e, size (cut room e) = min (size e) room)
    (room : Nat) (items : List entry) :
    total (fun pair => size pair.1 - size pair.2)
        (items.zip (clip cut size room items)) =
      total size items - room := by
  induction items generalizing room with
  | nil => exact (Nat.zero_sub room).symm
  | cons e rest ih =>
      rw [clip_cons, List.zip_cons_cons, total_cons, total_cons, ih]
      dsimp only
      rw [hsize]
      omega

theorem clip_eq_self
    (hcut : forall room e, size e ≤ room -> cut room e = e)
    {room : Nat} {items : List entry} (h : total size items ≤ room) :
    clip cut size room items = items := by
  induction items generalizing room with
  | nil => rfl
  | cons e rest ih =>
      rw [total_cons] at h
      rw [clip_cons, hcut room e (by omega), ih (by omega)]

end Clip

end Foundation
end NginLog
