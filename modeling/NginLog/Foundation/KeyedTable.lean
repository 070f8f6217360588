import Mathlib.Data.List.MinMax
import Mathlib.Logic.Function.Basic
import NginLog.Foundation.KeyedMerge

/-!
# Tables kept as lists

A table from keys to entries can be kept as a list of entries with different
keys.  An entry is put in by overwriting the one with its key or by appending
it, and taken out by filtering.  A search through the list for the entry whose
key is largest among those that are admitted then depends on the table alone.
-/

namespace NginLog
namespace Foundation

namespace KeyedTable

variable {entry key : Type} {keyOf : entry -> key}

/-- The list holds the entries of the table, each under its own key. -/
structure Represents (keyOf : entry -> key) (items : List entry)
    (table : key -> Option entry) : Prop where
  distinct : (items.map keyOf).Nodup
  keyed : forall k e, table k = some e -> keyOf e = k
  mem_iff : forall e, e ∈ items <-> table (keyOf e) = some e

def upsert [DecidableEq key] (keyOf : entry -> key) (items : List entry)
    (new : entry) : List entry :=
  (KeyedMerge.replace? keyOf items new).getD (items ++ [new])

def erase [DecidableEq key] (keyOf : entry -> key) (items : List entry)
    (k : key) : List entry :=
  items.filter fun e => keyOf e ≠ k

namespace Represents

variable {items : List entry} {table : key -> Option entry}

theorem empty (keyOf : entry -> key) : Represents keyOf [] fun _ => none where
  distinct := List.nodup_nil
  keyed := fun _ _ h => by cases h
  mem_iff := fun _ => by simp

theorem upsert [DecidableEq key] (h : Represents keyOf items table)
    (new : entry) :
    Represents keyOf (upsert keyOf items new)
      (Function.update table (keyOf new) (some new)) := by
  have hkeyed : forall k e,
      Function.update table (keyOf new) (some new) k = some e ->
        keyOf e = k := by
    intro k e he
    by_cases hk : k = keyOf new
    · subst hk
      rw [Function.update_self] at he
      rw [Option.some.inj he]
    · rw [Function.update_of_ne hk] at he
      exact h.keyed k e he
  -- In both cases the list holds the new entry and all with other keys.
  have hmem : forall e, (e = new ∨ (e ∈ items ∧ keyOf e ≠ keyOf new)) <->
      Function.update table (keyOf new) (some new) (keyOf e) = some e := by
    intro e
    by_cases hk : keyOf e = keyOf new
    · rw [hk, Function.update_self, Option.some_inj]
      constructor
      · rintro (heq | ⟨_, hne⟩)
        · exact heq.symm
        · exact absurd rfl hne
      · exact fun heq => Or.inl heq.symm
    · rw [Function.update_of_ne hk, ← h.mem_iff, or_iff_right]
      · exact ⟨And.left, fun he => ⟨he, hk⟩⟩
      · exact fun heq => hk (congrArg keyOf heq)
  unfold KeyedTable.upsert
  cases hreplace : KeyedMerge.replace? keyOf items new with
  | some replaced =>
      rcases KeyedMerge.replace?_some hreplace with ⟨hkeys, hreplaced⟩
      refine ⟨?_, hkeyed, fun e => ?_⟩
      · rw [Option.getD_some, hkeys]
        exact h.distinct
      · rw [Option.getD_some, hreplaced h.distinct, hmem]
  | none =>
      have hnew := KeyedMerge.replace?_eq_none_iff.mp hreplace
      refine ⟨?_, hkeyed, fun e => ?_⟩
      · rw [Option.getD_none, List.map_append, List.map_singleton,
          ← List.concat_eq_append]
        exact h.distinct.concat hnew
      · rw [Option.getD_none, List.mem_append, List.mem_singleton, ← hmem,
          or_comm]
        refine or_congr_right ⟨fun he => ⟨he, fun heq => hnew ?_⟩, And.left⟩
        rw [← heq]
        exact List.mem_map_of_mem he

theorem erase [DecidableEq key] (h : Represents keyOf items table)
    (k : key) :
    Represents keyOf (erase keyOf items k) (Function.update table k none) := by
  refine ⟨?_, fun k' e he => ?_, fun e => ?_⟩
  · exact h.distinct.sublist (List.filter_sublist.map keyOf)
  · by_cases hk : k' = k
    · subst hk
      rw [Function.update_self] at he
      cases he
    · rw [Function.update_of_ne hk] at he
      exact h.keyed k' e he
  · rw [KeyedTable.erase, List.mem_filter, decide_eq_true_iff]
    by_cases hk : keyOf e = k
    · rw [hk, Function.update_self]
      exact ⟨fun hcase => absurd rfl hcase.2, fun hnone => by cases hnone⟩
    · rw [Function.update_of_ne hk, h.mem_iff]
      exact and_iff_left hk

theorem eq_of_key (h : Represents keyOf items table) {first second : entry}
    (hfirst : first ∈ items) (hsecond : second ∈ items)
    (hkey : keyOf first = keyOf second) :
    first = second := by
  rw [h.mem_iff] at hfirst hsecond
  rw [hkey, hsecond] at hfirst
  exact (Option.some.inj hfirst).symm

end Represents

/-!
## The largest admitted key
-/

/-- The entry with the largest of the admitted keys, if any is in the table. -/
def Largest (keyOf : entry -> key) (admits : key -> Prop) (size : key -> Nat)
    (table : key -> Option entry) : Option entry -> Prop
  | none => forall k, admits k -> table k = none
  | some best => admits (keyOf best) ∧ table (keyOf best) = some best ∧
      forall k e, admits k -> table k = some e -> size k ≤ size (keyOf best)

def consider (keyOf : entry -> key) (admits : key -> Prop)
    [DecidablePred admits] (size : key -> Nat) (best : Option entry)
    (e : entry) : Option entry :=
  if admits (keyOf e) then
    match best with
    | none => some e
    | some old => if size (keyOf e) > size (keyOf old) then some e else some old
  else
    best

structure Found (keyOf : entry -> key) (admits : key -> Prop)
    (size : key -> Nat) (seen : List entry) (best : Option entry) : Prop where
  mem : forall e, best = some e -> e ∈ seen ∧ admits (keyOf e)
  largest : forall e, e ∈ seen -> admits (keyOf e) ->
    exists old, best = some old ∧ size (keyOf e) ≤ size (keyOf old)

def FirstLargest (keyOf : entry -> key) (admits : key -> Prop)
    (size : key -> Nat) (items : List entry) (e : entry) : Prop :=
  exists before after, items = before ++ e :: after ∧ admits (keyOf e) ∧
    (forall b, b ∈ before -> admits (keyOf b) ->
      size (keyOf b) < size (keyOf e)) ∧
    (forall a, a ∈ after -> admits (keyOf a) -> size (keyOf a) ≤ size (keyOf e))

theorem firstLargest_concat {admits : key -> Prop} {size : key -> Nat}
    (items : List entry) (last e : entry) :
    FirstLargest keyOf admits size (items ++ [last]) e <->
      (FirstLargest keyOf admits size items e ∧
        (admits (keyOf last) -> size (keyOf last) ≤ size (keyOf e))) ∨
      (e = last ∧ admits (keyOf last) ∧
        forall b, b ∈ items -> admits (keyOf b) ->
          size (keyOf b) < size (keyOf last)) := by
  constructor
  · rintro ⟨before, after, hsplit, hadmits, hbefore, hafter⟩
    rcases List.eq_nil_or_concat after with rfl | ⟨rest, x, rfl⟩
    · rcases List.append_inj' hsplit rfl with ⟨rfl, hlast⟩
      cases hlast
      exact Or.inr ⟨rfl, hadmits, hbefore⟩
    · rw [List.concat_eq_append, ← List.cons_append, ← List.append_assoc]
        at hsplit
      rw [List.concat_eq_append] at hafter
      rcases List.append_inj' hsplit rfl with ⟨hitems, hlast⟩
      cases hlast
      refine Or.inl ⟨⟨before, rest, hitems, hadmits, hbefore, ?_⟩, ?_⟩
      · exact fun a ha => hafter a (List.mem_append_left _ ha)
      · exact hafter last (List.mem_append_right _ List.mem_cons_self)
  · rintro (⟨⟨before, after, rfl, hadmits, hbefore, hafter⟩, hlast⟩ |
      ⟨rfl, hadmits, hitems⟩)
    · refine ⟨before, after ++ [last], by simp, hadmits, hbefore, ?_⟩
      intro a ha
      rcases List.mem_append.mp ha with hold | hnew
      · exact hafter a hold
      · rw [List.mem_singleton.mp hnew]
        exact hlast
    · exact ⟨items, [], rfl, hadmits, hitems,
        fun a ha => absurd ha List.not_mem_nil⟩

section

variable {admits : key -> Prop} [DecidablePred admits] {size : key -> Nat}

theorem foldl_consider_eq_argmax (items : List entry) :
    items.foldl (consider keyOf admits size) none =
      (items.filter fun e => decide (admits (keyOf e))).argmax
        fun e => size (keyOf e) := by
  have hround : consider keyOf admits size = fun best e =>
      if decide (admits (keyOf e)) = true then
        List.argAux (fun b c => size (keyOf c) < size (keyOf b)) best e
      else
        best := by
    funext best e
    unfold consider
    simp only [decide_eq_true_eq]
    cases best with
    | none => rfl
    | some old => rfl
  rw [List.argmax, List.foldl_filter, hround]

theorem found_foldl (items : List entry) :
    Found keyOf admits size items
      (items.foldl (consider keyOf admits size) none) := by
  rw [foldl_consider_eq_argmax]
  constructor
  · intro e he
    rcases List.mem_filter.mp (List.argmax_mem he) with ⟨hmem, hadmits⟩
    exact ⟨hmem, of_decide_eq_true hadmits⟩
  · intro e he hadmits
    have hmem : e ∈ items.filter fun e => decide (admits (keyOf e)) :=
      List.mem_filter.mpr ⟨he, decide_eq_true hadmits⟩
    cases hbest : (items.filter fun e => decide (admits (keyOf e))).argmax
        fun e => size (keyOf e) with
    | none =>
        rw [List.argmax_eq_none.mp hbest] at hmem
        cases hmem
    | some old =>
        have hle := List.le_of_mem_argmax hmem hbest
        exact ⟨old, rfl, hle⟩

theorem Found.consider_eq_some_iff {seen : List entry} {best : Option entry}
    (h : Found keyOf admits size seen best) (last e : entry) :
    consider keyOf admits size best last = some e <->
      (best = some e ∧
        (admits (keyOf last) -> size (keyOf last) ≤ size (keyOf e))) ∨
      (e = last ∧ admits (keyOf last) ∧
        forall b, b ∈ seen -> admits (keyOf b) ->
          size (keyOf b) < size (keyOf last)) := by
  unfold consider
  by_cases hlast : admits (keyOf last)
  · rw [if_pos hlast]
    cases best with
    | none =>
        have hnone : forall b, b ∈ seen -> ¬ admits (keyOf b) := by
          intro b hb hadmits
          rcases h.largest b hb hadmits with ⟨old, hsome, _⟩
          cases hsome
        constructor
        · rintro ⟨⟩
          exact Or.inr ⟨rfl, hlast, fun b hb hadmits =>
            absurd hadmits (hnone b hb)⟩
        · rintro (⟨hsome, _⟩ | ⟨rfl, _⟩)
          · cases hsome
          · rfl
    | some old =>
        rcases h.mem old rfl with ⟨hmem, hadmits⟩
        have hle : forall b, b ∈ seen -> admits (keyOf b) ->
            size (keyOf b) ≤ size (keyOf old) := by
          intro b hb hb'
          rcases h.largest b hb hb' with ⟨old', hsome, hle⟩
          cases hsome
          exact hle
        simp only
        split
        · rename_i hlarger
          constructor
          · rintro ⟨⟩
            exact Or.inr ⟨rfl, hlast, fun b hb hb' =>
              Nat.lt_of_le_of_lt (hle b hb hb') hlarger⟩
          · rintro (⟨⟨⟩, hle'⟩ | ⟨rfl, _⟩)
            · exact absurd hlarger (Nat.not_lt.mpr (hle' hlast))
            · rfl
        · rename_i hsmaller
          constructor
          · rintro ⟨⟩
            exact Or.inl ⟨rfl, fun _ => Nat.not_lt.mp hsmaller⟩
          · rintro (⟨hsome, _⟩ | ⟨rfl, _, hlarger⟩)
            · exact hsome
            · exact absurd (hlarger old hmem hadmits) hsmaller
  · rw [if_neg hlast]
    constructor
    · exact fun hsome => Or.inl ⟨hsome, fun h => absurd h hlast⟩
    · rintro (⟨hsome, _⟩ | ⟨_, hadmits, _⟩)
      · exact hsome
      · exact absurd hadmits hlast

theorem foldl_consider_eq_some_iff (items : List entry) (e : entry) :
    items.foldl (consider keyOf admits size) none = some e <->
      FirstLargest keyOf admits size items e := by
  induction items using List.reverseRecOn generalizing e with
  | nil =>
      constructor
      · intro h
        cases h
      · rintro ⟨before, after, hnil, _⟩
        exact absurd hnil (by simp)
  | append_singleton rest last ih =>
      rw [List.foldl_concat, (found_foldl rest).consider_eq_some_iff, ih,
        firstLargest_concat]

theorem Represents.largest_foldl {items : List entry}
    {table : key -> Option entry} (h : Represents keyOf items table) :
    Largest keyOf admits size table
      (items.foldl (consider keyOf admits size) none) := by
  have hfound : Found keyOf admits size items
      (items.foldl (consider keyOf admits size) none) :=
    found_foldl items
  have hentry : forall k e, table k = some e -> keyOf e = k ∧ e ∈ items := by
    intro k e he
    have hk := h.keyed k e he
    exact ⟨hk, (h.mem_iff e).mpr (by rw [hk, he])⟩
  cases hbest : items.foldl (consider keyOf admits size) none with
  | none =>
      intro k hk
      by_contra hne
      rcases Option.ne_none_iff_exists'.mp hne with ⟨e, he⟩
      rcases hentry k e he with ⟨rfl, hmem⟩
      rcases hfound.largest e hmem hk with ⟨old, hsome, _⟩
      rw [hbest] at hsome
      cases hsome
  | some best =>
      rcases hfound.mem best hbest with ⟨hmem, hadmits⟩
      refine ⟨hadmits, (h.mem_iff best).mp hmem, fun k e hk he => ?_⟩
      rcases hentry k e he with ⟨rfl, hin⟩
      rcases hfound.largest e hin hk with ⟨old, hsome, hle⟩
      rw [hbest] at hsome
      cases hsome
      exact hle

end

theorem Largest.unique {admits : key -> Prop} {size : key -> Nat}
    {table : key -> Option entry} {first second : Option entry}
    (hsize : forall k k', admits k -> admits k' -> size k = size k' -> k = k')
    (hfirst : Largest keyOf admits size table first)
    (hsecond : Largest keyOf admits size table second) :
    first = second := by
  cases first with
  | none =>
      cases second with
      | none => rfl
      | some e =>
          have hnone := hfirst (keyOf e) hsecond.1
          rw [hsecond.2.1] at hnone
          cases hnone
  | some e =>
      cases second with
      | none =>
          have hnone := hsecond (keyOf e) hfirst.1
          rw [hfirst.2.1] at hnone
          cases hnone
      | some e' =>
          have hle := hfirst.2.2 (keyOf e') e' hsecond.1 hsecond.2.1
          have hge := hsecond.2.2 (keyOf e) e hfirst.1 hfirst.2.1
          have hkey := hsize _ _ hfirst.1 hsecond.1 (Nat.le_antisymm hge hle)
          have hentry := hfirst.2.1
          rw [hkey, hsecond.2.1] at hentry
          exact hentry.symm

end KeyedTable

end Foundation
end NginLog
