import Mathlib.Data.List.Nodup
import Mathlib.Data.Finset.Dedup
import Mathlib.Data.Finset.Card

/-!
# Merging keyed entries into a bounded list

Entries arrive one after another.  An entry whose key is already present
overwrites what is there; another one is appended while there is room, and is
dropped otherwise.  The keys that are kept are the first ones to arrive, and
each of them ends up with the last entry that came with it.
-/

namespace NginLog
namespace Foundation

namespace KeyedMerge

variable {entry key : Type} [DecidableEq key] (keyOf : entry -> key)
  (limit : Nat)

def replace? : List entry -> entry -> Option (List entry)
  | [], _ => none
  | old :: rest, new =>
      if keyOf old = keyOf new then
        some (new :: rest)
      else
        (replace? rest new).map (old :: ·)

def put (state : List entry × Nat) (new : entry) : List entry × Nat :=
  match replace? keyOf state.1 new with
  | some merged => (merged, state.2)
  | none =>
      if state.1.length ≥ limit then
        (state.1, state.2 + 1)
      else
        (state.1 ++ [new], state.2)

def merge (items : List entry) : List entry × Nat :=
  items.foldl (put keyOf limit) ([], 0)

def grow (seen : List key) (new : key) : List key :=
  if new ∈ seen then
    seen
  else if seen.length ≥ limit then
    seen
  else
    seen ++ [new]

/-- The first keys to arrive, as many as there is room for. -/
def kept (keys : List key) : List key :=
  keys.foldl (grow limit) []

def lastWith (k : key) (items : List entry) : Option entry :=
  items.reverse.find? fun item => keyOf item = k

def Shadowed (e : entry) (later : List entry) : Prop :=
  keyOf e ∈ later.map keyOf

instance (e : entry) (later : List entry) :
    Decidable (Shadowed keyOf e later) :=
  inferInstanceAs (Decidable (_ ∈ _))

def unshadowed : List entry -> List entry
  | [] => []
  | e :: rest =>
      if Shadowed keyOf e rest then unshadowed rest else e :: unshadowed rest

def countOutside (keys : List key) (items : List entry) : Nat :=
  items.countP fun item => keyOf item ∉ keys

/-!
## The kept keys
-/

@[simp] theorem kept_nil : kept limit ([] : List key) = [] := rfl

theorem kept_concat (keys : List key) (new : key) :
    kept limit (keys ++ [new]) = grow limit (kept limit keys) new :=
  List.foldl_concat ..

variable {limit}

theorem grow_of_mem {seen : List key} {new : key} (h : new ∈ seen) :
    grow limit seen new = seen := if_pos h

theorem grow_of_full {seen : List key} {new : key} (h : new ∉ seen)
    (hfull : limit ≤ seen.length) :
    grow limit seen new = seen := by
  rw [grow, if_neg h, if_pos hfull]

theorem grow_of_room {seen : List key} {new : key} (h : new ∉ seen)
    (hroom : seen.length < limit) :
    grow limit seen new = seen ++ [new] := by
  rw [grow, if_neg h, if_neg (Nat.not_le_of_lt hroom)]

theorem grow_cases (limit : Nat) (seen : List key) (new : key) :
    (new ∈ seen ∧ grow limit seen new = seen) ∨
      (new ∉ seen ∧ limit ≤ seen.length ∧ grow limit seen new = seen) ∨
      (new ∉ seen ∧ seen.length < limit ∧
        grow limit seen new = seen ++ [new]) := by
  by_cases hnew : new ∈ seen
  · exact Or.inl ⟨hnew, grow_of_mem hnew⟩
  · rcases Nat.lt_or_ge seen.length limit with hroom | hfull
    · exact Or.inr (Or.inr ⟨hnew, hroom, grow_of_room hnew hroom⟩)
    · exact Or.inr (Or.inl ⟨hnew, hfull, grow_of_full hnew hfull⟩)

theorem mem_grow_of_mem {seen : List key} {new k : key} (h : k ∈ seen) :
    k ∈ grow limit seen new := by
  rcases grow_cases limit seen new with ⟨_, heq⟩ | ⟨_, _, heq⟩ | ⟨_, _, heq⟩ <;>
    rw [heq]
  · exact h
  · exact h
  · exact List.mem_append_left _ h

theorem nodup_grow {seen : List key} {new : key} (h : seen.Nodup) :
    (grow limit seen new).Nodup := by
  rcases grow_cases limit seen new with ⟨_, heq⟩ | ⟨_, _, heq⟩ | ⟨hnew, _, heq⟩ <;>
    rw [heq]
  · exact h
  · exact h
  · rw [← List.concat_eq_append]
    exact h.concat hnew

theorem nodup_kept (limit : Nat) (keys : List key) : (kept limit keys).Nodup := by
  induction keys using List.reverseRecOn with
  | nil => exact List.nodup_nil
  | append_singleton rest new ih =>
      rw [kept_concat]
      exact nodup_grow ih

theorem kept_length_le (keys : List key) :
    (kept limit keys).length ≤ limit := by
  induction keys using List.reverseRecOn with
  | nil => exact Nat.zero_le _
  | append_singleton rest new ih =>
      rw [kept_concat]
      rcases grow_cases limit (kept limit rest) new with
        ⟨_, heq⟩ | ⟨_, _, heq⟩ | ⟨_, hroom, heq⟩ <;> rw [heq]
      · exact ih
      · exact ih
      · rw [List.length_append, List.length_singleton]
        exact hroom

theorem mem_of_mem_kept {keys : List key} {k : key}
    (h : k ∈ kept limit keys) :
    k ∈ keys := by
  induction keys using List.reverseRecOn with
  | nil => exact h
  | append_singleton rest new ih =>
      rw [kept_concat] at h
      rw [List.mem_append]
      rcases grow_cases limit (kept limit rest) new with
        ⟨_, heq⟩ | ⟨_, _, heq⟩ | ⟨_, _, heq⟩ <;> rw [heq] at h
      · exact Or.inl (ih h)
      · exact Or.inl (ih h)
      · exact (List.mem_append.mp h).imp ih id

theorem mem_kept_of_room {keys : List key} {k : key} (hk : k ∈ keys)
    (hroom : (kept limit keys).length < limit) :
    k ∈ kept limit keys := by
  induction keys using List.reverseRecOn with
  | nil => exact hk
  | append_singleton rest new ih =>
      rw [kept_concat] at hroom ⊢
      rw [List.mem_append, List.mem_singleton] at hk
      rcases grow_cases limit (kept limit rest) new with
        ⟨hnew, heq⟩ | ⟨_, hfull, heq⟩ | ⟨_, hbefore, heq⟩ <;>
        rw [heq] at hroom ⊢
      · rcases hk with hold | rfl
        · exact ih hold hroom
        · exact hnew
      · omega
      · rw [List.mem_append, List.mem_singleton]
        exact hk.imp (fun hold => ih hold hbefore) id

theorem mem_kept_of_mem_grow {keys : List key} {new k : key} (hk : k ∈ keys)
    (h : k ∈ grow limit (kept limit keys) new) :
    k ∈ kept limit keys := by
  rcases grow_cases limit (kept limit keys) new with
    ⟨_, heq⟩ | ⟨_, _, heq⟩ | ⟨_, hroom, _⟩
  · rwa [heq] at h
  · rwa [heq] at h
  · exact mem_kept_of_room hk hroom

theorem mem_kept_of_subset {keys known : List key}
    (hcard : known.toFinset.card ≤ limit)
    (hknown : forall k, k ∈ kept limit keys -> k ∈ known)
    {k : key} (hk : k ∈ known) (hkeys : k ∈ keys) :
    k ∈ kept limit keys := by
  by_cases hroom : (kept limit keys).length < limit
  · exact mem_kept_of_room hkeys hroom
  · have hsubset : (kept limit keys).toFinset ⊆ known.toFinset := by
      intro other hother
      rw [List.mem_toFinset] at hother ⊢
      exact hknown other hother
    have hcount := List.toFinset_card_of_nodup (nodup_kept limit keys)
    have heq := Finset.eq_of_subset_of_card_le hsubset (by omega)
    rw [← List.mem_toFinset, heq, List.mem_toFinset]
    exact hk

theorem mem_kept_of_card_le {keys : List key}
    (hcard : keys.toFinset.card ≤ limit) {k : key} (hk : k ∈ keys) :
    k ∈ kept limit keys :=
  mem_kept_of_subset hcard (fun _ => mem_of_mem_kept) hk hk

omit [DecidableEq key] in
theorem removeAll_singleton [BEq key] [LawfulBEq key] (seen : List key)
    (new : key) :
    [new].removeAll seen = if new ∈ seen then [] else [new] := by
  by_cases hnew : new ∈ seen <;> simp [List.removeAll, hnew]

theorem kept_eq_take [BEq key] [LawfulBEq key] (limit : Nat)
    (keys : List key) :
    kept limit keys = keys.eraseDups.take limit := by
  induction keys using List.reverseRecOn with
  | nil => simp
  | append_singleton rest new ih =>
      rw [kept_concat, List.eraseDups_append, removeAll_singleton]
      by_cases hold : new ∈ rest
      · -- A key that came before is kept already, or came when all was full.
        rw [if_pos hold, List.eraseDups_nil, List.append_nil, ← ih]
        by_cases hnew : new ∈ kept limit rest
        · exact grow_of_mem hnew
        · have hfull : limit ≤ (kept limit rest).length := by
            by_contra hroom
            exact hnew (mem_kept_of_room hold (Nat.lt_of_not_le hroom))
          exact grow_of_full hnew hfull
      · have hnew : new ∉ kept limit rest := fun h => hold (mem_of_mem_kept h)
        have hsingle : [new].eraseDups = [new] := by simp [List.eraseDups_cons]
        have hlength := congrArg List.length ih
        rw [List.length_take] at hlength
        rw [if_neg hold, hsingle]
        rcases Nat.lt_or_ge (kept limit rest).length limit with hroom | hfull
        · rw [grow_of_room hnew hroom, ih, List.take_of_length_le (by omega),
            List.take_of_length_le (by simp; omega)]
        · rw [grow_of_full hnew hfull, ih,
            List.take_append_of_le_length (by omega)]

/-!
## One entry
-/

variable {keyOf}

theorem replace?_eq_none_iff {merged : List entry} {new : entry} :
    replace? keyOf merged new = none <-> keyOf new ∉ merged.map keyOf := by
  induction merged with
  | nil => simp [replace?]
  | cons old rest ih =>
      unfold replace?
      by_cases hold : keyOf old = keyOf new
      · simp [hold]
      · simp only [if_neg hold, Option.map_eq_none_iff, ih, List.map_cons,
          List.mem_cons, not_or]
        exact ⟨fun h => ⟨fun heq => hold heq.symm, h⟩, fun h => h.2⟩

theorem replace?_some {merged merged' : List entry} {new : entry}
    (h : replace? keyOf merged new = some merged') :
    merged'.map keyOf = merged.map keyOf ∧
      ((merged.map keyOf).Nodup -> forall e, e ∈ merged' <->
        e = new ∨ (e ∈ merged ∧ keyOf e ≠ keyOf new)) := by
  induction merged generalizing merged' with
  | nil => cases h
  | cons old rest ih =>
      unfold replace? at h
      split at h
      · rename_i hold
        cases h
        constructor
        · simp [hold]
        intro hnodup e
        rw [List.map_cons, List.nodup_cons] at hnodup
        have hrest : e ∈ rest -> keyOf e ≠ keyOf new := fun he heq =>
          hnodup.1 (hold ▸ heq ▸ List.mem_map_of_mem he)
        simp only [List.mem_cons]
        constructor
        · intro hcase
          rcases hcase with rfl | he
          · exact Or.inl rfl
          · exact Or.inr ⟨Or.inr he, hrest he⟩
        · intro hcase
          rcases hcase with rfl | ⟨rfl | he, hne⟩
          · exact Or.inl rfl
          · exact absurd hold hne
          · exact Or.inr he
      · rename_i hold
        rcases Option.map_eq_some_iff.mp h with ⟨tail, htail, rfl⟩
        rcases ih htail with ⟨hkeys, hmem⟩
        constructor
        · simp [hkeys]
        intro hnodup e
        rw [List.map_cons, List.nodup_cons] at hnodup
        simp only [List.mem_cons, hmem hnodup.2]
        constructor
        · intro hcase
          rcases hcase with rfl | rfl | ⟨he, hne⟩
          · exact Or.inr ⟨Or.inl rfl, hold⟩
          · exact Or.inl rfl
          · exact Or.inr ⟨Or.inr he, hne⟩
        · intro hcase
          rcases hcase with rfl | ⟨rfl | he, hne⟩
          · exact Or.inr (Or.inl rfl)
          · exact Or.inl rfl
          · exact Or.inr (Or.inr ⟨he, hne⟩)

theorem put_cases (keyOf : entry -> key) (limit : Nat)
    (state : List entry × Nat) (new : entry) :
    (keyOf new ∈ state.1.map keyOf ∧ exists merged,
      replace? keyOf state.1 new = some merged ∧
        put keyOf limit state new = (merged, state.2)) ∨
      (keyOf new ∉ state.1.map keyOf ∧ limit ≤ state.1.length ∧
        put keyOf limit state new = (state.1, state.2 + 1)) ∨
      (keyOf new ∉ state.1.map keyOf ∧ state.1.length < limit ∧
        put keyOf limit state new = (state.1 ++ [new], state.2)) := by
  cases hreplace : replace? keyOf state.1 new with
  | some merged =>
      refine Or.inl ⟨?_, merged, rfl, by simp [put, hreplace]⟩
      by_contra hnew
      rw [replace?_eq_none_iff.mpr hnew] at hreplace
      cases hreplace
  | none =>
      have hnew := replace?_eq_none_iff.mp hreplace
      rcases Nat.lt_or_ge state.1.length limit with hroom | hfull
      · exact Or.inr (Or.inr ⟨hnew, hroom, by simp [put, hreplace, hroom]⟩)
      · exact Or.inr (Or.inl ⟨hnew, hfull, by simp [put, hreplace, hfull]⟩)

/-!
## All entries
-/

theorem merge_concat (items : List entry) (new : entry) :
    merge keyOf limit (items ++ [new]) =
      put keyOf limit (merge keyOf limit items) new :=
  List.foldl_concat ..

theorem lastWith_concat (k : key) (items : List entry) (new : entry) :
    lastWith keyOf k (items ++ [new]) =
      if keyOf new = k then some new else lastWith keyOf k items := by
  unfold lastWith
  rw [List.reverse_append, List.reverse_singleton, List.singleton_append,
    List.find?_cons]
  by_cases hnew : keyOf new = k <;> simp [hnew]

theorem lastWith_some {k : key} {items : List entry} {e : entry}
    (h : lastWith keyOf k items = some e) :
    e ∈ items ∧ keyOf e = k := by
  have hmem := List.mem_of_find?_eq_some h
  have hkey := List.find?_some h
  exact ⟨List.mem_reverse.mp hmem, by simpa using hkey⟩

theorem exists_lastWith {k : key} {items : List entry}
    (hk : k ∈ items.map keyOf) :
    exists e, lastWith keyOf k items = some e := by
  rcases List.mem_map.mp hk with ⟨e, he, hkey⟩
  rw [← Option.isSome_iff_exists, lastWith, List.find?_isSome]
  exact ⟨e, List.mem_reverse.mpr he, by simpa using hkey⟩

theorem lastWith_append (k : key) (first second : List entry) :
    lastWith keyOf k (first ++ second) =
      (lastWith keyOf k second).or (lastWith keyOf k first) := by
  unfold lastWith
  rw [List.reverse_append, List.find?_append]

theorem lastWith_cons (k : key) (first : entry) (rest : List entry) :
    lastWith keyOf k (first :: rest) =
      (lastWith keyOf k rest).or
        (if keyOf first = k then some first else none) := by
  rw [← List.singleton_append, lastWith_append]
  by_cases hkey : keyOf first = k <;> simp [lastWith, hkey]

theorem lastWith_eq_none {k : key} {items : List entry}
    (hk : k ∉ items.map keyOf) :
    lastWith keyOf k items = none := by
  rw [lastWith, List.find?_eq_none]
  intro item hitem hkey
  have heq : keyOf item = k := by simpa using hkey
  exact hk (heq ▸ List.mem_map_of_mem (List.mem_reverse.mp hitem))

theorem lastWith_of_mem_unshadowed {items : List entry} {e : entry}
    (h : e ∈ unshadowed keyOf items) :
    lastWith keyOf (keyOf e) items = some e := by
  induction items with
  | nil => cases h
  | cons first rest ih =>
      rw [lastWith_cons]
      unfold unshadowed at h
      split at h
      · rw [ih h, Option.some_or]
      · rename_i hlast
        rcases List.mem_cons.mp h with rfl | hrest
        · rw [lastWith_eq_none hlast, if_pos rfl, Option.none_or]
        · rw [ih hrest, Option.some_or]

theorem merge_keys (keyOf : entry -> key) (limit : Nat) (items : List entry) :
    (merge keyOf limit items).1.map keyOf = kept limit (items.map keyOf) := by
  induction items using List.reverseRecOn with
  | nil => rfl
  | append_singleton rest new ih =>
      rw [merge_concat, List.map_append, List.map_singleton, kept_concat, ← ih]
      rcases put_cases keyOf limit (merge keyOf limit rest) new with
        ⟨hnew, merged, hreplace, hput⟩ | ⟨hnew, hfull, hput⟩ |
          ⟨hnew, hroom, hput⟩ <;> rw [hput]
      · rw [grow_of_mem hnew]
        exact (replace?_some hreplace).1
      · rw [grow_of_full hnew (by rwa [List.length_map])]
      · rw [grow_of_room hnew (by rwa [List.length_map]), List.map_append,
          List.map_singleton]

theorem mem_merge_iff {items : List entry} {e : entry} :
    e ∈ (merge keyOf limit items).1 <->
      keyOf e ∈ kept limit (items.map keyOf) ∧
        lastWith keyOf (keyOf e) items = some e := by
  induction items using List.reverseRecOn with
  | nil => simp [merge]
  | append_singleton rest new ih =>
      have hkeys := merge_keys keyOf limit rest
      have hnodup : ((merge keyOf limit rest).1.map keyOf).Nodup := by
        rw [hkeys]
        exact nodup_kept limit _
      rw [merge_concat, List.map_append, List.map_singleton, kept_concat,
        lastWith_concat]
      rcases put_cases keyOf limit (merge keyOf limit rest) new with
        ⟨hnew, merged, hreplace, hput⟩ | ⟨hnew, hfull, hput⟩ |
          ⟨hnew, hroom, hput⟩ <;> rw [hput] <;> rw [hkeys] at hnew
      · rw [grow_of_mem hnew, (replace?_some hreplace).2 hnodup, ih]
        by_cases he : keyOf new = keyOf e
        · rw [if_pos he]
          constructor
          · intro hcase
            rcases hcase with rfl | ⟨_, hne⟩
            · exact ⟨hnew, rfl⟩
            · exact absurd he.symm hne
          · intro hcase
            rcases hcase with ⟨_, hlast⟩
            exact Or.inl (Option.some.inj hlast).symm
        · rw [if_neg he]
          constructor
          · intro hcase
            rcases hcase with rfl | ⟨hold, _⟩
            · exact absurd rfl he
            · exact hold
          · exact fun hold => Or.inr ⟨hold, fun heq => he heq.symm⟩
      · have hlength : limit ≤ (kept limit (rest.map keyOf)).length := by
          rwa [← hkeys, List.length_map]
        rw [grow_of_full hnew hlength, ih]
        by_cases he : keyOf new = keyOf e
        · rw [he] at hnew
          exact ⟨fun h => absurd h.1 hnew, fun h => absurd h.1 hnew⟩
        · rw [if_neg he]
      · have hlength : (kept limit (rest.map keyOf)).length < limit := by
          rwa [← hkeys, List.length_map]
        rw [grow_of_room hnew hlength, List.mem_append, List.mem_append,
          List.mem_singleton, List.mem_singleton, ih]
        by_cases he : keyOf new = keyOf e
        · rw [if_pos he]
          constructor
          · intro hcase
            rcases hcase with hold | rfl
            · rw [he] at hnew
              exact absurd hold.1 hnew
            · exact ⟨Or.inr rfl, rfl⟩
          · intro hcase
            rcases hcase with ⟨_, hlast⟩
            exact Or.inr (Option.some.inj hlast).symm
        · rw [if_neg he]
          constructor
          · intro hcase
            rcases hcase with hold | rfl
            · exact ⟨Or.inl hold.1, hold.2⟩
            · exact absurd rfl he
          · intro hcase
            rcases hcase with ⟨hkept | heq, hlast⟩
            · exact Or.inl ⟨hkept, hlast⟩
            · exact absurd heq.symm he

theorem merge_length_le (items : List entry) :
    (merge keyOf limit items).1.length ≤ limit := by
  rw [← List.length_map keyOf, merge_keys]
  exact kept_length_le _

theorem merge_dropped (items : List entry) :
    (merge keyOf limit items).2 =
      countOutside keyOf (kept limit (items.map keyOf)) items := by
  unfold countOutside
  induction items using List.reverseRecOn with
  | nil => rfl
  | append_singleton rest new ih =>
      have hkeys := merge_keys keyOf limit rest
      rw [merge_concat, List.map_append, List.map_singleton, kept_concat,
        List.countP_append, List.countP_singleton]
      rcases put_cases keyOf limit (merge keyOf limit rest) new with
        ⟨hnew, merged, hreplace, hput⟩ | ⟨hnew, hfull, hput⟩ |
          ⟨hnew, hroom, hput⟩ <;> rw [hput] <;> rw [hkeys] at hnew
      · rw [grow_of_mem hnew, ih]
        simp [hnew]
      · have hlength : limit ≤ (kept limit (rest.map keyOf)).length := by
          rwa [← hkeys, List.length_map]
        rw [grow_of_full hnew hlength, ih]
        simp [hnew]
      · have hlength : (kept limit (rest.map keyOf)).length < limit := by
          rwa [← hkeys, List.length_map]
        -- There is still room, so nothing has been dropped so far.
        have hall : forall item, item ∈ rest ->
            keyOf item ∈ kept limit (rest.map keyOf) := fun item hitem =>
          mem_kept_of_room (List.mem_map_of_mem hitem) hlength
        rw [grow_of_room hnew hlength, ih, List.countP_eq_zero.mpr,
          List.countP_eq_zero.mpr]
        · simp
        · intro item hitem
          simp [hall item hitem]
        · intro item hitem
          simp [hall item hitem]

structure LastOfEach (keyOf : entry -> key) (items merged : List entry) :
    Prop where
  distinct : (merged.map keyOf).Nodup
  mem_iff : forall e, e ∈ merged <-> lastWith keyOf (keyOf e) items = some e

theorem merge_of_card_le {items : List entry}
    (hcard : (items.map keyOf).toFinset.card ≤ limit) :
    LastOfEach keyOf items (merge keyOf limit items).1 ∧
      (merge keyOf limit items).2 = 0 := by
  refine ⟨⟨?_, fun e => ?_⟩, ?_⟩
  · rw [merge_keys]
    exact nodup_kept limit _
  · rw [mem_merge_iff, and_iff_right_iff_imp]
    intro hlast
    exact mem_kept_of_card_le hcard
      (List.mem_map_of_mem (lastWith_some hlast).1)
  · rw [merge_dropped, countOutside, List.countP_eq_zero]
    intro item hitem
    simpa using mem_kept_of_card_le hcard (List.mem_map_of_mem hitem)

/-!
## Tagged entries

Merging looks at keys only, so entries can carry tags through it.  With tags one
can say which entries overwrite which.
-/

theorem replace?_map {tagged : Type} (f : tagged -> entry)
    (merged : List tagged) (new : tagged) :
    replace? keyOf (merged.map f) (f new) =
      (replace? (fun e => keyOf (f e)) merged new).map (List.map f) := by
  induction merged with
  | nil => rfl
  | cons old rest ih =>
      simp only [List.map_cons, replace?]
      split
      · rfl
      · rw [ih, Option.map_map, Option.map_map]
        rfl

theorem put_map {tagged : Type} (f : tagged -> entry)
    (state : List tagged × Nat) (new : tagged) :
    put keyOf limit (state.1.map f, state.2) (f new) =
      ((put (fun e => keyOf (f e)) limit state new).1.map f,
        (put (fun e => keyOf (f e)) limit state new).2) := by
  unfold put
  rw [replace?_map]
  cases replace? (fun e => keyOf (f e)) state.1 new with
  | some merged => rfl
  | none =>
      simp only [Option.map_none, List.length_map]
      split <;> simp

theorem merge_map {tagged : Type} (f : tagged -> entry)
    (items : List tagged) :
    merge keyOf limit (items.map f) =
      ((merge (fun e => keyOf (f e)) limit items).1.map f,
        (merge (fun e => keyOf (f e)) limit items).2) := by
  induction items using List.reverseRecOn with
  | nil => rfl
  | append_singleton rest new ih =>
      rw [List.map_append, List.map_singleton, merge_concat, ih, put_map,
        merge_concat]

/-- Along the merge, entries overwrite only entries with their own tag. -/
def OverwritesOwn {label : Type} (keyOf : entry -> key) (limit : Nat)
    (tag : entry -> label) : List entry × Nat -> List entry -> Prop
  | _, [] => True
  | state, new :: rest =>
      (forall old, old ∈ state.1 -> keyOf old = keyOf new ->
        tag old = tag new) ∧
        OverwritesOwn keyOf limit tag (put keyOf limit state new) rest

theorem overwritesOwn_concat {label : Type} {tag : entry -> label}
    {state : List entry × Nat} {items : List entry} {new : entry} :
    OverwritesOwn keyOf limit tag state (items ++ [new]) <->
      OverwritesOwn keyOf limit tag state items ∧
        forall old, old ∈ (items.foldl (put keyOf limit) state).1 ->
          keyOf old = keyOf new -> tag old = tag new := by
  induction items generalizing state with
  | nil => simp [OverwritesOwn]
  | cons first rest ih =>
      simp only [List.cons_append, OverwritesOwn, List.foldl_cons, ih,
        and_assoc]

theorem overwritesOwn_iff {label : Type} {tag : entry -> label}
    {items : List entry} :
    OverwritesOwn keyOf limit tag ([], 0) items <->
      forall first, first ∈ items -> forall second, second ∈ items ->
        keyOf first = keyOf second ->
          keyOf first ∈ kept limit (items.map keyOf) ->
            tag first = tag second := by
  induction items using List.reverseRecOn with
  | nil => simp [OverwritesOwn]
  | append_singleton rest new ih =>
      have hmerged : rest.foldl (put keyOf limit) ([], 0) =
          merge keyOf limit rest := rfl
      rw [overwritesOwn_concat, ih, hmerged, List.map_append,
        List.map_singleton, kept_concat]
      constructor
      · intro hcase
        rcases hcase with ⟨hrest, hnew⟩
        -- A kept key of `new` that occurred before is met in the merged list.
        have hlast : forall old, old ∈ rest -> keyOf old = keyOf new ->
            keyOf old ∈ grow limit (kept limit (rest.map keyOf)) (keyOf new) ->
            tag old = tag new := by
          intro old hold heq hkept
          have hin : keyOf old ∈ rest.map keyOf := List.mem_map_of_mem hold
          have hbefore := mem_kept_of_mem_grow hin hkept
          rcases exists_lastWith hin with ⟨e, he⟩
          rcases lastWith_some he with ⟨hmem, hkey⟩
          have hmerge : e ∈ (merge keyOf limit rest).1 := by
            rw [mem_merge_iff, hkey]
            exact ⟨hbefore, he⟩
          rw [hrest old hold e hmem hkey.symm hbefore]
          exact hnew e hmerge (hkey.trans heq)
        intro first hfirst second hsecond heq hkept
        rw [List.mem_append, List.mem_singleton] at hfirst hsecond
        rcases hfirst with hfirst | rfl
        · rcases hsecond with hsecond | rfl
          · exact hrest first hfirst second hsecond heq
              (mem_kept_of_mem_grow (List.mem_map_of_mem hfirst) hkept)
          · exact hlast first hfirst heq hkept
        · rcases hsecond with hsecond | rfl
          · exact (hlast second hsecond heq.symm (heq ▸ hkept)).symm
          · rfl
      · intro h
        constructor
        · intro first hfirst second hsecond heq hkept
          exact h first (List.mem_append_left _ hfirst) second
            (List.mem_append_left _ hsecond) heq (mem_grow_of_mem hkept)
        · intro old hold heq
          rcases mem_merge_iff.mp hold with ⟨hkept, hlast⟩
          exact h old (List.mem_append_left _ (lastWith_some hlast).1) new
            (List.mem_append_right _ List.mem_cons_self) heq
            (mem_grow_of_mem hkept)

theorem card_tags_le {label : Type} [DecidableEq label] {tag : entry -> label}
    {items : List entry}
    (h : OverwritesOwn keyOf limit tag ([], 0) items) :
    (items.map tag).toFinset.card ≤
      (merge keyOf limit items).1.length + (merge keyOf limit items).2 := by
  let dropped := items.filter fun item =>
    keyOf item ∉ kept limit (items.map keyOf)
  have hcover : (items.map tag).toFinset ⊆
      ((merge keyOf limit items).1.map tag).toFinset ∪
        (dropped.map tag).toFinset := by
    intro t ht
    rcases List.mem_map.mp (List.mem_toFinset.mp ht) with ⟨item, hitem, rfl⟩
    rw [Finset.mem_union, List.mem_toFinset, List.mem_toFinset]
    by_cases hkept : keyOf item ∈ kept limit (items.map keyOf)
    · -- The merged list holds an entry with this key, hence with this tag.
      have hkeyin : keyOf item ∈ items.map keyOf := List.mem_map_of_mem hitem
      rcases exists_lastWith hkeyin with ⟨e, he⟩
      rcases lastWith_some he with ⟨hmem, hkey⟩
      have hmerged : e ∈ (merge keyOf limit items).1 := by
        rw [mem_merge_iff, hkey]
        exact ⟨hkept, he⟩
      rw [overwritesOwn_iff.mp h item hitem e hmem hkey.symm hkept]
      exact Or.inl (List.mem_map_of_mem hmerged)
    · refine Or.inr (List.mem_map_of_mem ?_)
      simpa [dropped] using ⟨hitem, hkept⟩
  have hcount : dropped.length = (merge keyOf limit items).2 := by
    rw [merge_dropped, countOutside, List.countP_eq_length_filter]
  have htags : forall l : List entry, (l.map tag).toFinset.card ≤ l.length := by
    intro l
    have hle := List.toFinset_card_le (l.map tag)
    rwa [List.length_map] at hle
  calc (items.map tag).toFinset.card
      ≤ ((merge keyOf limit items).1.map tag).toFinset.card +
          (dropped.map tag).toFinset.card :=
        Nat.le_trans (Finset.card_le_card hcover) (Finset.card_union_le _ _)
    _ ≤ (merge keyOf limit items).1.length + dropped.length :=
        Nat.add_le_add (htags _) (htags _)
    _ = (merge keyOf limit items).1.length + (merge keyOf limit items).2 := by
        rw [hcount]

end KeyedMerge

end Foundation
end NginLog
