import Mathlib.Algebra.Ring.Nat
import Mathlib.Data.List.Basic
import Mathlib.Data.List.Forall2
import Mathlib.Data.List.TakeWhile

/-!
# Logfmt

A line of pairs with spaces between them.  A value is quoted, with its text
escaped, or bare.  A key is not quoted, so what is read back depends on how its
bytes are escaped: a space splits the pair, and an equals sign ends the key.
-/

namespace NginLog
namespace Foundation
namespace Logfmt

/-!
## Splitting a line
-/

structure Mode where
  quoted : Bool := false
  escaped : Bool := false
deriving DecidableEq

namespace Mode

def next (m : Mode) (b : UInt8) : Mode :=
  if m.escaped then
    { m with escaped := false }
  else if b = 92 then
    { m with escaped := true }
  else if b = 34 then
    { m with quoted := !m.quoted }
  else
    m

def after (m : Mode) (t : List UInt8) : Mode :=
  t.foldl next m

def splits (m : Mode) (b : UInt8) : Bool :=
  b == 32 && !m.quoted && !m.escaped

theorem after_append (m : Mode) (s t : List UInt8) :
    m.after (s ++ t) = (m.after s).after t :=
  List.foldl_append

end Mode

def fields : Mode -> List UInt8 -> List (List UInt8)
  | _, [] => [[]]
  | m, b :: rest =>
      if m.splits b then
        [] :: fields (m.next b) rest
      else
        (fields (m.next b) rest).modifyHead (b :: ·)

def separators : Mode -> List UInt8 -> Nat
  | _, [] => 0
  | m, b :: rest => (if m.splits b then 1 else 0) + separators (m.next b) rest

theorem separators_append (m : Mode) (s t : List UInt8) :
    separators m (s ++ t) = separators m s + separators (m.after s) t := by
  induction s generalizing m with
  | nil => exact (Nat.zero_add _).symm
  | cons b rest ih =>
      rw [List.cons_append, separators, separators, ih, Nat.add_assoc]
      rfl

theorem fields_length (m : Mode) (t : List UInt8) :
    (fields m t).length = separators m t + 1 := by
  induction t generalizing m with
  | nil => rfl
  | cons b rest ih =>
      rw [fields, separators]
      split
      · rw [List.length_cons, ih, Nat.add_comm 1]
      · rw [List.length_modifyHead, ih, Nat.zero_add]

theorem fields_append {m : Mode} {s : List UInt8} (h : separators m s = 0)
    (t : List UInt8) :
    fields m (s ++ t) = (fields (m.after s) t).modifyHead (s ++ ·) := by
  induction s generalizing m with
  | nil =>
      show fields m t = (fields m t).modifyHead id
      rw [List.modifyHead_id]
      rfl
  | cons b rest ih =>
      rw [separators] at h
      have hsplits : m.splits b = false := by
        cases hb : m.splits b with
        | false => rfl
        | true =>
            rw [hb, if_pos rfl] at h
            omega
      rw [List.cons_append, fields, if_neg (by simp [hsplits]), ih (by omega),
        List.modifyHead_modifyHead]
      rfl

theorem fields_cons {s : List UInt8} (h : separators {} s = 0)
    (hafter : Mode.after {} s = {}) (t : List UInt8) :
    fields {} (s ++ 32 :: t) = s :: fields {} t := by
  rw [fields_append h, hafter]
  show (([] : List UInt8) :: fields {} t).modifyHead (s ++ ·) = _
  rw [List.modifyHead_cons, List.append_nil]

theorem fields_join {first : List UInt8} {rest : List (List UInt8)}
    (hwhole : forall s, s ∈ first :: rest -> separators {} s = 0)
    (hafter : forall s, s ∈ first :: rest -> Mode.after {} s = {}) :
    fields {} (first ++ rest.flatMap (32 :: ·)) = first :: rest := by
  induction rest generalizing first with
  | nil =>
      have hfirst := hwhole first List.mem_cons_self
      rw [List.flatMap_nil, fields_append hfirst,
        hafter first List.mem_cons_self]
      show [first ++ []] = _
      rw [List.append_nil]
  | cons second rest ih =>
      rw [List.flatMap_cons, List.cons_append,
        fields_cons (hwhole first List.mem_cons_self)
          (hafter first List.mem_cons_self),
        ih (fun s hs => hwhole s (List.mem_cons_of_mem _ hs))
          (fun s hs => hafter s (List.mem_cons_of_mem _ hs))]

theorem separators_join {first : List UInt8} {rest : List (List UInt8)}
    (hafter : forall s, s ∈ first :: rest -> Mode.after {} s = {}) :
    separators {} (first ++ rest.flatMap (32 :: ·)) =
      ((first :: rest).map (separators {})).sum + rest.length := by
  induction rest generalizing first with
  | nil => simp
  | cons second rest ih =>
      have htail := ih fun s hs => hafter s (List.mem_cons_of_mem _ hs)
      rw [List.flatMap_cons, List.cons_append, separators_append,
        hafter first List.mem_cons_self]
      show separators {} first + (1 + separators {} (second ++ _)) = _
      rw [htail]
      simp only [List.map_cons, List.sum_cons, List.length_cons]
      omega

/-!
## Escapes
-/

/-- A way to escape bytes, one at a time, that keeps spaces and equals signs. -/
structure Escaper where
  escape : UInt8 -> List UInt8
  unescape : List UInt8 -> Option (List UInt8)
  unescape_nil : unescape [] = some []
  unescape_escape : forall b rest,
    unescape (escape b ++ rest) = (unescape rest).map (b :: ·)
  after : forall (m : Mode) b, m.escaped = false -> m.after (escape b) = m
  separators : forall (m : Mode) b, m.escaped = false ->
    separators m (escape b) = if m.splits b then 1 else 0
  escape_equals : escape 61 = [61]
  equals_not_mem : forall b, b ≠ 61 -> 61 ∉ escape b

namespace Escaper

variable (e : Escaper)

def text (t : List UInt8) : List UInt8 :=
  t.flatMap e.escape

theorem text_cons (b : UInt8) (t : List UInt8) :
    e.text (b :: t) = e.escape b ++ e.text t :=
  List.flatMap_cons

theorem unescape_text (t : List UInt8) : e.unescape (e.text t) = some t := by
  induction t with
  | nil => exact e.unescape_nil
  | cons b rest ih =>
      rw [e.text_cons, e.unescape_escape, ih]
      rfl

theorem after_text {m : Mode} (hm : m.escaped = false) (t : List UInt8) :
    m.after (e.text t) = m := by
  induction t with
  | nil => rfl
  | cons b rest ih =>
      rw [e.text_cons, Mode.after_append, e.after m b hm, ih]

theorem separators_text {m : Mode} (hm : m.escaped = false)
    (t : List UInt8) :
    Logfmt.separators m (e.text t) = t.countP m.splits := by
  induction t with
  | nil => rfl
  | cons b rest ih =>
      rw [e.text_cons, separators_append, e.separators m b hm, e.after m b hm, ih,
        List.countP_cons, Nat.add_comm]

theorem takeWhile_text (key rest : List UInt8) :
    (e.text key ++ 61 :: rest).takeWhile (· != 61) =
      e.text (key.takeWhile (· != 61)) := by
  induction key with
  | nil => rfl
  | cons b others ih =>
      rw [e.text_cons, List.append_assoc]
      by_cases hb : b = 61
      · rw [hb, e.escape_equals]
        rfl
      · have hnone : forall b', b' ∈ e.escape b -> (b' != 61) = true := by
          intro b' hb'
          rw [bne_iff_ne]
          rintro rfl
          exact e.equals_not_mem b hb hb'
        rw [List.takeWhile_append_of_pos hnone, ih,
          List.takeWhile_cons_of_pos (by simpa using hb), e.text_cons]

theorem dropWhile_text {key : List UInt8} (hkey : 61 ∉ key)
    (rest : List UInt8) :
    (e.text key ++ 61 :: rest).dropWhile (· != 61) = 61 :: rest := by
  have hnone : forall b, b ∈ e.text key -> (b != 61) = true := by
    intro b hb
    rcases List.mem_flatMap.mp hb with ⟨b', hb', hescape⟩
    rw [bne_iff_ne]
    rintro rfl
    exact e.equals_not_mem b' (fun heq => hkey (heq ▸ hb')) hescape
  rw [List.dropWhile_append_of_pos hnone]
  rfl

end Escaper

/-!
## Values and pairs
-/

inductive Value where
  | quoted (text : List UInt8)
  | bare (text : List UInt8)
deriving DecidableEq

def Value.Plain : Value -> Prop
  | quoted _ => True
  | bare t => forall b, b ∈ t -> b ≠ 32 ∧ b ≠ 34 ∧ b ≠ 92

def Value.write (e : Escaper) : Value -> List UInt8
  | quoted t => 34 :: (e.text t ++ [34])
  | bare t => t

def readValue (e : Escaper) : List UInt8 -> Option Value
  | [] => some (Value.bare [])
  | b :: body =>
      if b = 34 then
        if body.getLast? = some 34 then
          (e.unescape body.dropLast).map Value.quoted
        else
          none
      else
        some (Value.bare (b :: body))

def writePair (e : Escaper) (pair : List UInt8 × Value) : List UInt8 :=
  e.text pair.1 ++ 61 :: pair.2.write e

def readPair (e : Escaper) (t : List UInt8) : Option (List UInt8 × Value) :=
  match t.dropWhile (· != 61) with
  | [] => none
  | _ :: value =>
      (e.unescape (t.takeWhile (· != 61))).bind fun key =>
        (readValue e value).map fun value => (key, value)

def readPairs (e : Escaper) :
    List (List UInt8) -> Option (List (List UInt8 × Value))
  | [] => some []
  | t :: rest =>
      (readPair e t).bind fun pair =>
        (readPairs e rest).map fun pairs => pair :: pairs

def write (e : Escaper) : List (List UInt8 × Value) -> List UInt8
  | [] => []
  | first :: rest =>
      writePair e first ++ rest.flatMap fun pair => 32 :: writePair e pair

def read (e : Escaper) (t : List UInt8) :
    Option (List (List UInt8 × Value)) :=
  readPairs e (fields {} t)

section

variable {e : Escaper} {pair : List UInt8 × Value}

theorem readValue_write {value : Value} (h : value.Plain) :
    readValue e (value.write e) = some value := by
  cases value with
  | quoted t =>
      simp only [Value.write, readValue, if_true, List.getLast?_concat,
        List.dropLast_concat, e.unescape_text]
      rfl
  | bare t =>
      cases t with
      | nil => rfl
      | cons b rest => exact if_neg (h b List.mem_cons_self).2.1

theorem separators_bare {m : Mode} (hm : m.escaped = false) {t : List UInt8}
    (h : (Value.bare t).Plain) :
    separators m t = 0 ∧ m.after t = m := by
  induction t with
  | nil => exact ⟨rfl, rfl⟩
  | cons b rest ih =>
      rcases h b List.mem_cons_self with ⟨hspace, hquote, hslash⟩
      rcases ih fun b' hb' => h b' (List.mem_cons_of_mem _ hb') with
        ⟨hnone, hafter⟩
      have hnext : m.next b = m := by
        simp [Mode.next, hm, hquote, hslash]
      have hsplits : m.splits b = false := by
        simp [Mode.splits, hspace]
      constructor
      · rw [separators, hsplits, hnext, hnone]
        rfl
      · show (m.next b).after rest = _
        rw [hnext, hafter]

theorem separators_value {value : Value} (h : value.Plain) :
    separators {} (value.write e) = 0 ∧ Mode.after {} (value.write e) = {} := by
  cases value with
  | bare t => exact separators_bare rfl h
  | quoted t =>
      have hquoted : Mode.next {} 34 = { quoted := true } := rfl
      have hnone : t.countP (Mode.splits { quoted := true }) = 0 := by
        rw [List.countP_eq_zero]
        simp [Mode.splits]
      constructor
      · show 0 + separators { quoted := true } (e.text t ++ [34]) = 0
        rw [separators_append, e.separators_text rfl, hnone, e.after_text rfl]
        rfl
      · show Mode.after { quoted := true } (e.text t ++ [34]) = _
        rw [Mode.after_append, e.after_text rfl]
        rfl

theorem separators_writePair (h : pair.2.Plain) :
    separators {} (writePair e pair) = pair.1.countP (Mode.splits {}) ∧
      Mode.after {} (writePair e pair) = {} := by
  rcases separators_value h with ⟨hnone, hafter⟩
  unfold writePair
  constructor
  · rw [separators_append, e.separators_text rfl, e.after_text rfl]
    show _ + (0 + separators {} (pair.2.write e)) = _
    rw [hnone]
    rfl
  · rw [Mode.after_append, e.after_text rfl]
    exact hafter

theorem readPair_writePair (h : pair.2.Plain) (hkey : 61 ∉ pair.1) :
    readPair e (writePair e pair) = some pair := by
  have htake : pair.1.takeWhile (· != 61) = pair.1 := by
    rw [List.takeWhile_eq_self_iff]
    intro b hb
    rw [bne_iff_ne]
    rintro rfl
    exact hkey hb
  unfold readPair writePair
  rw [e.dropWhile_text hkey, e.takeWhile_text, htake]
  dsimp only
  rw [e.unescape_text, readValue_write h]
  rfl

theorem key_of_readPair {read : List UInt8 × Value}
    (h : readPair e (writePair e pair) = some read) :
    read.1 = pair.1.takeWhile (· != 61) := by
  unfold readPair at h
  split at h
  · cases h
  · rcases Option.bind_eq_some_iff.mp h with ⟨key, hkey, hvalue⟩
    rcases Option.map_eq_some_iff.mp hvalue with ⟨value, _, rfl⟩
    unfold writePair at hkey
    rw [e.takeWhile_text, e.unescape_text, Option.some.injEq] at hkey
    exact hkey.symm

theorem readPairs_eq_some_iff {texts : List (List UInt8)}
    {pairs : List (List UInt8 × Value)} :
    readPairs e texts = some pairs <->
      List.Forall₂ (fun t pair => readPair e t = some pair) texts pairs := by
  induction texts generalizing pairs with
  | nil => simp [readPairs, eq_comm]
  | cons t rest ih =>
      rw [readPairs, List.forall₂_cons_left_iff]
      constructor
      · intro h
        rcases Option.bind_eq_some_iff.mp h with ⟨first, hfirst, hrest⟩
        rcases Option.map_eq_some_iff.mp hrest with ⟨others, hothers, rfl⟩
        exact ⟨first, others, hfirst, ih.mp hothers, rfl⟩
      · rintro ⟨first, others, hfirst, hothers, rfl⟩
        rw [hfirst, Option.bind_some, ih.mpr hothers]
        rfl

end

/-!
## Reading a line back
-/

/-- A key that is written without quotes and read back. -/
def SafeKey (key : List UInt8) : Prop :=
  32 ∉ key ∧ 61 ∉ key

theorem countP_splits_eq_zero_iff (key : List UInt8) :
    key.countP (Mode.splits {}) = 0 <-> 32 ∉ key := by
  rw [List.countP_eq_zero]
  constructor
  · intro h hmem
    exact h 32 hmem rfl
  · rintro h b hb hsplits
    have hspace : b = 32 := by simpa [Mode.splits] using hsplits
    exact h (hspace ▸ hb)

section

variable (e : Escaper) {first : List UInt8 × Value}
  {rest : List (List UInt8 × Value)}
  (hplain : forall pair, pair ∈ first :: rest -> pair.2.Plain)

include hplain

theorem write_cons_after :
    forall t, t ∈ writePair e first :: rest.map (writePair e) ->
      Mode.after {} t = {} := by
  intro t ht
  rcases List.mem_map.mp (List.map_cons ▸ ht :
    t ∈ (first :: rest).map (writePair e)) with ⟨pair, hpair, rfl⟩
  exact (separators_writePair (hplain pair hpair)).2

theorem fields_write (hkeys : forall pair, pair ∈ first :: rest ->
    32 ∉ pair.1) :
    fields {} (write e (first :: rest)) =
      (first :: rest).map (writePair e) := by
  rw [write, List.map_cons, ← List.flatMap_map]
  refine fields_join ?_ (write_cons_after e hplain)
  intro t ht
  rcases List.mem_map.mp (List.map_cons ▸ ht :
    t ∈ (first :: rest).map (writePair e)) with ⟨pair, hpair, rfl⟩
  rw [(separators_writePair (hplain pair hpair)).1]
  exact (countP_splits_eq_zero_iff _).mpr (hkeys pair hpair)

theorem read_write (hkeys : forall pair, pair ∈ first :: rest ->
    SafeKey pair.1) :
    read e (write e (first :: rest)) = some (first :: rest) := by
  rw [read, fields_write e hplain fun pair hpair => (hkeys pair hpair).1,
    readPairs_eq_some_iff, List.forall₂_map_left_iff, List.forall₂_same]
  intro pair hpair
  exact readPair_writePair (hplain pair hpair) (hkeys pair hpair).2

theorem safeKey_of_read {pairs : List (List UInt8 × Value)}
    (hread : read e (write e (first :: rest)) = some pairs)
    (hkeys : pairs.map Prod.fst = (first :: rest).map Prod.fst) :
    forall pair, pair ∈ first :: rest -> SafeKey pair.1 := by
  have hlength := congrArg List.length hkeys
  rw [List.length_map, List.length_map] at hlength
  have hpairs := readPairs_eq_some_iff.mp hread
  -- A space in a key would make one more field than there are pairs.
  have hspaces : forall pair, pair ∈ first :: rest -> 32 ∉ pair.1 := by
    have hcount := hpairs.length_eq
    rw [fields_length, write, ← List.flatMap_map,
      separators_join (write_cons_after e hplain), hlength, List.length_map,
      List.length_cons, ← List.map_cons] at hcount
    have hzero : (((first :: rest).map (writePair e)).map
        (separators {})).sum = 0 := by omega
    intro pair hpair
    rw [List.sum_eq_zero_iff_forall_eq_nat] at hzero
    have hpairZero := hzero _
      (List.mem_map_of_mem (List.mem_map_of_mem hpair))
    rw [(separators_writePair (hplain pair hpair)).1] at hpairZero
    exact (countP_splits_eq_zero_iff _).mp hpairZero
  rw [fields_write e hplain hspaces, List.forall₂_map_left_iff] at hpairs
  -- An equals sign in a key would cut it.
  have hcut : List.Forall₂ (fun pair key => key =
      pair.1.takeWhile (· != 61)) (first :: rest) (pairs.map Prod.fst) := by
    rw [List.forall₂_map_right_iff]
    exact hpairs.imp fun _ _ => key_of_readPair
  rw [hkeys, List.forall₂_map_right_iff, List.forall₂_same] at hcut
  intro pair hpair
  refine ⟨hspaces pair hpair, fun hmem => ?_⟩
  have hself := List.takeWhile_eq_self_iff.mp (hcut pair hpair).symm 61 hmem
  exact absurd hself (by decide)

end

end Logfmt
end Foundation
end NginLog
