import Mathlib.Algebra.Group.Nat.Even
import Mathlib.Algebra.Ring.Parity
import Mathlib.Data.List.DropRight

/-!
# Quoted texts

A reader of a quoted text stops at the first quote that no backslash escapes:
the number of backslashes directly before it is even.  A text may stand between
quotes if all its own quotes are escaped and it does not end in an escape.
-/

namespace NginLog
namespace Foundation
namespace Quoting

/-!
## Runs of backslashes
-/

def slashRun (t : List UInt8) : Nat :=
  (t.rtakeWhile (· == 92)).length

def nextEscaping (escaping : Bool) (b : UInt8) : Bool :=
  !escaping && b == 92

def escapingAfter (escaping : Bool) (t : List UInt8) : Bool :=
  t.foldl nextEscaping escaping

theorem escapingAfter_append (escaping : Bool) (s t : List UInt8) :
    escapingAfter escaping (s ++ t) =
      escapingAfter (escapingAfter escaping s) t :=
  List.foldl_append

theorem slashRun_concat (t : List UInt8) (b : UInt8) :
    slashRun (t ++ [b]) = if b = 92 then slashRun t + 1 else 0 := by
  unfold slashRun
  rw [List.rtakeWhile_concat]
  split
  · rename_i hslash
    rw [if_pos (by simpa using hslash), List.length_append]
    rfl
  · rename_i hslash
    rw [if_neg (by simpa using hslash)]
    rfl

theorem escapingAfter_iff (t : List UInt8) :
    escapingAfter false t = true <-> Odd (slashRun t) := by
  induction t using List.reverseRecOn with
  | nil => decide
  | append_singleton t b ih =>
      have hstep : escapingAfter false (t ++ [b]) =
          (!escapingAfter false t && b == 92) :=
        escapingAfter_append false t [b]
      rw [slashRun_concat, hstep]
      split
      · rename_i hslash
        rw [Nat.odd_add_one, ← ih]
        simp [hslash]
      · rename_i hslash
        simp [hslash]

theorem escapingAfter_eq_false_iff (t : List UInt8) :
    escapingAfter false t = false <-> Even (slashRun t) := by
  rw [← Nat.not_odd_iff_even, ← escapingAfter_iff, Bool.not_eq_true]

/-!
## What may stand between quotes
-/

/--
Every quote of the text comes after an odd number of backslashes, and a quote
after the text would come after an even number.
-/
structure Contents (t : List UInt8) : Prop where
  closed : Even (slashRun t)
  quotes : forall before after, t = before ++ 34 :: after ->
    Odd (slashRun before)

namespace Contents

theorem plain {t : List UInt8} (hslash : 92 ∉ t) (hquote : 34 ∉ t) :
    Contents t := by
  constructor
  · have hrun : t.rtakeWhile (· == 92) = [] := by
      rw [List.rtakeWhile_eq_nil_iff]
      intro hne hlast
      rw [beq_iff_eq] at hlast
      exact hslash (hlast ▸ List.getLast_mem hne)
    rw [slashRun, hrun]
    exact Even.zero
  · intro before after heq
    exact absurd (heq ▸ by simp) hquote

theorem escape (b : UInt8) : Contents [92, b] := by
  constructor
  · rw [← escapingAfter_eq_false_iff]
    rfl
  · intro before after heq
    match before with
    | [] => exact absurd (List.cons.inj heq).1 (by decide)
    | [c] =>
        rw [← (List.cons.inj heq).1]
        decide
    | _ :: _ :: rest =>
        have hlength := congrArg List.length heq
        simp at hlength

theorem append {s t : List UInt8} (hs : Contents s) (ht : Contents t) :
    Contents (s ++ t) := by
  -- After the first text nothing is escaped, so the second begins anew.
  have hbetween : forall u, escapingAfter false (s ++ u) =
      escapingAfter false u := by
    intro u
    rw [escapingAfter_append, (escapingAfter_eq_false_iff s).mpr hs.closed]
  constructor
  · rw [← escapingAfter_eq_false_iff, hbetween, escapingAfter_eq_false_iff]
    exact ht.closed
  · intro before after heq
    rcases List.append_eq_append_iff.mp heq with
      ⟨middle, hbefore, hsecond⟩ | ⟨middle, hfirst, hrest⟩
    · rw [hbefore, ← escapingAfter_iff, hbetween, escapingAfter_iff]
      exact ht.quotes middle after hsecond
    · cases middle with
      | nil =>
          have hodd := ht.quotes [] after hrest.symm
          exact absurd hodd (by decide)
      | cons b middle =>
          rw [List.cons_append, List.cons.injEq] at hrest
          rw [← hrest.1] at hfirst
          exact hs.quotes before middle hfirst

theorem flatMap {escape : UInt8 -> List UInt8}
    (h : forall b, Contents (escape b)) (t : List UInt8) :
    Contents (t.flatMap escape) := by
  induction t with
  | nil => exact plain (List.not_mem_nil) (List.not_mem_nil)
  | cons b rest ih =>
      rw [List.flatMap_cons]
      exact (h b).append ih

end Contents

/-!
## The reader
-/

def readContents :
    Bool -> List UInt8 -> Option (List UInt8 × List UInt8)
  | _, [] => none
  | escaping, b :: rest =>
      if !escaping && b == 34 then
        some ([], rest)
      else
        (readContents (nextEscaping escaping b) rest).map
          (Prod.map (b :: ·) id)

def readQuoted : List UInt8 -> Option (List UInt8 × List UInt8)
  | [] => none
  | b :: rest => if b = 34 then readContents false rest else none

theorem readContents_of_quotes {escaping : Bool} {t : List UInt8}
    (hclosed : escapingAfter escaping t = false)
    (hquotes : forall before after, t = before ++ 34 :: after ->
      escapingAfter escaping before = true) (rest : List UInt8) :
    readContents escaping (t ++ 34 :: rest) = some (t, rest) := by
  induction t generalizing escaping with
  | nil =>
      have hplain : escaping = false := hclosed
      rw [hplain]
      rfl
  | cons b t ih =>
      have hgoes : (!escaping && b == 34) = false := by
        rw [Bool.and_eq_false_iff, Bool.not_eq_false', beq_eq_false_iff_ne]
        by_cases hquote : b = 34
        · exact Or.inl (hquotes [] t (by rw [hquote, List.nil_append]))
        · exact Or.inr hquote
      have hrest := @ih (nextEscaping escaping b) hclosed
        fun before after heq => hquotes (b :: before) after (by
          rw [heq, List.cons_append])
      rw [List.cons_append, readContents, hgoes, hrest]
      rfl

theorem readQuoted_of_contents {t : List UInt8} (h : Contents t)
    (rest : List UInt8) :
    readQuoted (34 :: (t ++ 34 :: rest)) = some (t, rest) := by
  rw [readQuoted, if_pos rfl]
  apply readContents_of_quotes
  · exact (escapingAfter_eq_false_iff t).mpr h.closed
  · intro before after heq
    exact (escapingAfter_iff before).mpr (h.quotes before after heq)

end Quoting
end Foundation
end NginLog
