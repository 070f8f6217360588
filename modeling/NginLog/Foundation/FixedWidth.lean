import NginLog.Foundation.Json

/-!
# Texts of fixed-width fields

Digits of one length sort as the numbers they stand for, and a text that is
made of fields of fixed widths sorts by its first field that differs.
-/

namespace NginLog
namespace Foundation

open Json

/-!
## The lexicographic order
-/

theorem append_lt_append_of_lt [LT α] {p q : List α}
    (hlength : p.length = q.length) (h : p < q) (s t : List α) :
    p ++ s < q ++ t := by
  induction p generalizing q with
  | nil =>
      cases q with
      | nil => exact absurd h (List.not_lt_nil [])
      | cons b q => exact absurd hlength (by simp)
  | cons a p ih =>
      cases q with
      | nil => exact absurd h (List.not_lt_nil _)
      | cons b q =>
          rw [List.length_cons, List.length_cons, Nat.add_right_cancel_iff]
            at hlength
          rw [List.cons_append, List.cons_append, List.cons_lt_cons_iff]
          rcases List.cons_lt_cons_iff.mp h with hhead | ⟨hhead, htail⟩
          · exact Or.inl hhead
          · exact Or.inr ⟨hhead, ih hlength htail⟩

/-!
## Digits of one length
-/

theorem readDecimal_append (s t : List UInt8) :
    readDecimal (s ++ t) = readDecimal s * 10 ^ t.length + readDecimal t := by
  induction t using List.reverseRecOn with
  | nil =>
      simp [readDecimal]
  | append_singleton t b ih =>
      have hlast : forall u : List UInt8, readDecimal (u ++ [b]) =
          10 * readDecimal u + (b.toNat - 48) := by
        intro u
        rw [readDecimal, List.foldl_append]
        rfl
      rw [← List.append_assoc, hlast, hlast, ih, List.length_append,
        List.length_singleton, Nat.pow_succ]
      ring

theorem readDecimal_singleton (b : UInt8) :
    readDecimal [b] = b.toNat - 48 := by
  simp [readDecimal]

theorem readDecimal_cons (b : UInt8) (t : List UInt8) :
    readDecimal (b :: t) = (b.toNat - 48) * 10 ^ t.length + readDecimal t := by
  rw [← readDecimal_singleton, ← readDecimal_append, List.singleton_append]

theorem IsDigit.toNat_bounds {b : UInt8} (h : IsDigit b) :
    48 ≤ b.toNat ∧ b.toNat ≤ 57 :=
  h

theorem readDecimal_lt_pow {t : List UInt8}
    (h : forall b, b ∈ t -> IsDigit b) : readDecimal t < 10 ^ t.length := by
  induction t with
  | nil => exact Nat.one_pos
  | cons b t ih =>
      have hrest := ih fun d hd => h d (List.mem_cons_of_mem _ hd)
      have hdigit := IsDigit.toNat_bounds (h b List.mem_cons_self)
      have hfirst : b.toNat - 48 + 1 ≤ 10 := by omega
      rw [readDecimal_cons, List.length_cons, Nat.pow_succ]
      calc (b.toNat - 48) * 10 ^ t.length + readDecimal t
          < (b.toNat - 48) * 10 ^ t.length + 10 ^ t.length :=
            Nat.add_lt_add_left hrest _
        _ = (b.toNat - 48 + 1) * 10 ^ t.length := by rw [Nat.succ_mul]
        _ ≤ 10 * 10 ^ t.length := Nat.mul_le_mul_right _ hfirst
        _ = 10 ^ t.length * 10 := Nat.mul_comm _ _

theorem lt_of_readDecimal_lt {s t : List UInt8}
    (hlength : s.length = t.length) (hs : forall b, b ∈ s -> IsDigit b)
    (ht : forall b, b ∈ t -> IsDigit b) (h : readDecimal s < readDecimal t) :
    s < t := by
  induction s generalizing t with
  | nil =>
      rw [List.eq_nil_of_length_eq_zero hlength.symm] at h
      exact absurd h (Nat.lt_irrefl _)
  | cons a s ih =>
      cases t with
      | nil => exact absurd hlength (by simp)
      | cons b t =>
          rw [List.length_cons, List.length_cons, Nat.add_right_cancel_iff]
            at hlength
          have hs' := fun d hd => hs d (List.mem_cons_of_mem a hd)
          have ht' := fun d hd => ht d (List.mem_cons_of_mem b hd)
          have ha := IsDigit.toNat_bounds (hs a List.mem_cons_self)
          have hb := IsDigit.toNat_bounds (ht b List.mem_cons_self)
          rw [readDecimal_cons, readDecimal_cons, hlength] at h
          rw [List.cons_lt_cons_iff]
          rcases Nat.lt_trichotomy a.toNat b.toNat with hlt | heq | hgt
          · exact Or.inl hlt
          · rw [heq, Nat.add_lt_add_iff_left] at h
            exact Or.inr ⟨UInt8.toNat_inj.mp heq, ih hlength hs' ht' h⟩
          · exfalso
            have hbound := readDecimal_lt_pow ht'
            have hmul : (b.toNat - 48 + 1) * 10 ^ t.length ≤
                (a.toNat - 48) * 10 ^ t.length :=
              Nat.mul_le_mul_right _ (by omega)
            rw [Nat.succ_mul] at hmul
            omega

/-!
## Digits after zeros
-/

def padded (width n : Nat) : List UInt8 :=
  List.replicate (width - (decimal n).length) 48 ++ decimal n

theorem isDigit_of_mem_padded {width n : Nat} {b : UInt8}
    (h : b ∈ padded width n) : IsDigit b := by
  rcases List.mem_append.mp h with hzero | hdigit
  · rw [List.eq_of_mem_replicate hzero]
    decide
  · exact (natural_decimal n).1.2 b hdigit

theorem length_padded {width n : Nat} (hwidth : 0 < width)
    (h : n < 10 ^ width) : (padded width n).length = width := by
  have hlength := decimal_length_le hwidth h
  rw [padded, List.length_append, List.length_replicate]
  omega

theorem readDecimal_padded (width n : Nat) :
    readDecimal (padded width n) = n := by
  have hzeros : forall k : Nat,
      readDecimal (List.replicate k 48) = 0 := by
    intro k
    induction k with
    | zero => rfl
    | succ k ih => rw [List.replicate_succ, readDecimal_cons, ih]; simp
  rw [padded, readDecimal_append, hzeros, readDecimal_decimal, Nat.zero_mul,
    Nat.zero_add]

theorem padded_eq_decimal {width n : Nat} (h : 10 ^ width ≤ n) :
    padded (width + 1) n = decimal n := by
  have hread := readDecimal_lt_pow (natural_decimal n).1.2
  rw [readDecimal_decimal] at hread
  have hlength : width < (decimal n).length :=
    (Nat.pow_lt_pow_iff_right (by decide)).mp (Nat.lt_of_le_of_lt h hread)
  rw [padded, Nat.sub_eq_zero_of_le hlength, List.replicate_zero,
    List.nil_append]

theorem padded_lt_padded {width n m : Nat} (hm : m < 10 ^ width)
    (hwidth : 0 < width) (h : n < m) : padded width n < padded width m := by
  apply lt_of_readDecimal_lt
  · rw [length_padded hwidth (h.trans hm), length_padded hwidth hm]
  · exact fun b hb => isDigit_of_mem_padded hb
  · exact fun b hb => isDigit_of_mem_padded hb
  · rw [readDecimal_padded, readDecimal_padded]
    exact h

theorem field_lt_field {width n m : Nat} {s t : List UInt8} (separator : UInt8)
    (hm : m < 10 ^ width) (hwidth : 0 < width) (h : n < m ∨ (n = m ∧ s < t)) :
    padded width n ++ separator :: s < padded width m ++ separator :: t := by
  rcases h with hlt | ⟨rfl, hrest⟩
  · apply append_lt_append_of_lt
    · rw [length_padded hwidth (hlt.trans hm), length_padded hwidth hm]
    · exact padded_lt_padded hm hwidth hlt
  · apply List.append_left_lt
    rw [List.cons_lt_cons_self]
    exact hrest

end Foundation
end NginLog
