import Mathlib.Data.Nat.Digits.Lemmas

/-!
# Numbers as text

The digits of a number as ASCII bytes, most significant first and with no
leading zero.
-/

namespace NginLog
namespace Foundation

def digitByte (d : Nat) : UInt8 :=
  UInt8.ofNat (48 + d)

theorem digitByte_toNat {d : Nat} (h : d < 10) :
    (digitByte d).toNat = 48 + d := by
  rw [digitByte, UInt8.toNat_ofNat', Nat.mod_eq_of_lt (by omega)]

def decimal (n : Nat) : List UInt8 :=
  if n = 0 then
    [digitByte 0]
  else
    (Nat.digits 10 n).reverse.map digitByte

theorem decimal_length_le {n k : Nat} (hk : 0 < k) (h : n < 10 ^ k) :
    (decimal n).length ≤ k := by
  unfold decimal
  split
  · exact hk
  · rw [List.length_map, List.length_reverse]
    exact (Nat.digits_length_le_iff (by decide) n).mpr h

/-- The number that digits stand for. -/
def readDecimal (t : List UInt8) : Nat :=
  t.foldl (fun n b => 10 * n + (b.toNat - 48)) 0

theorem readDecimal_append_digit (t : List UInt8) {d : Nat} (h : d < 10) :
    readDecimal (t ++ [digitByte d]) = 10 * readDecimal t + d := by
  rw [readDecimal, readDecimal, List.foldl_append, List.foldl_cons,
    List.foldl_nil, digitByte_toNat h]
  omega

theorem readDecimal_decimal (n : Nat) : readDecimal (decimal n) = n := by
  have hread : forall digits : List Nat, (forall d, d ∈ digits -> d < 10) ->
      readDecimal (digits.reverse.map digitByte) = Nat.ofDigits 10 digits := by
    intro digits hdigits
    induction digits with
    | nil => rfl
    | cons d rest ih =>
        rw [List.reverse_cons, List.map_append, List.map_singleton,
          readDecimal_append_digit _ (hdigits d List.mem_cons_self),
          ih fun d' hd' => hdigits d' (List.mem_cons_of_mem _ hd'),
          Nat.ofDigits_cons, Nat.add_comm]
  unfold decimal
  split
  · rename_i hzero
    rw [hzero]
    rfl
  · rw [hread _ fun d hd => Nat.digits_lt_base (by omega) hd,
      Nat.ofDigits_digits]

theorem decimal_injective : Function.Injective decimal :=
  Function.LeftInverse.injective readDecimal_decimal

def signedDecimal : Int -> List UInt8
  | Int.ofNat n => decimal n
  | Int.negSucc n => 45 :: decimal (n + 1)

def hexDigitByte (d : Nat) : UInt8 :=
  if d < 10 then digitByte d else UInt8.ofNat (87 + d)

def hexadecimal (n : Nat) : List UInt8 :=
  if n = 0 then
    [hexDigitByte 0]
  else
    (Nat.digits 16 n).reverse.map hexDigitByte

end Foundation
end NginLog
