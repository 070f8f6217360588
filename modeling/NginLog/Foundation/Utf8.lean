import Mathlib.Data.List.Basic

/-!
# UTF-8

A byte string is valid when it is the encoding of a list of characters.  What an
encoded character starts with tells it from the others, so valid strings are
cut in one way: a prefix of a valid string is valid exactly when the next byte
is the first one of a character.  An ASCII byte always is.
-/

namespace NginLog
namespace Foundation
namespace Utf8

def Valid (t : List UInt8) : Prop :=
  exists chars : List Char, t = chars.flatMap String.utf8EncodeChar

theorem valid_nil : Valid [] :=
  ⟨[], rfl⟩

theorem valid_char (c : Char) : Valid (String.utf8EncodeChar c) :=
  ⟨[c], (List.flatMap_singleton _ c).symm⟩

theorem Valid.append {s t : List UInt8} (hs : Valid s) (ht : Valid t) :
    Valid (s ++ t) := by
  rcases hs with ⟨first, rfl⟩
  rcases ht with ⟨second, rfl⟩
  exact ⟨first ++ second, List.flatMap_append.symm⟩

/-!
## Cancelling a valid prefix
-/

theorem char_eq_of_append {c d : Char} {s t : List UInt8}
    (h : String.utf8EncodeChar c ++ s = String.utf8EncodeChar d ++ t) :
    c = d := by
  have hdecoded := congrArg
    (fun bytes : List UInt8 => ByteArray.utf8DecodeChar? bytes.toByteArray 0) h
  simp only [List.toByteArray_append,
    ByteArray.utf8DecodeChar?_utf8EncodeChar_append, Option.some.injEq]
    at hdecoded
  exact hdecoded

theorem utf8EncodeChar_ne_nil (c : Char) : String.utf8EncodeChar c ≠ [] := by
  intro h
  have hlength := congrArg List.length h
  rw [String.length_utf8EncodeChar] at hlength
  exact Nat.ne_of_gt c.utf8Size_pos hlength

theorem valid_char_append_iff {c : Char} {t : List UInt8} :
    Valid (String.utf8EncodeChar c ++ t) <-> Valid t := by
  constructor
  · rintro ⟨chars, h⟩
    cases chars with
    | nil => exact absurd (List.append_eq_nil_iff.mp h).1 (utf8EncodeChar_ne_nil c)
    | cons d rest =>
        rw [List.flatMap_cons] at h
        cases char_eq_of_append h
        exact ⟨rest, List.append_cancel_left h⟩
  · exact (valid_char c).append

theorem Valid.append_iff {s : List UInt8} (hs : Valid s) (t : List UInt8) :
    Valid (s ++ t) <-> Valid t := by
  rcases hs with ⟨chars, rfl⟩
  induction chars with
  | nil => exact Iff.rfl
  | cons c rest ih =>
      rw [List.flatMap_cons, List.append_assoc, valid_char_append_iff, ih]

/-!
## Cutting
-/

def AtBoundary (cut t : List UInt8) : Prop :=
  forall b, t[cut.length]? = some b -> b.IsUTF8FirstByte

theorem not_valid_take_char {c : Char} {n : Nat} (hpos : 0 < n)
    (hn : n < (String.utf8EncodeChar c).length) :
    ¬ Valid ((String.utf8EncodeChar c).take n) := by
  rintro ⟨chars, h⟩
  cases chars with
  | nil =>
      have hlength := congrArg List.length h
      rw [List.length_take, List.flatMap_nil, List.length_nil] at hlength
      omega
  | cons d rest =>
      have hsplit := List.take_append_drop n (String.utf8EncodeChar c)
      rw [h, List.flatMap_cons, List.append_assoc] at hsplit
      have hsame : d = c := char_eq_of_append
        (hsplit.trans (List.append_nil _).symm)
      have hlength := congrArg List.length h
      rw [hsame, List.length_take, List.flatMap_cons, List.length_append]
        at hlength
      omega

theorem valid_take_iff {t : List UInt8} (ht : Valid t) (n : Nat) :
    Valid (t.take n) <-> forall b, t[n]? = some b -> b.IsUTF8FirstByte := by
  rcases ht with ⟨chars, rfl⟩
  induction chars generalizing n with
  | nil => simp [valid_nil]
  | cons c rest ih =>
      rw [List.flatMap_cons]
      rcases Nat.lt_or_ge n (String.utf8EncodeChar c).length with hn | hn
      · have hbyte : (String.utf8EncodeChar c ++
            rest.flatMap String.utf8EncodeChar)[n]? =
              some (String.utf8EncodeChar c)[n] := by
          rw [List.getElem?_append_left hn, List.getElem?_eq_getElem hn]
        rw [List.take_append_of_le_length (Nat.le_of_lt hn), hbyte]
        simp only [Option.some.injEq, forall_eq',
          UInt8.isUTF8FirstByte_getElem_utf8EncodeChar]
        constructor
        · intro hvalid
          by_contra hne
          exact not_valid_take_char (Nat.pos_of_ne_zero hne) hn hvalid
        · rintro rfl
          exact valid_nil
      · rw [List.take_append, List.take_of_length_le hn,
          valid_char_append_iff, ih, List.getElem?_append_right hn]

theorem valid_iff_atBoundary {cut t : List UInt8} (ht : Valid t)
    (hcut : cut <+: t) :
    Valid cut <-> AtBoundary cut t := by
  rcases hcut with ⟨dropped, rfl⟩
  have htake := valid_take_iff ht cut.length
  rw [List.take_left] at htake
  exact htake

theorem atBoundary_self (t : List UInt8) : AtBoundary t t := by
  intro b hb
  rw [List.getElem?_eq_none (Nat.le_refl _)] at hb
  cases hb

/-!
## ASCII
-/

theorem utf8EncodeChar_ascii {b : UInt8} (hb : b < 128) :
    exists c, String.utf8EncodeChar c = [b] := by
  have hval : (Char.ofUInt8 b).val = b.toUInt32 := rfl
  have hsize : (Char.ofUInt8 b).utf8Size = 1 := by
    rw [Char.utf8Size_eq_one_iff, hval]
    have hnat := UInt8.lt_iff_toNat_lt.mp hb
    rw [UInt32.le_iff_toNat_le, UInt8.toNat_toUInt32]
    exact Nat.le_of_lt_succ hnat
  refine ⟨Char.ofUInt8 b, ?_⟩
  rw [String.utf8EncodeChar_eq_singleton hsize, hval, UInt8.toUInt8_toUInt32]

theorem valid_ascii_byte {b : UInt8} (hb : b < 128) : Valid [b] := by
  rcases utf8EncodeChar_ascii hb with ⟨c, hc⟩
  exact hc ▸ valid_char c

theorem isUTF8FirstByte_ascii {b : UInt8} (hb : b < 128) :
    b.IsUTF8FirstByte := by
  rcases utf8EncodeChar_ascii hb with ⟨c, hc⟩
  have hfirst : (String.utf8EncodeChar c)[0]? = some b := by rw [hc]; rfl
  rcases List.getElem?_eq_some_iff.mp hfirst with ⟨hlt, heq⟩
  rw [← heq, UInt8.isUTF8FirstByte_getElem_utf8EncodeChar]

theorem valid_cons_ascii {b : UInt8} (hb : b < 128) (t : List UInt8) :
    Valid (b :: t) <-> Valid t :=
  (valid_ascii_byte hb).append_iff t

theorem valid_append_ascii {b : UInt8} (hb : b < 128) (s t : List UInt8) :
    Valid (s ++ b :: t) <-> Valid s ∧ Valid t := by
  constructor
  · intro h
    have hs : Valid s := by
      refine (valid_iff_atBoundary h (List.prefix_append ..)).mpr ?_
      intro b' hb'
      rw [List.getElem?_append_right (Nat.le_refl _), Nat.sub_self] at hb'
      cases hb'
      exact isUTF8FirstByte_ascii hb
    exact ⟨hs, (valid_cons_ascii hb t).mp ((hs.append_iff _).mp h)⟩
  · rintro ⟨hs, ht⟩
    exact hs.append ((valid_cons_ascii hb t).mpr ht)

def Ascii (t : List UInt8) : Prop :=
  t.all (fun b => decide (b < 128)) = true

instance (t : List UInt8) : Decidable (Ascii t) :=
  inferInstanceAs (Decidable (_ = true))

theorem ascii_cons {b : UInt8} {t : List UInt8} :
    Ascii (b :: t) <-> b < 128 ∧ Ascii t := by
  simp [Ascii]

theorem valid_ascii_append {s : List UInt8} (hs : Ascii s) (t : List UInt8) :
    Valid (s ++ t) <-> Valid t := by
  induction s with
  | nil => exact Iff.rfl
  | cons b rest ih =>
      rcases ascii_cons.mp hs with ⟨hb, hrest⟩
      rw [List.cons_append, valid_cons_ascii hb, ih hrest]

theorem Ascii.valid {t : List UInt8} (h : Ascii t) : Valid t := by
  have hnil := (valid_ascii_append h []).mpr valid_nil
  rwa [List.append_nil] at hnil

theorem valid_append_flatMap {item : Type} {b : UInt8} (hb : b < 128)
    (f : item -> List UInt8) (s : List UInt8) (items : List item) :
    Valid (s ++ items.flatMap fun x => b :: f x) <->
      Valid s ∧ forall x, x ∈ items -> Valid (f x) := by
  induction items generalizing s with
  | nil => simp
  | cons x rest ih =>
      rw [List.flatMap_cons, List.cons_append, valid_append_ascii hb, ih]
      simp

theorem valid_flatMap_iff {f : UInt8 -> List UInt8}
    (hascii : forall b, b < 128 -> f b ≠ [] ∧ Ascii (f b))
    (hother : forall b, ¬ b < 128 -> f b = [b]) (t : List UInt8) :
    Valid (t.flatMap f) <-> Valid t := by
  have hafter : forall s, Valid (s ++ t.flatMap f) <-> Valid (s ++ t) := by
    induction t with
    | nil => exact fun s => Iff.rfl
    | cons b rest ih =>
        intro s
        rw [List.flatMap_cons]
        by_cases hb : b < 128
        · rcases hascii b hb with ⟨hne, hf⟩
          rcases List.exists_cons_of_ne_nil hne with ⟨first, others, heq⟩
          rw [heq] at hf ⊢
          rcases ascii_cons.mp hf with ⟨hfirst, hothers⟩
          rw [List.cons_append, valid_append_ascii hfirst,
            valid_ascii_append hothers, valid_append_ascii hb]
          exact and_congr Iff.rfl (ih [])
        · rw [hother b hb]
          have hnext := ih (s ++ [b])
          rw [List.append_assoc, List.append_assoc] at hnext
          exact hnext
  exact hafter []

end Utf8
end Foundation
end NginLog
