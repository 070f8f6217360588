import Mathlib.Data.Nat.Digits.Lemmas
import NginLog.Foundation.Decimal

/-!
# The JSON grammar

Which byte strings are JSON, by the rules of its grammar.  The contents of
strings are taken bytewise: every byte from 0x20 on stands for itself, except
the quote and the backslash.
-/

namespace NginLog
namespace Foundation

namespace Json

/-!
## Spaces, strings and numbers
-/

def Space (t : List UInt8) : Prop :=
  forall b, b ∈ t -> b = 32 ∨ b = 9 ∨ b = 10 ∨ b = 13

def IsHexDigit (b : UInt8) : Prop :=
  (48 ≤ b ∧ b ≤ 57) ∨ (65 ≤ b ∧ b ≤ 70) ∨ (97 ≤ b ∧ b ≤ 102)

inductive Chars : List UInt8 -> Prop where
  | nil : Chars []
  | plain {b : UInt8} {t : List UInt8} :
      32 ≤ b -> b ≠ 34 -> b ≠ 92 -> Chars t -> Chars (b :: t)
  /-- A backslash before one of `"\/bfnrt`. -/
  | escape {b : UInt8} {t : List UInt8} :
      b ∈ ([34, 92, 47, 98, 102, 110, 114, 116] : List UInt8) ->
      Chars t -> Chars (92 :: b :: t)
  | unicode {b₁ b₂ b₃ b₄ : UInt8} {t : List UInt8} :
      IsHexDigit b₁ -> IsHexDigit b₂ -> IsHexDigit b₃ -> IsHexDigit b₄ ->
      Chars t -> Chars (92 :: 117 :: b₁ :: b₂ :: b₃ :: b₄ :: t)

def quoted (contents : List UInt8) : List UInt8 :=
  34 :: (contents ++ [34])

def IsDigit (b : UInt8) : Prop :=
  48 ≤ b ∧ b ≤ 57

def Digits (t : List UInt8) : Prop :=
  t ≠ [] ∧ forall b, b ∈ t -> IsDigit b

def Natural (t : List UInt8) : Prop :=
  Digits t ∧ (t.head? = some 48 -> t = [48])

def Fraction (t : List UInt8) : Prop :=
  t = [] ∨ exists digits, Digits digits ∧ t = 46 :: digits

def Exponent (t : List UInt8) : Prop :=
  t = [] ∨ exists e sign digits, (e = 101 ∨ e = 69) ∧
    (sign = [] ∨ sign = [43] ∨ sign = [45]) ∧ Digits digits ∧
    t = e :: (sign ++ digits)

def Number (t : List UInt8) : Prop :=
  exists sign natural fraction exponent, (sign = [] ∨ sign = [45]) ∧
    Natural natural ∧ Fraction fraction ∧ Exponent exponent ∧
    t = sign ++ natural ++ fraction ++ exponent

/-!
## Values
-/

mutual

inductive Value : List UInt8 -> Prop where
  | string {contents : List UInt8} : Chars contents -> Value (quoted contents)
  | number {t : List UInt8} : Number t -> Value t
  | true : Value [116, 114, 117, 101]
  | false : Value [102, 97, 108, 115, 101]
  | null : Value [110, 117, 108, 108]
  | object {t : List UInt8} : Object t -> Value t
  | array {t : List UInt8} : Array t -> Value t

inductive Object : List UInt8 -> Prop where
  | empty {space : List UInt8} : Space space -> Object (123 :: (space ++ [125]))
  | members {t : List UInt8} : Members t -> Object (123 :: (t ++ [125]))

inductive Members : List UInt8 -> Prop where
  | one {t : List UInt8} : Member t -> Members t
  | more {t rest : List UInt8} :
      Member t -> Members rest -> Members (t ++ 44 :: rest)

inductive Member : List UInt8 -> Prop where
  | mk {space₁ key space₂ space₃ value space₄ : List UInt8} :
      Space space₁ -> Chars key -> Space space₂ -> Space space₃ ->
      Value value -> Space space₄ ->
      Member (space₁ ++ quoted key ++ space₂ ++
        58 :: (space₃ ++ value ++ space₄))

inductive Array : List UInt8 -> Prop where
  | empty {space : List UInt8} : Space space -> Array (91 :: (space ++ [93]))
  | elements {t : List UInt8} : Elements t -> Array (91 :: (t ++ [93]))

inductive Elements : List UInt8 -> Prop where
  | one {space₁ value space₂ : List UInt8} :
      Space space₁ -> Value value -> Space space₂ ->
      Elements (space₁ ++ value ++ space₂)
  | more {space₁ value space₂ rest : List UInt8} :
      Space space₁ -> Value value -> Space space₂ -> Elements rest ->
      Elements (space₁ ++ value ++ space₂ ++ 44 :: rest)

end

/-!
## Writing objects without spaces
-/

theorem Space.nil : Space [] := fun _ h => absurd h List.not_mem_nil

theorem Chars.append {first second : List UInt8} (hfirst : Chars first)
    (hsecond : Chars second) : Chars (first ++ second) := by
  induction hfirst with
  | nil => exact hsecond
  | plain hspace hquote hslash _ ih => exact Chars.plain hspace hquote hslash ih
  | escape hmem _ ih => exact Chars.escape hmem ih
  | unicode h₁ h₂ h₃ h₄ _ ih => exact Chars.unicode h₁ h₂ h₃ h₄ ih

def isPlain (b : UInt8) : Bool :=
  decide (32 ≤ b) && b != 34 && b != 92

theorem Chars.of_plain {t : List UInt8} (h : t.all isPlain = true) :
    Chars t := by
  induction t with
  | nil => exact Chars.nil
  | cons b rest ih =>
      simp only [List.all_cons, isPlain, Bool.and_eq_true, decide_eq_true_eq,
        bne_iff_ne] at h
      rcases h with ⟨⟨⟨hcontrol, hquote⟩, hslash⟩, hrest⟩
      exact Chars.plain hcontrol hquote hslash (ih hrest)

theorem Digits.plain {t : List UInt8} (h : Digits t) :
    t.all isPlain = true := by
  rw [List.all_eq_true]
  intro b hb
  rcases h.2 b hb with ⟨hlow, hhigh⟩
  have hcontrol : (32 : UInt8) ≤ b := UInt8.le_trans (by decide) hlow
  have hquote : b ≠ 34 := fun heq => absurd hlow (by rw [heq]; decide)
  have hslash : b ≠ 92 := fun heq => absurd hhigh (by rw [heq]; decide)
  simp [isPlain, hcontrol, hquote, hslash]

theorem Digits.chars {t : List UInt8} (h : Digits t) : Chars t :=
  Chars.of_plain h.plain

def member (key value : List UInt8) : List UInt8 :=
  quoted key ++ 58 :: value

theorem Member.of_value {key value : List UInt8} (hkey : Chars key)
    (hvalue : Value value) : Member (member key value) := by
  have h := Member.mk Space.nil hkey Space.nil Space.nil hvalue Space.nil
  simpa [member] using h

theorem Members.of_list {first : List UInt8} {rest : List (List UInt8)}
    (hfirst : Member first) (hrest : forall t, t ∈ rest -> Member t) :
    Members (first ++ rest.flatMap (44 :: ·)) := by
  induction rest generalizing first with
  | nil => simpa using Members.one hfirst
  | cons second rest ih =>
      have htail := ih (hrest second List.mem_cons_self)
        fun t ht => hrest t (List.mem_cons_of_mem _ ht)
      exact Members.more hfirst htail

/-!
## Decimal numbers
-/

theorem isDigit_digitByte {d : Nat} (h : d < 10) : IsDigit (digitByte d) := by
  rw [IsDigit, UInt8.le_iff_toNat_le, UInt8.le_iff_toNat_le,
    digitByte_toNat h]
  exact ⟨Nat.le_add_right 48 d, by simp; omega⟩

theorem natural_decimal (n : Nat) : Natural (decimal n) := by
  unfold decimal
  split
  · refine ⟨⟨List.cons_ne_nil _ _, ?_⟩, fun _ => rfl⟩
    intro b hb
    rw [List.mem_singleton] at hb
    rw [hb]
    exact isDigit_digitByte (by omega)
  · rename_i hn
    have hdigits : Nat.digits 10 n ≠ [] := Nat.digits_ne_nil_iff_ne_zero.mpr hn
    constructor
    · constructor
      · simpa using hdigits
      · intro b hb
        rcases List.mem_map.mp hb with ⟨d, hd, rfl⟩
        exact isDigit_digitByte
          (Nat.digits_lt_base (by omega) (List.mem_reverse.mp hd))
    · -- The first digit written is the last of the list, which is not zero.
      intro hzero
      have hlast := Nat.getLast_digit_ne_zero 10 hn
      have hlt := Nat.digits_lt_base (by omega) (List.getLast_mem hdigits)
      rw [List.head?_map, List.head?_reverse, List.getLast?_eq_some_getLast
        hdigits, Option.map_some, Option.some.injEq] at hzero
      have hnat := congrArg UInt8.toNat hzero
      rw [digitByte_toNat hlt] at hnat
      have : (48 : UInt8).toNat = 48 := rfl
      omega

theorem number_decimal (n : Nat) : Number (decimal n) :=
  ⟨[], decimal n, [], [], Or.inl rfl, natural_decimal n, Or.inl rfl,
    Or.inl rfl, by simp⟩

theorem signedDecimal_split (i : Int) :
    exists sign digits, (sign = [] ∨ sign = [45]) ∧ Digits digits ∧
      signedDecimal i = sign ++ digits := by
  cases i with
  | ofNat n =>
      exact ⟨[], decimal n, Or.inl rfl, (natural_decimal n).1, rfl⟩
  | negSucc n =>
      exact ⟨[45], decimal (n + 1), Or.inr rfl, (natural_decimal _).1, rfl⟩

theorem number_signedDecimal (i : Int) : Number (signedDecimal i) := by
  cases i with
  | ofNat n => exact number_decimal n
  | negSucc n =>
      exact ⟨[45], decimal (n + 1), [], [], Or.inr rfl, natural_decimal _,
        Or.inl rfl, Or.inl rfl, by simp [signedDecimal]⟩

/-!
## Reading from the front

What a text starts with decides how it can be read: the contents of a string end
at the first quote that is not escaped, and a value is told by its first byte.
-/

theorem Chars.eq_of_quote {first second rest rest' : List UInt8}
    (hfirst : Chars first) (hsecond : Chars second)
    (h : first ++ 34 :: rest = second ++ 34 :: rest') :
    first = second ∧ rest = rest' := by
  induction hfirst generalizing second with
  | nil =>
      cases hsecond with
      | nil => exact ⟨rfl, (List.cons.inj h).2⟩
      | plain _ hquote _ _ => exact absurd (List.cons.inj h).1.symm hquote
      | escape _ _ => exact absurd (List.cons.inj h).1 (by decide)
      | unicode _ _ _ _ _ => exact absurd (List.cons.inj h).1 (by decide)
  | plain _ hquote hslash _ ih =>
      cases hsecond with
      | nil => exact absurd (List.cons.inj h).1 hquote
      | plain _ _ _ htail =>
          rcases List.cons.inj h with ⟨rfl, hrest⟩
          rcases ih htail hrest with ⟨rfl, hend⟩
          exact ⟨rfl, hend⟩
      | escape _ _ => exact absurd (List.cons.inj h).1 hslash
      | unicode _ _ _ _ _ => exact absurd (List.cons.inj h).1 hslash
  | escape hmem _ ih =>
      cases hsecond with
      | nil => exact absurd (List.cons.inj h).1 (by decide)
      | plain _ _ hslash _ => exact absurd (List.cons.inj h).1.symm hslash
      | escape _ htail =>
          rcases List.cons.inj (List.cons.inj h).2 with ⟨rfl, hrest⟩
          rcases ih htail hrest with ⟨rfl, hend⟩
          exact ⟨rfl, hend⟩
      | unicode _ _ _ _ _ =>
          rcases List.cons.inj (List.cons.inj h).2 with ⟨rfl, _⟩
          exact absurd hmem (by decide)
  | unicode _ _ _ _ _ ih =>
      cases hsecond with
      | nil => exact absurd (List.cons.inj h).1 (by decide)
      | plain _ _ hslash _ => exact absurd (List.cons.inj h).1.symm hslash
      | escape hmem _ =>
          rcases List.cons.inj (List.cons.inj h).2 with ⟨rfl, _⟩
          exact absurd hmem (by decide)
      | unicode _ _ _ _ htail =>
          simp only [List.cons_append, List.cons.injEq, true_and] at h
          rcases h with ⟨rfl, rfl, rfl, rfl, h⟩
          rcases ih htail h with ⟨rfl, hrest⟩
          exact ⟨rfl, hrest⟩

theorem Space.eq_nil {space rest t : List UInt8} {b : UInt8}
    (hspace : Space space) (h : space ++ rest = b :: t)
    (hb : ¬ (b = 32 ∨ b = 9 ∨ b = 10 ∨ b = 13)) :
    space = [] := by
  cases space with
  | nil => rfl
  | cons first others =>
      rcases List.cons.inj h with ⟨rfl, _⟩
      exact absurd (hspace first List.mem_cons_self) hb

def Follows (b : UInt8) : Prop :=
  b = 32 ∨ b = 9 ∨ b = 10 ∨ b = 13 ∨ b = 44 ∨ b = 125

theorem Space.follows {space rest : List UInt8} {b : UInt8}
    (hspace : Space space) (hb : Follows b) :
    exists b' rest', space ++ b :: rest = b' :: rest' ∧ Follows b' := by
  cases space with
  | nil => exact ⟨b, rest, rfl, hb⟩
  | cons first others =>
      refine ⟨first, others ++ b :: rest, rfl, ?_⟩
      rcases hspace first List.mem_cons_self with h | h | h | h
      · exact Or.inl h
      · exact Or.inr (Or.inl h)
      · exact Or.inr (Or.inr (Or.inl h))
      · exact Or.inr (Or.inr (Or.inr (Or.inl h)))

theorem Member.split_of_key {t key body rest : List UInt8} {b : UInt8}
    (ht : Member t) (hkey : Chars key)
    (h : t ++ b :: rest = quoted key ++ 58 :: body) :
    exists before value after, Space before ∧ Value value ∧ Space after ∧
      body = before ++ (value ++ (after ++ b :: rest)) := by
  cases ht with
  | mk hspace₁ hkey' hspace₂ hspace₃ hvalue hspace₄ =>
      rename_i space₁ key' space₂ space₃ value space₄
      simp only [quoted, List.append_assoc, List.cons_append,
        List.nil_append] at h
      have hnone := hspace₁.eq_nil h (by decide)
      rw [hnone, List.nil_append, List.cons.injEq] at h
      rcases hkey'.eq_of_quote hkey h.2 with ⟨_, hafter⟩
      have hnone₂ := hspace₂.eq_nil hafter (by decide)
      rw [hnone₂, List.nil_append, List.cons.injEq] at hafter
      exact ⟨space₃, value, space₄, hspace₃, hvalue, hspace₄, hafter.2.symm⟩

theorem Member.value_of_key {t key body rest : List UInt8} {b : UInt8}
    (ht : Member t) (hkey : Chars key) (hb : Follows b)
    (h : t ++ b :: rest = quoted key ++ 58 :: body) :
    exists space value b' rest', Space space ∧ Value value ∧ Follows b' ∧
      body = space ++ (value ++ b' :: rest') := by
  rcases ht.split_of_key hkey h with
    ⟨before, value, after, hbefore, hvalue, hafter, rfl⟩
  rcases hafter.follows hb with ⟨b', rest', hfollow, hb'⟩
  exact ⟨before, value, b', rest', hbefore, hvalue, hb', by rw [hfollow]⟩

theorem Object.first_value {key body : List UInt8} (hkey : Chars key)
    (h : Object (123 :: (quoted key ++ 58 :: body))) :
    exists space value b rest, Space space ∧ Value value ∧ Follows b ∧
      body = space ++ (value ++ b :: rest) := by
  generalize htext : 123 :: (quoted key ++ 58 :: body) = text at h
  cases h with
  | empty hspace =>
      have heq := (List.cons.inj htext).2.symm
      have hnone := hspace.eq_nil heq (by decide)
      rw [hnone] at heq
      exact absurd (List.cons.inj heq).1 (by decide)
  | members hmembers =>
      have heq := (List.cons.inj htext).2.symm
      cases hmembers with
      | one hmember =>
          exact hmember.value_of_key hkey (b := 125) (by simp [Follows]) heq
      | more hmember _ =>
          rw [List.append_assoc] at heq
          exact hmember.value_of_key hkey (b := 44) (by simp [Follows]) heq

def StartsNumber (b : UInt8) : Prop :=
  b = 45 ∨ IsDigit b

instance (b : UInt8) : Decidable (IsDigit b) :=
  inferInstanceAs (Decidable (_ ∧ _))

instance (b : UInt8) : Decidable (StartsNumber b) :=
  inferInstanceAs (Decidable (_ ∨ _))

theorem Digits.starts {t : List UInt8} (h : Digits t) :
    exists b rest, t = b :: rest ∧ IsDigit b := by
  rcases h with ⟨hne, hall⟩
  cases t with
  | nil => exact absurd rfl hne
  | cons b rest => exact ⟨b, rest, rfl, hall b List.mem_cons_self⟩

theorem Number.starts {t : List UInt8} (h : Number t) :
    exists b rest, t = b :: rest ∧ StartsNumber b := by
  rcases h with ⟨sign, natural, fraction, exponent, hsign, hnatural, _, _, rfl⟩
  rcases hsign with rfl | rfl
  · rcases hnatural.1.starts with ⟨b, rest, rfl, hb⟩
    exact ⟨b, _, rfl, Or.inr hb⟩
  · exact ⟨45, _, rfl, Or.inl rfl⟩

theorem Value.number_or_starts {t : List UInt8} (h : Value t) :
    Number t ∨ exists b rest, t = b :: rest ∧
      b ∈ ([34, 91, 102, 110, 116, 123] : List UInt8) := by
  cases h with
  | string _ => exact Or.inr ⟨34, _, rfl, by decide⟩
  | number h => exact Or.inl h
  | true => exact Or.inr ⟨116, _, rfl, by decide⟩
  | false => exact Or.inr ⟨102, _, rfl, by decide⟩
  | null => exact Or.inr ⟨110, _, rfl, by decide⟩
  | object h => cases h <;> exact Or.inr ⟨123, _, rfl, by decide⟩
  | array h => cases h <;> exact Or.inr ⟨91, _, rfl, by decide⟩

theorem Digits.front_of_dashed {first second rest tail : List UInt8}
    (hfirst : Digits first) (hsecond : Digits second)
    (h : first ++ rest = second ++ 45 :: tail) :
    exists b rest', rest = b :: rest' ∧ StartsNumber b := by
  rcases List.append_eq_append_iff.mp h with
    ⟨extra, hsplit, hrest⟩ | ⟨extra, hsplit, hrest⟩
  · cases extra with
    | nil => exact ⟨45, tail, hrest, Or.inl rfl⟩
    | cons b others =>
        refine ⟨b, _, hrest, Or.inr (hsecond.2 b ?_)⟩
        rw [hsplit]
        exact List.mem_append_right _ List.mem_cons_self
  · cases extra with
    | nil => exact ⟨45, tail, hrest.symm, Or.inl rfl⟩
    | cons b others =>
        have hdash := (List.cons.inj hrest).1
        have hdigit : IsDigit b := hfirst.2 b (by rw [hsplit]; simp)
        rw [← hdash] at hdigit
        exact absurd hdigit (by decide)

theorem Number.not_dashed {t sign digits tail rest : List UInt8} {b : UInt8}
    (h : Number t) (hsign : sign = [] ∨ sign = [45]) (hdigits : Digits digits)
    (hb : Follows b) :
    t ++ b :: rest ≠ sign ++ (digits ++ 45 :: tail) := by
  intro heq
  rcases h with ⟨sign', natural, fraction, exponent, hsign', hnatural,
    hfraction, hexponent, rfl⟩
  simp only [List.append_assoc] at heq
  have hstripped : natural ++ (fraction ++ (exponent ++ b :: rest)) =
      digits ++ 45 :: tail := by
    rcases hsign with rfl | rfl <;> rcases hsign' with rfl | rfl
    · exact heq
    · rcases hdigits.starts with ⟨d, _, rfl, hd⟩
      rw [← (List.cons.inj heq).1] at hd
      exact absurd hd (by decide)
    · rcases hnatural.1.starts with ⟨d, _, rfl, hd⟩
      rw [(List.cons.inj heq).1] at hd
      exact absurd hd (by decide)
    · exact (List.cons.inj heq).2
  rcases hnatural.1.front_of_dashed hdigits hstripped with
    ⟨c, rest', hrest, hc⟩
  -- Neither a fraction, nor an exponent, nor the end of a member starts so.
  rcases hfraction with rfl | ⟨_, _, rfl⟩
  · rcases hexponent with rfl | ⟨e, _, _, he, _, _, rfl⟩
    · rw [← (List.cons.inj hrest).1] at hc
      rcases hb with rfl | rfl | rfl | rfl | rfl | rfl <;>
        exact absurd hc (by decide)
    · rw [← (List.cons.inj hrest).1] at hc
      rcases he with rfl | rfl <;> exact absurd hc (by decide)
  · rw [← (List.cons.inj hrest).1] at hc
    exact absurd hc (by decide)

theorem Object.first_value_of_byte {key tail : List UInt8} {b : UInt8}
    (hkey : Chars key) (hb : ¬ (b = 32 ∨ b = 9 ∨ b = 10 ∨ b = 13))
    (h : Object (123 :: (quoted key ++ 58 :: b :: tail))) :
    exists value b' rest, Value value ∧ Follows b' ∧
      b :: tail = value ++ b' :: rest := by
  rcases h.first_value hkey with ⟨space, value, b', rest, hspace, hvalue, hb',
    heq⟩
  have hnone := hspace.eq_nil heq.symm hb
  rw [hnone, List.nil_append] at heq
  exact ⟨value, b', rest, hvalue, hb', heq⟩

theorem Object.not_dashed {key sign digits tail : List UInt8}
    (hkey : Chars key) (hsign : sign = [] ∨ sign = [45])
    (hdigits : Digits digits) :
    ¬ Object (123 :: (quoted key ++ 58 :: (sign ++ (digits ++ 45 :: tail)))) := by
  intro h
  have hbyte : exists b rest, sign ++ (digits ++ 45 :: tail) = b :: rest ∧
      StartsNumber b := by
    rcases hsign with rfl | rfl
    · rcases hdigits.starts with ⟨b, rest, rfl, hb⟩
      exact ⟨b, _, rfl, Or.inr hb⟩
    · exact ⟨45, _, rfl, Or.inl rfl⟩
  rcases hbyte with ⟨b, rest, hstart, hb⟩
  rw [hstart] at h
  have hspace : ¬ (b = 32 ∨ b = 9 ∨ b = 10 ∨ b = 13) := by
    intro hcase
    rcases hcase with rfl | rfl | rfl | rfl <;> exact absurd hb (by decide)
  rcases h.first_value_of_byte hkey hspace with ⟨value, b', rest', hvalue, hb',
    heq⟩
  rcases hvalue.number_or_starts with hnumber | ⟨c, _, rfl, hc⟩
  · exact hnumber.not_dashed hsign hdigits hb' (heq.symm.trans hstart.symm)
  · rw [(List.cons.inj heq).1] at hb
    simp only [List.mem_cons, List.not_mem_nil, or_false] at hc
    rcases hc with rfl | rfl | rfl | rfl | rfl | rfl <;>
      exact absurd hb (by decide)

theorem Object.not_of_byte {key tail : List UInt8} {b : UInt8}
    (hkey : Chars key) (hspace : ¬ (b = 32 ∨ b = 9 ∨ b = 10 ∨ b = 13))
    (hnumber : ¬ StartsNumber b)
    (hkind : b ∉ ([34, 91, 102, 110, 116, 123] : List UInt8)) :
    ¬ Object (123 :: (quoted key ++ 58 :: b :: tail)) := by
  intro h
  rcases h.first_value_of_byte hkey hspace with ⟨value, b', rest', hvalue,
    _, heq⟩
  rcases hvalue.number_or_starts with hvalue | ⟨c, _, rfl, hc⟩
  · rcases hvalue.starts with ⟨c, _, rfl, hc⟩
    rw [← (List.cons.inj heq).1] at hc
    exact hnumber hc
  · rw [← (List.cons.inj heq).1] at hc
    exact hkind hc

end Json

end Foundation
end NginLog
