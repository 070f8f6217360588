import NginLog.Formatting.JsonRecordFormatter

/-!
# Text that needs no quotes

What the formatters write without escaping it, apart from literals and doubles:
letters, digits, signs, points and colons.
-/

namespace NginLog
namespace Formatting

open Foundation Record

def isBare (b : UInt8) : Bool :=
  decide (48 ≤ b ∧ b ≤ 57 ∨ 65 ≤ b ∧ b ≤ 90 ∨ 97 ≤ b ∧ b ≤ 122 ∨
    b = 43 ∨ b = 45 ∨ b = 46 ∨ b = 58)

def Bare (t : Bytes) : Prop :=
  t.all isBare = true

instance (t : Bytes) : Decidable (Bare t) :=
  inferInstanceAs (Decidable (_ = true))

theorem bare_iff {t : Bytes} :
    Bare t <-> forall b, b ∈ t -> isBare b = true := by
  simp [Bare]

@[simp] theorem bare_nil : Bare [] := rfl

@[simp] theorem bare_cons {b : UInt8} {t : Bytes} :
    Bare (b :: t) <-> isBare b = true ∧ Bare t := by
  simp [Bare]

@[simp] theorem bare_append {s t : Bytes} :
    Bare (s ++ t) <-> Bare s ∧ Bare t := by
  simp [Bare]

theorem ne_of_isBare {b c : UInt8} (hb : isBare b = true)
    (hc : isBare c = false) : b ≠ c := by
  rintro rfl
  exact Bool.false_ne_true (hc.symm.trans hb)

theorem isBare_range {b : UInt8} (h : isBare b = true) : 43 ≤ b ∧ b < 128 := by
  unfold isBare at h
  rw [decide_eq_true_iff] at h
  rcases h with h | h | h | rfl | rfl | rfl | rfl
  · exact ⟨UInt8.le_trans (by decide) h.1, UInt8.lt_of_le_of_lt h.2 (by decide)⟩
  · exact ⟨UInt8.le_trans (by decide) h.1, UInt8.lt_of_le_of_lt h.2 (by decide)⟩
  · exact ⟨UInt8.le_trans (by decide) h.1, UInt8.lt_of_le_of_lt h.2 (by decide)⟩
  · decide
  · decide
  · decide
  · decide

/-!
## Numbers
-/

theorem isBare_of_isDigit {b : UInt8} (h : Json.IsDigit b) :
    isBare b = true :=
  decide_eq_true (Or.inl h)

theorem isBare_of_isHexDigit {b : UInt8} (h : Json.IsHexDigit b) :
    isBare b = true := by
  rcases h with h | h | h
  · exact isBare_of_isDigit h
  · exact decide_eq_true (Or.inr (Or.inl
      ⟨h.1, UInt8.le_trans h.2 (by decide)⟩))
  · exact decide_eq_true (Or.inr (Or.inr (Or.inl
      ⟨h.1, UInt8.le_trans h.2 (by decide)⟩)))

theorem bare_of_digits {t : Bytes} (h : Json.Digits t) : Bare t :=
  bare_iff.mpr fun b hb => isBare_of_isDigit (h.2 b hb)

@[simp] theorem bare_decimal (n : Nat) : Bare (decimal n) :=
  bare_of_digits (Json.natural_decimal n).1

@[simp] theorem bare_signedDecimal (i : Int) : Bare (signedDecimal i) := by
  rcases Json.signedDecimal_split i with ⟨sign, digits, hsign, hdigits, heq⟩
  rw [heq, bare_append]
  refine ⟨?_, bare_of_digits hdigits⟩
  rcases hsign with rfl | rfl <;> decide

@[simp] theorem bare_appendUnsigned (value : UInt64) :
    Bare (appendUnsigned value) :=
  bare_decimal _

@[simp] theorem bare_appendSigned (value : Int64) : Bare (appendSigned value) :=
  bare_signedDecimal _

theorem bare_appendHexByte (value : UInt8) : Bare (appendHexByte value) := by
  have hbyte := value.toNat_lt
  have hdigit : forall d, d < 16 -> isBare (hexDigitByte d) = true :=
    fun _ hd => isBare_of_isHexDigit (isHexDigit_hexDigitByte hd)
  simp [appendHexByte, hdigit (value.toNat / 16) (by omega),
    hdigit (value.toNat % 16) (by omega)]

theorem bare_hexadecimal (n : Nat) : Bare (hexadecimal n) := by
  have hdigit : forall d, d < 16 -> isBare (hexDigitByte d) = true :=
    fun _ hd => isBare_of_isHexDigit (isHexDigit_hexDigitByte hd)
  unfold hexadecimal
  split
  · exact bare_cons.mpr ⟨hdigit 0 (by omega), bare_nil⟩
  · rw [bare_iff]
    intro b hb
    rcases List.mem_map.mp hb with ⟨d, hd, rfl⟩
    exact hdigit d (Nat.digits_lt_base (by omega) (List.mem_reverse.mp hd))

theorem bare_bool (v : Bool) :
    Bare (if v then ascii "true" else ascii "false") := by
  cases v <;> decide

theorem bare_levelName (level : LogLevel) : Bare level.name := by
  cases level with
  | unnamed value above =>
      have hname : Bare (ascii "Unknown") := by decide
      exact hname
  | _ => decide

/-!
## Timestamps
-/

theorem bare_twoDigits (n : Nat) : Bare (twoDigits n) := by
  unfold twoDigits
  split
  · exact bare_cons.mpr ⟨by decide, bare_decimal n⟩
  · exact bare_decimal n

theorem bare_strftime {text : Bytes} (capacity : Nat) (h : Bare text) :
    Bare (strftime capacity text) := by
  unfold strftime
  split
  · exact h
  · exact bare_nil

theorem bare_dateTime (time : Tm) : Bare (dateTime time) := by
  simp only [dateTime, bare_append, bare_cons, bare_signedDecimal,
    bare_twoDigits]
  decide

theorem bare_zoneOffset (time : Tm) : Bare (zoneOffset time) := by
  unfold zoneOffset
  split
  · exact bare_nil
  · rename_i offset _
    simp only [bare_cons, bare_append, bare_twoDigits, and_self, and_true]
    split <;> decide

def BareParts (parts : Bytes × Bytes) : Prop :=
  Bare parts.1 ∧ Bare parts.2

theorem bareParts_nil : BareParts ([], []) :=
  ⟨bare_nil, bare_nil⟩

theorem bare_fillCachedTimeParts (runtime : Runtime) (style : TimestampStyle)
    (second : Int64) :
    BareParts (fillCachedTimeParts runtime style second) := by
  have hlocal : forall time : Tm,
      BareParts (strftime 32 (dateTime time),
        strftime 16 (zoneOffset time)) := fun time =>
    ⟨bare_strftime 32 (bare_dateTime time),
      bare_strftime 16 (bare_zoneOffset time)⟩
  cases style with
  | epochNanoseconds => exact bareParts_nil
  | epochMilliseconds => exact bareParts_nil
  | iso8601Utc =>
      have hsuffix : Bare (ascii "Z") := by decide
      exact ⟨bare_strftime 32 (bare_dateTime _), hsuffix⟩
  | iso8601Local => exact hlocal _
  | unnamed value above => exact hlocal _

theorem bare_fraction (nanos : UInt64) : Bare (fraction nanos) := by
  unfold fraction
  rw [bare_append]
  refine ⟨?_, bare_appendUnsigned nanos⟩
  rw [bare_iff]
  intro b hb
  rw [List.eq_of_mem_replicate hb]
  decide

theorem bare_isoTimestamp (runtime : Runtime) (timestamp : UInt64)
    (style : TimestampStyle) {cached : Bytes × Bytes}
    (hcached : BareParts cached) :
    Bare (isoTimestamp runtime timestamp style cached) := by
  have hparts : forall parts, BareParts parts ->
      Bare (parts.1 ++
        46 :: (fraction (timestamp % 1000000000) ++ parts.2)) := by
    intro parts h
    rw [bare_append, bare_cons, bare_append]
    exact ⟨h.1, by decide, bare_fraction _, h.2⟩
  unfold isoTimestamp
  apply hparts
  split
  · exact bare_fillCachedTimeParts ..
  · exact hcached

theorem bare_appendTimestamp (runtime : Runtime) (timestamp : UInt64)
    (style : TimestampStyle) {cached : Bytes × Bytes}
    (hcached : BareParts cached) :
    Bare (appendTimestamp runtime timestamp style cached) := by
  cases style with
  | epochNanoseconds => exact bare_appendUnsigned _
  | epochMilliseconds => exact bare_appendUnsigned _
  | iso8601Utc => exact bare_isoTimestamp runtime timestamp _ hcached
  | iso8601Local => exact bare_isoTimestamp runtime timestamp _ hcached
  | unnamed value above => exact bare_nil

end Formatting
end NginLog
