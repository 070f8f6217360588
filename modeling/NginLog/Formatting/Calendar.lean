import Mathlib.Data.Prod.Lex
import NginLog.Foundation.FixedWidth
import NginLog.Formatting.Utilities

/-!
# The Gregorian calendar

What `gmtime_r` computes from a second after the epoch, and that `strftime`
writes a greater text for a later second as long as the year has four digits.
-/

namespace NginLog
namespace Formatting

open Foundation Record

/-!
## Consecutive spans
-/

/--
The span that a position lies in, counted from the first one, and the position
within it.
-/
def locate (span : Nat -> Nat) : Nat -> Nat -> Nat -> Nat × Nat
  | 0, first, n => (first, n)
  | spans + 1, first, n =>
      if n < span first then
        (first, n)
      else
        locate span spans (first + 1) (n - span first)

def spansLength (span : Nat -> Nat) : Nat -> Nat -> Nat
  | 0, _ => 0
  | spans + 1, first => span first + spansLength span spans (first + 1)

theorem le_locate (span : Nat -> Nat) (spans first n : Nat) :
    first ≤ (locate span spans first n).1 := by
  induction spans generalizing first n with
  | zero => exact Nat.le_refl first
  | succ spans ih =>
      rw [locate]
      split
      · exact Nat.le_refl first
      · exact Nat.le_of_succ_le (ih (first + 1) (n - span first))

theorem locate_lt_locate (span : Nat -> Nat) (spans first : Nat) {n m : Nat}
    (h : n < m) :
    toLex (locate span spans first n) < toLex (locate span spans first m) := by
  induction spans generalizing first n m with
  | zero => exact Prod.Lex.toLex_lt_toLex.mpr (Or.inr ⟨rfl, h⟩)
  | succ spans ih =>
      rw [locate, locate]
      split
      · split
        · exact Prod.Lex.toLex_lt_toLex.mpr (Or.inr ⟨rfl, h⟩)
        · -- Only the greater one lies behind the first span.
          exact Prod.Lex.toLex_lt_toLex.mpr
            (Or.inl (le_locate span spans (first + 1) (m - span first)))
      · rename_i hbehind
        rw [if_neg (by omega)]
        exact ih (first + 1) (by omega)

theorem locate_within (span : Nat -> Nat) (spans first : Nat) {n : Nat}
    (h : n < spansLength span spans first) :
    (locate span spans first n).1 < first + spans ∧
      (locate span spans first n).2 < span (locate span spans first n).1 := by
  induction spans generalizing first n with
  | zero => exact absurd h (Nat.not_lt_zero n)
  | succ spans ih =>
      rw [spansLength] at h
      rw [locate]
      split
      · rename_i hfirst
        exact ⟨by omega, hfirst⟩
      · have hrest := ih (first + 1) (n := n - span first) (by omega)
        exact ⟨by omega, hrest.2⟩

theorem le_spansLength {span : Nat -> Nat} {k : Nat} (h : forall i, k ≤ span i)
    (spans first : Nat) : spans * k ≤ spansLength span spans first := by
  induction spans generalizing first with
  | zero => rw [Nat.zero_mul]; exact Nat.zero_le _
  | succ spans ih =>
      have hrest := ih (first + 1)
      have hfirst := h first
      rw [spansLength, Nat.succ_mul]
      omega

/-!
## Years, months and days
-/

def leapYear (year : Nat) : Bool :=
  year % 4 = 0 && (year % 100 ≠ 0 || year % 400 = 0)

def yearDays (year : Nat) : Nat :=
  if leapYear year then 366 else 365

def monthDays (leap : Bool) : Nat -> Nat
  | 2 => if leap then 29 else 28
  | 4 => 30
  | 6 => 30
  | 9 => 30
  | 11 => 30
  | _ => 31

def yearOf (day : Nat) : Nat × Nat :=
  locate yearDays 600 1970 day

def monthOf (leap : Bool) (dayOfYear : Nat) : Nat × Nat :=
  locate (monthDays leap) 12 1 dayOfYear

theorem spansLength_monthDays (year : Nat) :
    spansLength (monthDays (leapYear year)) 12 1 = yearDays year := by
  rw [yearDays]
  cases leapYear year <;> rfl

theorem monthDays_le (leap : Bool) (month : Nat) :
    monthDays leap month ≤ 31 := by
  unfold monthDays
  split
  · split <;> omega
  all_goals omega

theorem yearOf_within {day : Nat} (h : day < 219000) :
    1970 ≤ (yearOf day).1 ∧ (yearOf day).1 < 2570 ∧
      (yearOf day).2 < yearDays (yearOf day).1 := by
  have hdays : forall year, 365 ≤ yearDays year := by
    intro year
    unfold yearDays
    split <;> omega
  have hbound := le_spansLength hdays 600 1970
  have hwithin := locate_within yearDays 600 1970
    (Nat.lt_of_lt_of_le h hbound)
  exact ⟨le_locate yearDays 600 1970 day, hwithin.1, hwithin.2⟩

theorem monthOf_within {year dayOfYear : Nat} (h : dayOfYear < yearDays year) :
    (monthOf (leapYear year) dayOfYear).1 < 13 ∧
      (monthOf (leapYear year) dayOfYear).2 < 31 := by
  rw [← spansLength_monthDays] at h
  have hwithin := locate_within _ 12 1 h
  have hdays := monthDays_le (leapYear year)
    (monthOf (leapYear year) dayOfYear).1
  exact ⟨hwithin.1, Nat.lt_of_lt_of_le hwithin.2 hdays⟩

def civilTime (second : Nat) : Tm :=
  let year := yearOf (second / 86400)
  let month := monthOf (leapYear year.1) year.2
  let time := second % 86400
  { year := year.1
    month := month.1
    day := month.2 + 1
    hour := time / 3600
    minute := time / 60 % 60
    second := time % 60 }

/-!
## The text of a second
-/

theorem twoDigits_eq_padded {n : Nat} (h : n < 100) :
    twoDigits n = padded 2 n := by
  unfold twoDigits
  split
  · rename_i hone
    have hupper : (decimal n).length ≤ 1 :=
      decimal_length_le (by decide) (by omega)
    have hlower : 0 < (decimal n).length :=
      List.length_pos_of_ne_nil (Json.natural_decimal n).1.1
    have hlength : (decimal n).length = 1 := by omega
    rw [padded, hlength]
    rfl
  · exact (padded_eq_decimal (by omega)).symm

structure Tm.FourDigitYear (time : Tm) (year : Nat) : Prop where
  inYear : time.year = year
  thousands : 1000 ≤ year
  digits : year < 10000
  month : time.month < 100
  day : time.day < 100
  hour : time.hour < 100
  minute : time.minute < 100
  second : time.second < 100

theorem Tm.FourDigitYear.dateTime_eq {time : Tm} {year : Nat}
    (h : time.FourDigitYear year) :
    dateTime time =
      padded 4 year ++ 45 :: (padded 2 time.month ++ 45 :: (padded 2 time.day ++
        84 :: (padded 2 time.hour ++ 58 :: (padded 2 time.minute ++
          58 :: padded 2 time.second)))) := by
  have hyear : signedDecimal time.year = padded 4 year := by
    rw [h.inYear]
    exact (padded_eq_decimal h.thousands).symm
  rw [dateTime, hyear, twoDigits_eq_padded h.month, twoDigits_eq_padded h.day,
    twoDigits_eq_padded h.hour, twoDigits_eq_padded h.minute,
    twoDigits_eq_padded h.second]

theorem Tm.FourDigitYear.length_dateTime {time : Tm} {year : Nat}
    (h : time.FourDigitYear year) : (dateTime time).length = 19 := by
  have htwo : forall n, n < 100 -> (padded 2 n).length = 2 :=
    fun n hn => length_padded (by decide) hn
  have hyear : (padded 4 year).length = 4 := length_padded (by decide) h.digits
  rw [h.dateTime_eq]
  simp only [List.length_append, List.length_cons, hyear, htwo _ h.month,
    htwo _ h.day, htwo _ h.hour, htwo _ h.minute, htwo _ h.second]

def lastCivilSecond : Nat :=
  219000 * 86400

theorem civilTime_fourDigitYear {second : Nat} (h : second < lastCivilSecond) :
    (civilTime second).FourDigitYear (yearOf (second / 86400)).1 := by
  have hday : second / 86400 < 219000 := by
    rw [lastCivilSecond] at h
    omega
  have hyear := yearOf_within hday
  have hmonth := monthOf_within hyear.2.2
  constructor
  · rfl
  · omega
  · omega
  · exact Nat.lt_trans hmonth.1 (by decide)
  · exact Nat.lt_of_lt_of_le (Nat.succ_lt_succ hmonth.2) (by decide)
  · change second % 86400 / 3600 < 100
    omega
  · change second % 86400 / 60 % 60 < 100
    omega
  · change second % 86400 % 60 < 100
    omega

def FieldsBefore (year year' : Nat) (time time' : Tm) : Prop :=
  year < year' ∨ (year = year' ∧
    (time.month < time'.month ∨ (time.month = time'.month ∧
      (time.day < time'.day ∨ (time.day = time'.day ∧
        (time.hour < time'.hour ∨ (time.hour = time'.hour ∧
          (time.minute < time'.minute ∨ (time.minute = time'.minute ∧
            time.second < time'.second)))))))))

theorem FieldsBefore.dateTime_lt {time time' : Tm} {year year' : Nat}
    (h : FieldsBefore year year' time time') (htime : time.FourDigitYear year)
    (htime' : time'.FourDigitYear year') : dateTime time < dateTime time' := by
  rw [htime.dateTime_eq, htime'.dateTime_eq]
  apply field_lt_field 45 htime'.digits (by decide)
  refine h.imp_right (And.imp_right fun h => ?_)
  apply field_lt_field 45 htime'.month (by decide)
  refine h.imp_right (And.imp_right fun h => ?_)
  apply field_lt_field 84 htime'.day (by decide)
  refine h.imp_right (And.imp_right fun h => ?_)
  apply field_lt_field 58 htime'.hour (by decide)
  refine h.imp_right (And.imp_right fun h => ?_)
  apply field_lt_field 58 htime'.minute (by decide)
  refine h.imp_right (And.imp_right fun h => ?_)
  exact padded_lt_padded htime'.second (by decide) h

theorem civilTime_before {second second' : Nat} (h : second < second') :
    FieldsBefore (yearOf (second / 86400)).1 (yearOf (second' / 86400)).1
      (civilTime second) (civilTime second') := by
  rcases Nat.lt_or_ge (second / 86400) (second' / 86400) with hday | hday
  · -- The year and the month are found among spans of days.
    rcases Prod.Lex.toLex_lt_toLex.mp (locate_lt_locate yearDays 600 1970 hday)
      with hyear | ⟨hyear, hdayOfYear⟩
    · exact Or.inl hyear
    · refine Or.inr ⟨hyear, ?_⟩
      have hleap : leapYear (yearOf (second / 86400)).1 =
          leapYear (yearOf (second' / 86400)).1 :=
        congrArg leapYear hyear
      have hmonth := Prod.Lex.toLex_lt_toLex.mp
        (locate_lt_locate (monthDays (leapYear (yearOf (second' / 86400)).1))
          12 1 hdayOfYear)
      dsimp only [civilTime]
      rw [hleap]
      exact hmonth.imp_right
        (And.imp_right fun hdays => Or.inl (Nat.succ_lt_succ hdays))
  · have hsame : second / 86400 = second' / 86400 := by omega
    have htime : second % 86400 < second' % 86400 := by omega
    unfold FieldsBefore
    dsimp only [civilTime]
    rw [hsame]
    refine Or.inr ⟨rfl, Or.inr ⟨rfl, Or.inr ⟨rfl, ?_⟩⟩⟩
    omega

theorem dateTime_civilTime_lt {second second' : Nat} (h : second < second')
    (hlast : second' < lastCivilSecond) :
    dateTime (civilTime second) < dateTime (civilTime second') :=
  (civilTime_before h).dateTime_lt
    (civilTime_fourDigitYear (Nat.lt_trans h hlast))
    (civilTime_fourDigitYear hlast)

end Formatting
end NginLog
