import NginLog.Formatting.Calendar

/-!
# Timestamps sort like time

The text that `AppendTimestamp` writes in the style `Iso8601Utc` is the text of
the second, a dot, nine digits and a `Z`.  All such texts have one length, and
they sort as the timestamps do as soon as the texts of the seconds sort as the
seconds do.
-/

namespace NginLog
namespace Formatting

open Foundation Record

/-!
## The seconds
-/

def lastSecond : Nat :=
  (2 ^ 64 - 1) / 1000000000

/-- What `gmtime_r` and `strftime` write for a second. -/
def secondsText (runtime : Runtime) (second : UInt64) : Bytes :=
  (fillCachedTimeParts runtime TimestampStyle.iso8601Utc second.toInt64).1

/--
The library functions give each second a text of 19 characters, and a later
second a greater one.
-/
structure SecondsSort (runtime : Runtime) : Prop where
  length : forall second : UInt64, second.toNat ≤ lastSecond ->
    (secondsText runtime second).length = 19
  increasing : forall second second' : UInt64, second'.toNat ≤ lastSecond ->
    second < second' ->
    secondsText runtime second < secondsText runtime second'

theorem second_le_lastSecond (t : UInt64) :
    (t / 1000000000).toNat ≤ lastSecond := by
  have hbound := t.toNat_lt
  have hdivisor : (1000000000 : UInt64).toNat = 1000000000 := rfl
  rw [UInt64.toNat_div, hdivisor, lastSecond]
  omega

/-!
## The parts of a rendering
-/

def utcTimestamp (runtime : Runtime) (t : UInt64) : Bytes :=
  appendTimestamp runtime t TimestampStyle.iso8601Utc

/-- The characters before the dot. -/
def secondsPart (rendering : Bytes) : Bytes :=
  rendering.take 19

/-- The characters between the dot and the `Z`. -/
def fractionPart (rendering : Bytes) : Bytes :=
  (rendering.drop 20).take 9

theorem fraction_eq_padded (nanos : UInt64) :
    fraction nanos = padded 9 nanos.toNat :=
  rfl

theorem utcTimestamp_eq (runtime : Runtime) (t : UInt64) :
    utcTimestamp runtime t =
      secondsText runtime (t / 1000000000) ++
        46 :: (padded 9 (t % 1000000000).toNat ++ [90]) := by
  rw [← fraction_eq_padded]
  rfl

theorem nanos_toNat (t : UInt64) :
    (t % 1000000000).toNat = t.toNat % 1000000000 :=
  rfl

theorem nanos_lt (t : UInt64) : t.toNat % 1000000000 < 10 ^ 9 :=
  Nat.mod_lt _ (by decide)

variable {runtime : Runtime}

theorem length_utcTimestamp (hruntime : SecondsSort runtime) (t : UInt64) :
    (utcTimestamp runtime t).length = 30 := by
  have hseconds := hruntime.length _ (second_le_lastSecond t)
  have hdigits := length_padded (by decide) (nanos_lt t)
  rw [utcTimestamp_eq, nanos_toNat, List.length_append, List.length_cons,
    List.length_append, hseconds, hdigits]
  rfl

theorem secondsPart_utcTimestamp (hruntime : SecondsSort runtime)
    (t : UInt64) :
    secondsPart (utcTimestamp runtime t) =
      secondsText runtime (t / 1000000000) := by
  have hseconds := hruntime.length _ (second_le_lastSecond t)
  rw [secondsPart, utcTimestamp_eq, ← hseconds, List.take_left]

theorem fractionPart_utcTimestamp (hruntime : SecondsSort runtime)
    (t : UInt64) :
    fractionPart (utcTimestamp runtime t) =
      padded 9 (t.toNat % 1000000000) := by
  have hseconds := hruntime.length _ (second_le_lastSecond t)
  have hdigits := length_padded (by decide) (nanos_lt t)
  have hbefore : (secondsText runtime (t / 1000000000) ++ [46]).length = 20 := by
    rw [List.length_append, hseconds]
    rfl
  rw [fractionPart, utcTimestamp_eq, nanos_toNat, List.append_cons, ← hbefore,
    List.drop_left]
  nth_rewrite 1 [← hdigits]
  exact List.take_left

/-!
## The order
-/

theorem utcTimestamp_lt (hruntime : SecondsSort runtime) {t t' : UInt64}
    (h : t < t') : utcTimestamp runtime t < utcTimestamp runtime t' := by
  have hdivisor : (1000000000 : UInt64).toNat = 1000000000 := rfl
  have hlt : t.toNat < t'.toNat := h
  have hlast := second_le_lastSecond t
  have hlast' := second_le_lastSecond t'
  rw [utcTimestamp_eq, utcTimestamp_eq, nanos_toNat, nanos_toNat]
  rcases Nat.lt_or_ge (t.toNat / 1000000000) (t'.toNat / 1000000000)
    with hsecond | hsecond
  · apply append_lt_append_of_lt
    · rw [hruntime.length _ hlast, hruntime.length _ hlast']
    · apply hruntime.increasing _ _ hlast'
      rw [UInt64.lt_iff_toNat_lt, UInt64.toNat_div, UInt64.toNat_div, hdivisor]
      exact hsecond
  · -- Within one second the digits after the dot decide.
    have hsame : t / 1000000000 = t' / 1000000000 := by
      rw [← UInt64.toNat_inj, UInt64.toNat_div, UInt64.toNat_div, hdivisor]
      omega
    rw [hsame]
    apply List.append_left_lt
    rw [List.cons_lt_cons_self]
    apply append_lt_append_of_lt
    · rw [length_padded (by decide) (nanos_lt t),
        length_padded (by decide) (nanos_lt t')]
    · apply padded_lt_padded (nanos_lt t') (by decide)
      omega

theorem SecondsSort.injective (hruntime : SecondsSort runtime)
    {second second' : UInt64} (h : second.toNat ≤ lastSecond)
    (h' : second'.toNat ≤ lastSecond)
    (htext : secondsText runtime second = secondsText runtime second') :
    second = second' := by
  rcases Nat.lt_trichotomy second.toNat second'.toNat with hlt | heq | hgt
  · have hless := hruntime.increasing _ _ h' hlt
    rw [htext] at hless
    exact absurd hless (List.lt_irrefl _)
  · exact UInt64.toNat_inj.mp heq
  · have hless := hruntime.increasing _ _ h hgt
    rw [htext] at hless
    exact absurd hless (List.lt_irrefl _)

theorem timestamp_eq_of_parts (hruntime : SecondsSort runtime)
    {t t' : UInt64}
    (hseconds : secondsPart (utcTimestamp runtime t) =
      secondsPart (utcTimestamp runtime t'))
    (hfraction : fractionPart (utcTimestamp runtime t) =
      fractionPart (utcTimestamp runtime t')) :
    t = t' := by
  rw [secondsPart_utcTimestamp hruntime, secondsPart_utcTimestamp hruntime]
    at hseconds
  rw [fractionPart_utcTimestamp hruntime, fractionPart_utcTimestamp hruntime]
    at hfraction
  have hdiv := congrArg UInt64.toNat (hruntime.injective
    (second_le_lastSecond t) (second_le_lastSecond t') hseconds)
  have hmod := congrArg readDecimal hfraction
  have hdivisor : (1000000000 : UInt64).toNat = 1000000000 := rfl
  rw [UInt64.toNat_div, UInt64.toNat_div, hdivisor] at hdiv
  rw [readDecimal_padded, readDecimal_padded] at hmod
  rw [← UInt64.toNat_inj]
  omega

theorem iso_timestamps_sort_like_time (runtime : Runtime)
    (hruntime : SecondsSort runtime) :
    (forall t t' : UInt64, t < t' ->
      (utcTimestamp runtime t).length = (utcTimestamp runtime t').length ∧
        utcTimestamp runtime t < utcTimestamp runtime t') ∧
      (forall t : UInt64,
        secondsPart (utcTimestamp runtime t) =
            secondsText runtime (t / 1000000000) ∧
          (fractionPart (utcTimestamp runtime t)).length = 9 ∧
          (forall b, b ∈ fractionPart (utcTimestamp runtime t) ->
            Json.IsDigit b) ∧
          readDecimal (fractionPart (utcTimestamp runtime t)) =
            t.toNat % 10 ^ 9) ∧
      (forall t t' : UInt64,
        secondsPart (utcTimestamp runtime t) =
            secondsPart (utcTimestamp runtime t') ->
          fractionPart (utcTimestamp runtime t) =
            fractionPart (utcTimestamp runtime t') ->
          t = t') := by
  refine ⟨?_, ?_, ?_⟩
  · intro t t' h
    constructor
    · rw [length_utcTimestamp hruntime, length_utcTimestamp hruntime]
    · exact utcTimestamp_lt hruntime h
  · intro t
    refine ⟨secondsPart_utcTimestamp hruntime t, ?_⟩
    rw [fractionPart_utcTimestamp hruntime]
    exact ⟨length_padded (by decide) (nanos_lt t),
      fun b hb => isDigit_of_mem_padded hb, readDecimal_padded _ _⟩
  · intro t t' hseconds hfraction
    exact timestamp_eq_of_parts hruntime hseconds hfraction

/-!
## The Gregorian calendar sorts
-/

def gregorian : Runtime where
  gmtime := fun second =>
    if 0 ≤ second.toInt then some (civilTime second.toInt.toNat) else none
  localtime := fun _ => none
  formatDouble := fun _ => Except.ok (ascii "0")

theorem secondsText_gregorian {second : UInt64}
    (h : second.toNat ≤ lastSecond) :
    secondsText gregorian second = dateTime (civilTime second.toNat) ∧
      second.toNat < lastCivilSecond := by
  have hbound : lastSecond < lastCivilSecond := by decide
  have hlast : second.toNat < lastCivilSecond := Nat.lt_of_le_of_lt h hbound
  have hint : second.toInt64.toInt = second.toNat := by
    rw [← Int64.toInt_toBitVec, UInt64.toBitVec_toInt64]
    exact BitVec.toInt_eq_toNat_of_lt (by
      rw [UInt64.toNat_toBitVec]
      rw [lastCivilSecond] at hlast
      omega)
  have hlength := (civilTime_fourDigitYear hlast).length_dateTime
  constructor
  · simp only [secondsText, fillCachedTimeParts, gregorian, hint,
      Int.natCast_nonneg, if_true, Option.getD_some, Int.toNat_natCast,
      strftime, hlength]
    rfl
  · exact hlast

theorem gregorian_secondsSort : SecondsSort gregorian := by
  constructor
  · intro second h
    have htext := secondsText_gregorian h
    rw [htext.1]
    exact (civilTime_fourDigitYear htext.2).length_dateTime
  · intro second second' hlast h
    have hlt : second.toNat < second'.toNat := h
    have htext' := secondsText_gregorian hlast
    have htext := secondsText_gregorian (Nat.le_trans (Nat.le_of_lt hlt) hlast)
    rw [htext.1, htext'.1]
    exact dateTime_civilTime_lt hlt htext'.2

theorem leap_day_sorts :
    utcTimestamp gregorian 951782399999999999 <
        utcTimestamp gregorian 951782400000000007 ∧
      readDecimal (fractionPart (utcTimestamp gregorian 951782400000000007)) =
        7 := by
  have hsorts := iso_timestamps_sort_like_time gregorian gregorian_secondsSort
  exact ⟨(hsorts.1 _ _ (by decide)).2, (hsorts.2.1 951782400000000007).2.2.2⟩

example : utcTimestamp gregorian 951782400000000007 =
    ascii "2000-02-29T00:00:00.000000007Z" := by decide

end Formatting
end NginLog
