import NginLog.Foundation.JsonMembers
import NginLog.Formatting.JsonRecordFormatter

/-!
# Doubles among the JSON attributes

One helper writes doubles for all formatters, and it writes infinities and
not-a-numbers as words.  The attributes are members of a JSON object as long as
there is no such word among their values.
-/

namespace NginLog
namespace Formatting

open Foundation Record

def nonFiniteWords : List Bytes :=
  [ascii "inf", ascii "-inf", ascii "nan", ascii "-nan"]

/-- The library writes the other doubles as words. -/
def WritesNonFinite (runtime : Runtime) : Prop :=
  forall v : Double, ¬ v.Finite ->
    exists text, runtime.formatDouble v = Except.ok text ∧
      text ∈ nonFiniteWords

/-- The text between the braces is a sequence of members. -/
def AttributesAreMembers (runtime : Runtime)
    (attributes : List (LogAttribute Bytes)) : Prop :=
  Json.Object (123 :: (appendJsonAttributes runtime attributes ++ [125]))

theorem appendJsonAttributes_eq (runtime : Runtime)
    (attributes : List (LogAttribute Bytes)) :
    appendJsonAttributes runtime attributes =
      Json.memberList (attributes.map fun a =>
        (appendJsonEscapedText a.key,
          appendJsonAttributeValue runtime a.value)) := by
  cases attributes with
  | nil => rfl
  | cons first rest =>
      rw [appendJsonAttributes, List.map_cons, Json.memberList,
        List.flatMap_map, appendJsonAttribute_eq]
      simp only [appendJsonAttribute_eq]
      rfl

theorem nonFiniteWord_spec {text : Bytes} (h : text ∈ nonFiniteWords) :
    Json.Bare text ∧ ¬ Json.Value text := by
  -- The byte `n` is in all of them and in no number.
  have hword : Json.Bare text ∧ text ∉ Json.words ∧ (110 : UInt8) ∈ text := by
    simp only [nonFiniteWords, List.mem_cons, List.not_mem_nil, or_false] at h
    rcases h with rfl | rfl | rfl | rfl <;> decide
  rcases hword with ⟨hbare, hliteral, hbyte⟩
  refine ⟨hbare, fun hvalue => ?_⟩
  have hstart : exists b rest, text = b :: rest ∧ ¬ Json.Opens b := by
    cases text with
    | nil => exact absurd rfl hbare.1
    | cons b rest => exact ⟨b, rest, rfl, (hbare.2 b List.mem_cons_self).2⟩
  rcases hstart with ⟨b, rest, rfl, hb⟩
  rcases hvalue.number_or_word hb with hnumber | hcase
  · exact absurd (hnumber.bytes 110 hbyte) (by decide)
  · exact hliteral hcase

theorem closed_appendJsonAttributeValue {runtime : Runtime}
    (hfinite : FormatsDoubles runtime) (hwords : WritesNonFinite runtime)
    (value : AttributeValue Bytes) :
    Json.Closed (appendJsonAttributeValue runtime value) := by
  cases value with
  | int64 v => exact Or.inr (Json.number_signedDecimal _).bare
  | uint64 v => exact Or.inr (Json.number_decimal _).bare
  | double v =>
      rw [appendJsonAttributeValue, appendDouble]
      by_cases hv : v.Finite
      · rcases hfinite v hv with ⟨text, htext, hnumber⟩
        rw [htext]
        exact Or.inr hnumber.bare
      · rcases hwords v hv with ⟨text, htext, hword⟩
        rw [htext]
        exact Or.inr (nonFiniteWord_spec hword).1
  | bool v =>
      apply Or.inr
      apply Json.bare_of_word
      cases v with
      | false => exact (by decide : ascii "false" ∈ Json.words)
      | true => exact (by decide : ascii "true" ∈ Json.words)
  | text v => exact Or.inl ⟨_, chars_appendJsonEscapedText v, rfl⟩

theorem value_appendJsonAttributeValue_iff {runtime : Runtime}
    (hfinite : FormatsDoubles runtime) (hwords : WritesNonFinite runtime)
    (value : AttributeValue Bytes) :
    Json.Value (appendJsonAttributeValue runtime value) <->
      forall v, value = AttributeValue.double v -> v.Finite := by
  constructor
  · rintro hvalue v rfl
    by_contra hv
    rcases hwords v hv with ⟨text, htext, hword⟩
    rw [appendJsonAttributeValue, appendDouble, htext] at hvalue
    exact (nonFiniteWord_spec hword).2 hvalue
  · exact value_appendJsonAttributeValue hfinite

/-- The attributes are members exactly if all doubles among them are finite. -/
theorem attributes_are_members_iff (runtime : Runtime)
    (hfinite : FormatsDoubles runtime) (hwords : WritesNonFinite runtime)
    (attributes : List (LogAttribute Bytes)) :
    AttributesAreMembers runtime attributes <->
      forall a v, a ∈ attributes -> a.value = AttributeValue.double v ->
        v.Finite := by
  rw [AttributesAreMembers, appendJsonAttributes_eq,
    Json.object_memberList_iff]
  · simp only [List.forall_mem_map,
      value_appendJsonAttributeValue_iff hfinite hwords]
    exact ⟨fun h a v ha => h a ha v, fun h a ha v => h a v ha⟩
  · rw [List.forall_mem_map]
    exact fun a _ => chars_appendJsonEscapedText a.key
  · rw [List.forall_mem_map]
    exact fun a _ => closed_appendJsonAttributeValue hfinite hwords a.value

def coarseRuntime : Runtime where
  gmtime := fun _ => none
  localtime := fun _ => none
  formatDouble := fun v =>
    Except.ok (if v.Finite then ascii "0"
      else if v.bits = 0x7FF0000000000000 then ascii "inf"
      else if v.bits = 0xFFF0000000000000 then ascii "-inf"
      else if v.bits < 0x8000000000000000 then ascii "nan"
      else ascii "-nan")

theorem coarseRuntime_formatsDoubles : FormatsDoubles coarseRuntime := by
  intro v hv
  refine ⟨_, rfl, ?_⟩
  rw [if_pos hv]
  exact Json.number_decimal 0

theorem coarseRuntime_writesNonFinite : WritesNonFinite coarseRuntime := by
  intro v hv
  refine ⟨_, rfl, ?_⟩
  rw [if_neg hv]
  split_ifs <;> decide

def oneDouble (bits : UInt64) : List (LogAttribute Bytes) :=
  [{ key := ascii "k", value := AttributeValue.double ⟨bits⟩ }]

theorem finite_double_is_member :
    AttributesAreMembers coarseRuntime (oneDouble 0x3FF8000000000000) := by
  refine (attributes_are_members_iff coarseRuntime coarseRuntime_formatsDoubles
    coarseRuntime_writesNonFinite _).mpr ?_
  intro a v ha hv
  rw [List.mem_singleton.mp ha] at hv
  cases hv
  decide

/-- One divided by zero is written as a word that JSON does not have. -/
theorem infinite_double_is_no_member :
    FormatsDoubles coarseRuntime ∧ WritesNonFinite coarseRuntime ∧
      ¬ AttributesAreMembers coarseRuntime (oneDouble 0x7FF0000000000000) := by
  refine ⟨coarseRuntime_formatsDoubles, coarseRuntime_writesNonFinite, ?_⟩
  intro hmembers
  have htext : appendJsonAttributes coarseRuntime
      (oneDouble 0x7FF0000000000000) =
        Json.member (ascii "k") (ascii "inf") := by
    decide
  rw [AttributesAreMembers, htext] at hmembers
  have hkey : Json.Chars (ascii "k") := Json.Chars.of_plain (by decide)
  exact Json.Object.not_of_byte hkey (by decide) (by decide) (by decide)
    hmembers

end Formatting
end NginLog
