import NginLog.Foundation.Json

/-!
# Reading the members of an object one by one

An object whose first member is known up to its value can be read on from the
comma after it.  This needs the value to end where it seems to: a string ends at
its quote, and a text without the bytes that end or nest values ends before the
first such byte.
-/

namespace NginLog
namespace Foundation

namespace Json

def Opens (b : UInt8) : Prop :=
  b = 34 ∨ b = 91 ∨ b = 123

def Bare (t : List UInt8) : Prop :=
  t ≠ [] ∧ forall b, b ∈ t -> ¬ Follows b ∧ ¬ Opens b

instance (b : UInt8) : Decidable (Follows b) :=
  inferInstanceAs (Decidable (_ ∨ _))

instance (b : UInt8) : Decidable (Opens b) :=
  inferInstanceAs (Decidable (_ ∨ _))

instance (t : List UInt8) : Decidable (Bare t) :=
  decidable_of_iff
    (t ≠ [] ∧ t.all (fun b => decide (¬ Follows b ∧ ¬ Opens b)) = true)
    (by simp [Bare, List.all_eq_true])

theorem front_unique {first second rest rest' : List UInt8} {b b' : UInt8}
    (hfirst : forall c, c ∈ first -> ¬ Follows c)
    (hsecond : forall c, c ∈ second -> ¬ Follows c)
    (hb : Follows b) (hb' : Follows b')
    (h : first ++ b :: rest = second ++ b' :: rest') :
    first = second ∧ b = b' ∧ rest = rest' := by
  induction first generalizing second with
  | nil =>
      cases second with
      | nil => exact ⟨rfl, List.cons.inj h⟩
      | cons c more =>
          have hc := hsecond c List.mem_cons_self
          rw [← (List.cons.inj h).1] at hc
          exact absurd hb hc
  | cons c more ih =>
      cases second with
      | nil =>
          have hc := hfirst c List.mem_cons_self
          rw [(List.cons.inj h).1] at hc
          exact absurd hb' hc
      | cons c' more' =>
          rcases List.cons.inj h with ⟨rfl, hrest⟩
          rcases ih (fun d hd => hfirst d (List.mem_cons_of_mem _ hd))
            (fun d hd => hsecond d (List.mem_cons_of_mem _ hd)) hrest with
            ⟨rfl, hend⟩
          exact ⟨rfl, hend⟩

/-!
## Bare values
-/

theorem Number.bytes {t : List UInt8} (h : Number t) :
    forall b, b ∈ t -> IsDigit b ∨ b ∈ ([43, 45, 46, 69, 101] : List UInt8) := by
  rcases h with ⟨sign, natural, fraction, exponent, hsign, hnatural, hfraction,
    hexponent, rfl⟩
  intro b hb
  simp only [List.mem_append] at hb
  rcases hb with ((hb | hb) | hb) | hb
  · rcases hsign with rfl | rfl
    · cases hb
    · rw [List.mem_singleton.mp hb]
      exact Or.inr (by decide)
  · exact Or.inl (hnatural.1.2 b hb)
  · rcases hfraction with rfl | ⟨digits, hdigits, rfl⟩
    · cases hb
    · rcases List.mem_cons.mp hb with rfl | hb
      · exact Or.inr (by decide)
      · exact Or.inl (hdigits.2 b hb)
  · rcases hexponent with rfl | ⟨e, sign, digits, he, hsign', hdigits, rfl⟩
    · cases hb
    · rcases List.mem_cons.mp hb with rfl | hb
      · rcases he with rfl | rfl <;> exact Or.inr (by decide)
      · rcases List.mem_append.mp hb with hb | hb
        · rcases hsign' with rfl | rfl | rfl
          · cases hb
          · rw [List.mem_singleton.mp hb]
            exact Or.inr (by decide)
          · rw [List.mem_singleton.mp hb]
            exact Or.inr (by decide)
        · exact Or.inl (hdigits.2 b hb)

theorem Number.bare {t : List UInt8} (h : Number t) : Bare t := by
  constructor
  · rcases h.starts with ⟨b, rest, rfl, _⟩
    exact List.cons_ne_nil _ _
  · intro b hb
    have hbytes := h.bytes b hb
    constructor
    · rintro (rfl | rfl | rfl | rfl | rfl | rfl) <;>
        exact absurd hbytes (by decide)
    · rintro (rfl | rfl | rfl) <;> exact absurd hbytes (by decide)

def words : List (List UInt8) :=
  [ [116, 114, 117, 101], [102, 97, 108, 115, 101], [110, 117, 108, 108] ]

theorem Value.number_or_word {c : UInt8} {t : List UInt8} (h : Value (c :: t))
    (hc : ¬ Opens c) : Number (c :: t) ∨ c :: t ∈ words := by
  generalize htext : c :: t = text at h
  cases h with
  | string _ => exact absurd (Or.inl (List.cons.inj htext).1) hc
  | number h => exact Or.inl h
  | true => exact Or.inr (by decide)
  | false => exact Or.inr (by decide)
  | null => exact Or.inr (by decide)
  | object h =>
      cases h <;> exact absurd (Or.inr (Or.inr (List.cons.inj htext).1)) hc
  | array h =>
      cases h <;> exact absurd (Or.inr (Or.inl (List.cons.inj htext).1)) hc

theorem bare_of_word {word : List UInt8} (h : word ∈ words) : Bare word := by
  simp only [words, List.mem_cons, List.not_mem_nil, or_false] at h
  rcases h with rfl | rfl | rfl <;> decide

theorem Value.bare_of_byte {c : UInt8} {t : List UInt8} (h : Value (c :: t))
    (hc : ¬ Opens c) : Bare (c :: t) := by
  rcases h.number_or_word hc with hnumber | hword
  · exact hnumber.bare
  · exact bare_of_word hword

theorem Value.string_of_quote {t : List UInt8} (h : Value (34 :: t)) :
    exists contents, Chars contents ∧ t = contents ++ [34] := by
  generalize htext : 34 :: t = text at h
  cases h with
  | string hcontents => exact ⟨_, hcontents, (List.cons.inj htext).2⟩
  | number h =>
      rw [← htext] at h
      exact absurd (h.bare.2 34 List.mem_cons_self).2 (by decide)
  | true => cases htext
  | false => cases htext
  | null => cases htext
  | object h => cases h <;> cases htext
  | array h => cases h <;> cases htext

/-!
## One member
-/

/-- A text whose end is known before it is known to be a value. -/
def Closed (text : List UInt8) : Prop :=
  (exists contents, Chars contents ∧ text = quoted contents) ∨ Bare text

theorem Closed.starts {text : List UInt8} (h : Closed text) :
    exists c rest, text = c :: rest ∧ ¬ (c = 32 ∨ c = 9 ∨ c = 10 ∨ c = 13) := by
  rcases h with ⟨contents, _, rfl⟩ | hbare
  · exact ⟨34, _, rfl, by decide⟩
  · cases text with
    | nil => exact absurd rfl hbare.1
    | cons c rest =>
        refine ⟨c, rest, rfl, fun hspace => (hbare.2 c List.mem_cons_self).1 ?_⟩
        rcases hspace with rfl | rfl | rfl | rfl <;> decide

theorem Closed.eq_value {text value rest rest' : List UInt8} {b b' : UInt8}
    (htext : Closed text) (hvalue : Value value) (hb : Follows b)
    (hb' : Follows b') (h : value ++ b' :: rest' = text ++ b :: rest) :
    value = text ∧ b' = b ∧ rest' = rest := by
  rcases htext with ⟨contents, hcontents, rfl⟩ | hbare
  · rw [quoted, List.cons_append] at h
    cases value with
    | nil => exact absurd (List.cons.inj h).1 (fun heq => by
        rw [heq] at hb'
        exact absurd hb' (by decide))
    | cons c more =>
        rw [List.cons_append, List.cons.injEq] at h
        rcases h with ⟨rfl, hrest⟩
        rcases hvalue.string_of_quote with ⟨contents', hcontents', rfl⟩
        rw [List.append_assoc, List.append_assoc] at hrest
        rcases hcontents'.eq_of_quote hcontents hrest with ⟨rfl, hend⟩
        rcases List.cons.inj hend with ⟨hbyte, hend⟩
        exact ⟨rfl, hbyte, hend⟩
  · have hstart : exists c more, value = c :: more := by
      cases value with
      | cons c more => exact ⟨c, more, rfl⟩
      | nil =>
          -- A value is not empty: it would end before it starts.
          rcases hvalue.number_or_starts with hnumber | ⟨_, _, heq, _⟩
          · exact absurd rfl hnumber.bare.1
          · cases heq
    rcases hstart with ⟨c, more, rfl⟩
    have hc : ¬ Opens c := by
      cases text with
      | nil => exact absurd rfl hbare.1
      | cons d others =>
          rw [(List.cons.inj h).1]
          exact (hbare.2 d List.mem_cons_self).2
    have hvaluebare := hvalue.bare_of_byte hc
    exact front_unique (fun d hd => (hvaluebare.2 d hd).1)
      (fun d hd => (hbare.2 d hd).1) hb' hb h

theorem Member.closed_of_key {t key text more rest : List UInt8} {b b' : UInt8}
    (ht : Member t) (hkey : Chars key) (htext : Closed text)
    (hb : b = 44 ∨ b = 125) (hb' : b' = 44 ∨ b' = 125)
    (h : t ++ b' :: rest = quoted key ++ 58 :: (text ++ b :: more)) :
    Value text ∧ b' = b ∧ rest = more := by
  have hends : forall c : UInt8, c = 44 ∨ c = 125 -> Follows c := by
    rintro c (rfl | rfl) <;> decide
  rcases ht.split_of_key hkey h with
    ⟨before, value, after, hbefore, hvalue, hafter, hbody⟩
  rcases htext.starts with ⟨c, others, hstart, hc⟩
  rw [hstart, List.cons_append] at hbody
  have hnone := hbefore.eq_nil hbody.symm hc
  rw [hnone, List.nil_append, ← List.cons_append, ← hstart] at hbody
  rcases @Space.follows _ rest _ hafter (hends b' hb') with
    ⟨b'', rest', hfollow, hb''⟩
  rw [hfollow] at hbody
  rcases htext.eq_value hvalue (hends b hb) hb'' hbody.symm with
    ⟨rfl, rfl, rfl⟩
  have hnone' := hafter.eq_nil hfollow (by
    rcases hb with rfl | rfl <;> decide)
  rw [hnone', List.nil_append, List.cons.injEq] at hfollow
  exact ⟨hvalue, hfollow⟩

theorem Object.first_member {key text more : List UInt8} {b : UInt8}
    (hkey : Chars key) (htext : Closed text) (hb : b = 44 ∨ b = 125)
    (h : Object (123 :: (member key text ++ b :: more))) :
    Value text ∧ (b = 44 -> Object (123 :: more)) := by
  rw [member, List.append_assoc, List.cons_append] at h
  generalize hall : 123 :: (quoted key ++ 58 :: (text ++ b :: more)) = all at h
  cases h with
  | empty hspace =>
      have heq := (List.cons.inj hall).2.symm
      have hnone := hspace.eq_nil heq (by decide)
      rw [hnone] at heq
      exact absurd (List.cons.inj heq).1 (by decide)
  | members hmembers =>
      have heq := (List.cons.inj hall).2.symm
      cases hmembers with
      | one hmember =>
          rcases hmember.closed_of_key hkey htext hb (Or.inr rfl) heq with
            ⟨hvalue, rfl, _⟩
          exact ⟨hvalue, fun hcomma => absurd hcomma (by decide)⟩
      | more hmember hrest =>
          rw [List.append_assoc] at heq
          rcases hmember.closed_of_key hkey htext hb (Or.inl rfl) heq with
            ⟨hvalue, _, rfl⟩
          exact ⟨hvalue, fun _ => Object.members hrest⟩

/-!
## All members
-/

def memberList : List (List UInt8 × List UInt8) -> List UInt8
  | [] => []
  | first :: rest =>
      member first.1 first.2 ++ rest.flatMap fun m => 44 :: member m.1 m.2

theorem object_memberList_iff {members : List (List UInt8 × List UInt8)}
    (hkeys : forall m, m ∈ members -> Chars m.1)
    (htexts : forall m, m ∈ members -> Closed m.2) :
    Object (123 :: (memberList members ++ [125])) <->
      forall m, m ∈ members -> Value m.2 := by
  constructor
  · intro h
    induction members with
    | nil => exact fun m hm => absurd hm List.not_mem_nil
    | cons first rest ih =>
        have hkey := hkeys first List.mem_cons_self
        have htext := htexts first List.mem_cons_self
        cases rest with
        | nil =>
            rw [memberList, List.flatMap_nil, List.append_nil] at h
            have hfirst := (h.first_member hkey htext (Or.inr rfl)).1
            intro m hm
            rw [List.mem_singleton.mp hm]
            exact hfirst
        | cons second others =>
            rw [memberList, List.flatMap_cons, List.append_assoc,
              List.cons_append, List.cons_append] at h
            rcases h.first_member hkey htext (Or.inl rfl) with ⟨hfirst, hmore⟩
            have hrest := ih (fun m hm => hkeys m (List.mem_cons_of_mem _ hm))
              (fun m hm => htexts m (List.mem_cons_of_mem _ hm)) (hmore rfl)
            intro m hm
            rcases List.mem_cons.mp hm with rfl | hm
            · exact hfirst
            · exact hrest m hm
  · intro h
    cases members with
    | nil => exact Object.empty Space.nil
    | cons first rest =>
        apply Object.members
        have hmember : forall m, m ∈ first :: rest ->
            Member (member m.1 m.2) := fun m hm =>
          Member.of_value (hkeys m hm) (h m hm)
        have hothers : forall t, t ∈ rest.map (fun m => member m.1 m.2) ->
            Member t := by
          intro t ht
          rcases List.mem_map.mp ht with ⟨m, hm, rfl⟩
          exact hmember m (List.mem_cons_of_mem _ hm)
        have hmembers := Members.of_list (hmember first List.mem_cons_self)
          hothers
        rw [List.flatMap_map] at hmembers
        exact hmembers

end Json

end Foundation
end NginLog
