import NginLog.Foundation.JsonReader

/-!
# The reader accepts JSON only

Whatever the reader takes off the front of a text is what the grammar says that
it is, so a text that is read as a document is a JSON value between spaces.
-/

namespace NginLog
namespace Foundation

namespace Json

/-!
## Strings
-/

theorem space_of_all {t : List UInt8} (h : t.all isSpace = true) : Space t := by
  intro b hb
  exact of_decide_eq_true (List.all_eq_true.mp h b hb)

theorem readByte_some {t rest : List UInt8} {b : UInt8}
    (h : readByte t = some (b, rest)) :
    exists space, Space space ∧ t = space ++ b :: rest := by
  unfold readByte at h
  split at h
  · cases h
  · rename_i b' rest' hdrop
    cases h
    refine ⟨t.takeWhile isSpace, space_of_all List.all_takeWhile, ?_⟩
    rw [← hdrop, List.takeWhile_append_dropWhile]

theorem isHexDigit_of_hexValue {b : UInt8} {d : Nat}
    (h : hexValue b = some d) : IsHexDigit b := by
  unfold hexValue at h
  split_ifs at h with hdigit hlower hupper
  · exact Or.inl hdigit
  · exact Or.inr (Or.inr hlower)
  · exact Or.inr (Or.inl hupper)

theorem readHex4_some {t rest : List UInt8} {code : Nat}
    (h : readHex4 t = some (code, rest)) :
    exists digits, t = digits ++ rest ∧
      forall contents, Chars contents ->
        Chars (92 :: 117 :: (digits ++ contents)) := by
  unfold readHex4 at h
  split at h
  · rename_i b₁ b₂ b₃ b₄ rest'
    rcases Option.bind_eq_some_iff.mp h with ⟨_, h₁, h⟩
    rcases Option.bind_eq_some_iff.mp h with ⟨_, h₂, h⟩
    rcases Option.bind_eq_some_iff.mp h with ⟨_, h₃, h⟩
    rcases Option.map_eq_some_iff.mp h with ⟨_, h₄, h⟩
    cases h
    refine ⟨[b₁, b₂, b₃, b₄], rfl, fun contents hcontents => ?_⟩
    exact Chars.unicode (isHexDigit_of_hexValue h₁) (isHexDigit_of_hexValue h₂)
      (isHexDigit_of_hexValue h₃) (isHexDigit_of_hexValue h₄) hcontents
  · cases h

theorem readUnicode_some {t rest bytes : List UInt8}
    (h : readUnicode t = some (bytes, rest)) :
    exists escape, t = escape ++ rest ∧
      forall contents, Chars contents ->
        Chars (92 :: 117 :: (escape ++ contents)) := by
  rcases Option.bind_eq_some_iff.mp h with ⟨⟨code, t'⟩, hfirst, hrest⟩
  rcases readHex4_some hfirst with ⟨digits, rfl, hdigits⟩
  simp only at hrest
  split_ifs at hrest with hcode hpair
  · cases hrest
    exact ⟨digits, rfl, hdigits⟩
  · -- A pair of surrogates is two escapes of the grammar.
    rcases Option.bind_eq_some_iff.mp hrest with ⟨⟨low, t''⟩, hsecond, hlow⟩
    rcases readHex4_some hsecond with ⟨digits', hdrop, hdigits'⟩
    simp only at hlow
    split_ifs at hlow
    have hleft : t'' = rest := (Prod.mk.inj (Option.some.inj hlow)).2
    subst hleft
    refine ⟨digits ++ ([92, 117] ++ digits'), ?_, fun contents hcontents => ?_⟩
    · rw [List.append_assoc, List.append_assoc, ← hdrop, ← hpair.2,
        List.take_append_drop]
    · have hsplit : digits ++ ([92, 117] ++ digits') ++ contents =
          digits ++ (92 :: 117 :: (digits' ++ contents)) := by simp
      rw [hsplit]
      exact hdigits _ (hdigits' _ hcontents)

theorem readEscape_some {t rest bytes : List UInt8}
    (h : readEscape t = some (bytes, rest)) :
    exists escape, t = escape ++ rest ∧
      forall contents, Chars contents -> Chars (92 :: (escape ++ contents)) := by
  unfold readEscape at h
  split at h
  · cases h
  · rename_i b rest'
    have hone : forall c : UInt8,
        c ∈ ([34, 92, 47, 98, 102, 110, 114, 116] : List UInt8) ->
        exists escape, c :: rest' = escape ++ rest' ∧
          forall contents, Chars contents ->
            Chars (92 :: (escape ++ contents)) := by
      intro c hc
      exact ⟨[c], rfl, fun contents hcontents => Chars.escape hc hcontents⟩
    split_ifs at h with hself h98 h102 h110 h114 h116 h117
    · cases h
      apply hone
      rcases hself with rfl | rfl | rfl <;> decide
    · cases h
      exact hone b (by rw [h98]; decide)
    · cases h
      exact hone b (by rw [h102]; decide)
    · cases h
      exact hone b (by rw [h110]; decide)
    · cases h
      exact hone b (by rw [h114]; decide)
    · cases h
      exact hone b (by rw [h116]; decide)
    · rcases readUnicode_some h with ⟨escape, rfl, hchars⟩
      exact ⟨117 :: escape, by rw [h117]; rfl, hchars⟩

theorem readChars_some {fuel : Nat} {t rest bytes : List UInt8}
    (h : readChars fuel t = some (bytes, rest)) :
    exists contents, Chars contents ∧ t = contents ++ 34 :: rest := by
  induction fuel generalizing t bytes with
  | zero => simp [readChars] at h
  | succ fuel ih =>
      cases t with
      | nil => simp [readChars] at h
      | cons b t =>
          rw [readChars] at h
          split_ifs at h with hquote hslash hcontrol
          · cases h
            exact ⟨[], Chars.nil, by rw [hquote]; rfl⟩
          · rcases Option.bind_eq_some_iff.mp h with ⟨⟨_, t'⟩, hescape, h⟩
            rcases Option.map_eq_some_iff.mp h with ⟨⟨_, t''⟩, hrest, h⟩
            cases h
            rcases readEscape_some hescape with ⟨escape, rfl, hchars⟩
            rcases ih hrest with ⟨contents, hcontents, rfl⟩
            refine ⟨92 :: (escape ++ contents), hchars contents hcontents, ?_⟩
            rw [hslash]
            simp
          · rcases Option.map_eq_some_iff.mp h with ⟨⟨_, t'⟩, hrest, h⟩
            cases h
            rcases ih hrest with ⟨contents, hcontents, rfl⟩
            exact ⟨b :: contents, Chars.plain (UInt8.not_lt.mp hcontrol) hquote
              hslash hcontents, rfl⟩

/-!
## Numbers
-/

theorem readDigits_some {t rest digits : List UInt8}
    (h : readDigits t = some (digits, rest)) :
    Digits digits ∧ t = digits ++ rest := by
  unfold readDigits at h
  simp only at h
  split_ifs at h with hempty
  cases h
  refine ⟨⟨hempty, fun b hb => ?_⟩, List.takeWhile_append_dropWhile.symm⟩
  exact of_decide_eq_true (List.all_eq_true.mp List.all_takeWhile b hb)

theorem readNatural_some {t rest digits : List UInt8}
    (h : readNatural t = some (digits, rest)) :
    Natural digits ∧ t = digits ++ rest := by
  rcases Option.bind_eq_some_iff.mp h with ⟨⟨digits', t'⟩, hdigits, h⟩
  simp only at h
  split_ifs at h with hzero
  cases h
  rcases readDigits_some hdigits with ⟨hall, htext⟩
  refine ⟨⟨hall, fun hhead => ?_⟩, htext⟩
  by_contra hne
  exact hzero ⟨hhead, hne⟩

theorem readFraction_some {t rest digits : List UInt8}
    (h : readFraction t = some (digits, rest)) :
    exists text, Fraction text ∧ t = text ++ rest := by
  cases t with
  | nil =>
      cases h
      exact ⟨[], Or.inl rfl, rfl⟩
  | cons b t =>
      rw [readFraction] at h
      split_ifs at h with hpoint
      · rcases readDigits_some h with ⟨hdigits, rfl⟩
        exact ⟨46 :: digits, Or.inr ⟨digits, hdigits, rfl⟩, by rw [hpoint]; rfl⟩
      · cases h
        exact ⟨[], Or.inl rfl, rfl⟩

theorem readSign_split (t : List UInt8) :
    exists minus, (minus = [] ∨ minus = [45]) ∧
      t = minus ++ (readSign t).2 := by
  cases t with
  | nil => exact ⟨[], Or.inl rfl, rfl⟩
  | cons b t =>
      rw [readSign]
      split
      · rename_i hminus
        exact ⟨[45], Or.inr rfl, by rw [hminus]; rfl⟩
      · exact ⟨[], Or.inl rfl, rfl⟩

theorem readExponent_some {t rest : List UInt8} {exponent : Int}
    (h : readExponent t = some (exponent, rest)) :
    exists text, Exponent text ∧ t = text ++ rest := by
  cases t with
  | nil =>
      cases h
      exact ⟨[], Or.inl rfl, rfl⟩
  | cons b t =>
      rw [readExponent] at h
      split_ifs at h with he hplus
      · rcases Option.map_eq_some_iff.mp h with ⟨⟨digits, t'⟩, hread, h⟩
        cases h
        rcases readDigits_some hread with ⟨hdigits, htail⟩
        have htext : t = 43 :: (digits ++ rest) := by
          cases t with
          | nil => cases hplus
          | cons c t =>
              rw [List.head?_cons, Option.some.injEq] at hplus
              rw [hplus]
              exact congrArg (43 :: ·) htail
        refine ⟨b :: ([43] ++ digits), Or.inr ⟨b, [43], digits, he,
          Or.inr (Or.inl rfl), hdigits, rfl⟩, ?_⟩
        rw [htext]
        rfl
      · rcases readSign_split t with ⟨minus, hminus, htext⟩
        generalize readSign t = signed at h htext
        rcases Option.map_eq_some_iff.mp h with ⟨⟨digits, t'⟩, hread, h⟩
        cases h
        rcases readDigits_some hread with ⟨hdigits, htail⟩
        have hsign : minus = [] ∨ minus = [43] ∨ minus = [45] :=
          hminus.imp id Or.inr
        refine ⟨b :: (minus ++ digits), Or.inr ⟨b, minus, digits, he, hsign,
          hdigits, rfl⟩, ?_⟩
        rw [htext, htail, List.cons_append, List.append_assoc]
      · cases h
        exact ⟨[], Or.inl rfl, rfl⟩

theorem readNumber_some {t rest : List UInt8} {document : Document}
    (h : readNumber t = some (document, rest)) :
    exists text, Number text ∧ t = text ++ rest := by
  rcases readSign_split t with ⟨minus, hminus, htext⟩
  unfold readNumber at h
  generalize readSign t = signed at h htext
  rcases Option.bind_eq_some_iff.mp h with ⟨⟨natural, t₁⟩, hnatural, h⟩
  rcases Option.bind_eq_some_iff.mp h with ⟨⟨digits, t₂⟩, hfraction, h⟩
  rcases Option.map_eq_some_iff.mp h with ⟨⟨exponent, t₃⟩, hexponent, h⟩
  cases h
  rcases readNatural_some hnatural with ⟨hnatural, hfirst⟩
  rcases readFraction_some hfraction with ⟨fraction, hfraction, hsecond⟩
  rcases readExponent_some hexponent with ⟨power, hpower, hthird⟩
  refine ⟨minus ++ natural ++ fraction ++ power, ⟨minus, natural, fraction,
    power, hminus, hnatural, hfraction, hpower, rfl⟩, ?_⟩
  rw [htext, hfirst, hsecond, hthird]
  simp

/-!
## Values
-/

theorem readLiteral_some {word t rest : List UInt8} {document left : Document}
    (h : readLiteral word document t = some (left, rest)) :
    t = word ++ rest := by
  unfold readLiteral at h
  split_ifs at h with hword
  cases h
  rw [← hword, List.length_take, Nat.min_eq_left, List.take_append_drop]
  rw [← hword, List.length_take]
  exact Nat.min_le_right _ _

def TakesValue (fuel : Nat) : Prop :=
  forall (t rest : List UInt8) (document : Document),
    readValue fuel t = some (document, rest) ->
      exists space value, Space space ∧ Value value ∧
        t = space ++ (value ++ rest)

theorem readMembers_some {fuel : Nat} {t rest : List UInt8}
    {members : List (List UInt8 × Document)}
    (hvalue : forall fuel', fuel' < fuel -> TakesValue fuel')
    (h : readMembers fuel t = some (members, rest)) :
    exists text, Members text ∧ t = text ++ 125 :: rest := by
  induction fuel generalizing t members with
  | zero => simp [readMembers] at h
  | succ fuel ih =>
      rw [readMembers] at h
      rcases Option.bind_eq_some_iff.mp h with ⟨⟨quote, t₁⟩, hquote, h₁⟩
      rcases readByte_some hquote with ⟨space₁, hspace₁, rfl⟩
      simp only at h₁
      split_ifs at h₁ with h34
      rcases Option.bind_eq_some_iff.mp h₁ with ⟨⟨key, t₂⟩, hkey, h₂⟩
      rcases readChars_some hkey with ⟨contents, hcontents, rfl⟩
      rcases Option.bind_eq_some_iff.mp h₂ with ⟨⟨colon, t₃⟩, hcolon, h₃⟩
      rcases readByte_some hcolon with ⟨space₂, hspace₂, rfl⟩
      simp only at h₃
      split_ifs at h₃ with h58
      rcases Option.bind_eq_some_iff.mp h₃ with ⟨⟨value, t₄⟩, hread, h₄⟩
      rcases hvalue fuel (Nat.lt_succ_self fuel) _ _ _ hread with
        ⟨space₃, text, hspace₃, htext, rfl⟩
      rcases Option.bind_eq_some_iff.mp h₄ with ⟨⟨b, t₅⟩, hend, h₅⟩
      rcases readByte_some hend with ⟨space₄, hspace₄, rfl⟩
      have hmember := Member.mk hspace₁ hcontents hspace₂ hspace₃ htext hspace₄
      subst h34
      subst h58
      simp only at h₅
      split_ifs at h₅ with h125 h44
      · cases h₅
        subst h125
        exact ⟨_, Members.one hmember, by simp [quoted]⟩
      · rcases Option.map_eq_some_iff.mp h₅ with ⟨⟨more, t₆⟩, hmore, h₆⟩
        cases h₆
        subst h44
        rcases ih (fun fuel' hlt => hvalue fuel' (Nat.lt_succ_of_lt hlt)) hmore
          with ⟨others, hothers, rfl⟩
        exact ⟨_, Members.more hmember hothers, by simp [quoted]⟩

theorem readItems_some {fuel : Nat} {t rest : List UInt8}
    {items : List Document}
    (hvalue : forall fuel', fuel' < fuel -> TakesValue fuel')
    (h : readItems fuel t = some (items, rest)) :
    exists text, Elements text ∧ t = text ++ 93 :: rest := by
  induction fuel generalizing t items with
  | zero => simp [readItems] at h
  | succ fuel ih =>
      rw [readItems] at h
      rcases Option.bind_eq_some_iff.mp h with ⟨⟨item, t₁⟩, hread, h₁⟩
      rcases hvalue fuel (Nat.lt_succ_self fuel) _ _ _ hread with
        ⟨space₁, text, hspace₁, htext, rfl⟩
      rcases Option.bind_eq_some_iff.mp h₁ with ⟨⟨b, t₂⟩, hend, h₂⟩
      rcases readByte_some hend with ⟨space₂, hspace₂, rfl⟩
      simp only at h₂
      split_ifs at h₂ with h93 h44
      · cases h₂
        subst h93
        exact ⟨_, Elements.one hspace₁ htext hspace₂, by simp⟩
      · rcases Option.map_eq_some_iff.mp h₂ with ⟨⟨more, t₃⟩, hmore, h₃⟩
        cases h₃
        subst h44
        rcases ih (fun fuel' hlt => hvalue fuel' (Nat.lt_succ_of_lt hlt)) hmore
          with ⟨others, hothers, rfl⟩
        exact ⟨_, Elements.more hspace₁ htext hspace₂ hothers, by simp⟩

theorem takesValue (fuel : Nat) : TakesValue fuel := by
  induction fuel using Nat.strong_induction_on with
  | h fuel ih =>
  intro t rest document h
  cases fuel with
  | zero => simp [readValue] at h
  | succ fuel =>
      have hinner : forall fuel', fuel' < fuel -> TakesValue fuel' :=
        fun fuel' hlt => ih fuel' (Nat.lt_succ_of_lt hlt)
      rw [readValue] at h
      rcases Option.bind_eq_some_iff.mp h with ⟨⟨b, t'⟩, hfirst, h'⟩
      rcases readByte_some hfirst with ⟨space, hspace, rfl⟩
      simp only at h'
      split_ifs at h' with h34 h123 h91 h116 h102 h110
      · rcases Option.map_eq_some_iff.mp h' with ⟨⟨contents, t₁⟩, hread, h₁⟩
        cases h₁
        rcases readChars_some hread with ⟨text, htext, rfl⟩
        refine ⟨space, quoted text, hspace, Value.string htext, ?_⟩
        rw [h34, quoted]
        simp
      · rcases Option.bind_eq_some_iff.mp h' with ⟨⟨b', t₁⟩, hsecond, h₁⟩
        simp only at h₁
        split_ifs at h₁ with h125
        · cases h₁
          rcases readByte_some hsecond with ⟨inner, hinner, rfl⟩
          refine ⟨space, _, hspace, Value.object (Object.empty hinner), ?_⟩
          rw [h123, h125]
          simp
        · rcases Option.map_eq_some_iff.mp h₁ with ⟨⟨members, t₂⟩, hread, h₂⟩
          cases h₂
          rcases readMembers_some hinner hread with ⟨text, htext, rfl⟩
          refine ⟨space, _, hspace, Value.object (Object.members htext), ?_⟩
          rw [h123]
          simp
      · rcases Option.bind_eq_some_iff.mp h' with ⟨⟨b', t₁⟩, hsecond, h₁⟩
        simp only at h₁
        split_ifs at h₁ with h93
        · cases h₁
          rcases readByte_some hsecond with ⟨inner, hinner, rfl⟩
          refine ⟨space, _, hspace, Value.array (Array.empty hinner), ?_⟩
          rw [h91, h93]
          simp
        · rcases Option.map_eq_some_iff.mp h₁ with ⟨⟨items, t₂⟩, hread, h₂⟩
          cases h₂
          rcases readItems_some hinner hread with ⟨text, htext, rfl⟩
          refine ⟨space, _, hspace, Value.array (Array.elements htext), ?_⟩
          rw [h91]
          simp
      · rw [readLiteral_some h']
        exact ⟨space, _, hspace, Value.true, rfl⟩
      · rw [readLiteral_some h']
        exact ⟨space, _, hspace, Value.false, rfl⟩
      · rw [readLiteral_some h']
        exact ⟨space, _, hspace, Value.null, rfl⟩
      · rcases readNumber_some h' with ⟨text, htext, heq⟩
        rw [heq]
        exact ⟨space, text, hspace, Value.number htext, rfl⟩

theorem value_of_read {t : List UInt8} {document : Document}
    (h : read t = some document) :
    exists space value space', Space space ∧ Value value ∧ Space space' ∧
      t = space ++ (value ++ space') := by
  rcases Option.bind_eq_some_iff.mp h with ⟨⟨document', rest⟩, hread, h'⟩
  simp only at h'
  split_ifs at h' with hrest
  rcases takesValue _ _ _ _ hread with ⟨space, value, hspace, hvalue, heq⟩
  exact ⟨space, value, rest, hspace, hvalue, space_of_all hrest, heq⟩

/-!
## Lines
-/

theorem Object.ends {t : List UInt8} (h : Object t) :
    exists body, t = body ++ [125] := by
  cases h with
  | empty _ => exact ⟨_, (List.cons_append).symm⟩
  | members _ => exact ⟨_, (List.cons_append).symm⟩

theorem Value.object_of_brace {t : List UInt8} (h : Value (123 :: t)) :
    Object (123 :: t) := by
  generalize htext : 123 :: t = text at h
  cases h with
  | object h => exact h
  | number h =>
      rcases h.starts with ⟨b, rest, hstart, hb⟩
      rw [hstart] at htext
      rw [← (List.cons.inj htext).1] at hb
      exact absurd hb (by decide)
  | string _ => exact absurd (List.cons.inj htext).1 (by decide)
  | true => exact absurd (List.cons.inj htext).1 (by decide)
  | false => exact absurd (List.cons.inj htext).1 (by decide)
  | null => exact absurd (List.cons.inj htext).1 (by decide)
  | array h => cases h <;> exact absurd (List.cons.inj htext).1 (by decide)

theorem Space.eq_newline {space first second : List UInt8}
    (hspace : Space space)
    (h : first ++ [125] ++ space = second ++ [125] ++ [10]) :
    space = [10] := by
  rcases List.eq_nil_or_concat space with rfl | ⟨init, last, rfl⟩
  · rw [List.append_nil] at h
    have hlast := (List.append_inj' h rfl).2
    exact absurd (List.cons.inj hlast).1 (by decide)
  · rw [List.concat_eq_append, ← List.append_assoc] at h
    have hparts := List.append_inj' h rfl
    rcases List.eq_nil_or_concat init with rfl | ⟨init', b, rfl⟩
    · rw [List.concat_eq_append, List.nil_append, hparts.2]
    · rw [List.concat_eq_append, ← List.append_assoc] at hparts
      have hbrace := (List.append_inj' hparts.1 rfl).2
      have hb := hspace b (by simp)
      rw [(List.cons.inj hbrace).1] at hb
      exact absurd hb (by decide)

theorem object_of_read {body : List UInt8} {document : Document}
    (h : read (123 :: (body ++ [125]) ++ [10]) = some document) :
    Object (123 :: (body ++ [125])) := by
  rcases value_of_read h with ⟨space, value, space', hspace, hvalue, hspace',
    heq⟩
  have hnone := hspace.eq_nil heq.symm (by decide)
  rw [hnone, List.nil_append] at heq
  have hstart : exists t, value = 123 :: t := by
    cases value with
    | nil =>
        rcases hvalue.number_or_starts with hnumber | ⟨b, t, hb, _⟩
        · rcases hnumber.starts with ⟨b, t, hb, _⟩
          cases hb
        · cases hb
    | cons b t =>
        rw [List.cons_append, List.cons_append] at heq
        exact ⟨t, by rw [(List.cons.inj heq).1]⟩
  rcases hstart with ⟨t, rfl⟩
  have hobject := hvalue.object_of_brace
  rcases hobject.ends with ⟨body', hends⟩
  have hline : body' ++ [125] ++ space' = (123 :: body) ++ [125] ++ [10] := by
    rw [← hends, ← heq]
    rfl
  rw [hspace'.eq_newline hline] at heq
  rw [List.append_cancel_right heq]
  exact hobject

end Json

end Foundation
end NginLog
