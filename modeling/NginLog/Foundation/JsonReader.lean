import NginLog.Foundation.Json

/-!
# Reading JSON

A reader that turns a JSON text into a document, and a writer of texts without
spaces.  Strings are lists of bytes, numbers are exact, and an object keeps its
members in order.  Every document that is written is read back.
-/

namespace NginLog
namespace Foundation

namespace Json

inductive Document where
  | null
  | bool (b : Bool)
  /-- The number `mantissa * 10 ^ exponent`. -/
  | number (mantissa exponent : Int)
  | string (contents : List UInt8)
  | array (items : List Document)
  | object (members : List (List UInt8 × Document))

abbrev Read (alpha : Type) := Option (alpha × List UInt8)

/-!
## Strings

A surrogate is read only as the first of a pair.  No character takes less than
one byte, so the length of a text is fuel enough.
-/

def isSpace (b : UInt8) : Bool :=
  decide (b = 32 ∨ b = 9 ∨ b = 10 ∨ b = 13)

def readByte (t : List UInt8) : Read UInt8 :=
  match t.dropWhile isSpace with
  | [] => none
  | b :: rest => some (b, rest)

def hexValue (b : UInt8) : Option Nat :=
  if IsDigit b then
    some (b.toNat - 48)
  else if 97 ≤ b ∧ b ≤ 102 then
    some (b.toNat - 87)
  else if 65 ≤ b ∧ b ≤ 70 then
    some (b.toNat - 55)
  else
    none

def readHex4 : List UInt8 -> Read Nat
  | b₁ :: b₂ :: b₃ :: b₄ :: rest =>
      (hexValue b₁).bind fun d₁ =>
        (hexValue b₂).bind fun d₂ =>
          (hexValue b₃).bind fun d₃ =>
            (hexValue b₄).map fun d₄ =>
              (4096 * d₁ + 256 * d₂ + 16 * d₃ + d₄, rest)
  | _ => none

def utf8 (code : Nat) : List UInt8 :=
  if code < 0x80 then
    [UInt8.ofNat code]
  else if code < 0x800 then
    [UInt8.ofNat (0xC0 + code / 0x40), UInt8.ofNat (0x80 + code % 0x40)]
  else if code < 0x10000 then
    [UInt8.ofNat (0xE0 + code / 0x1000),
      UInt8.ofNat (0x80 + code / 0x40 % 0x40),
      UInt8.ofNat (0x80 + code % 0x40)]
  else
    [UInt8.ofNat (0xF0 + code / 0x40000),
      UInt8.ofNat (0x80 + code / 0x1000 % 0x40),
      UInt8.ofNat (0x80 + code / 0x40 % 0x40),
      UInt8.ofNat (0x80 + code % 0x40)]

def readUnicode (t : List UInt8) : Read (List UInt8) :=
  (readHex4 t).bind fun (code, t) =>
    if code < 0xD800 ∨ 0xE000 ≤ code then
      some (utf8 code, t)
    else if code < 0xDC00 ∧ t.take 2 = [92, 117] then
      (readHex4 (t.drop 2)).bind fun (low, t) =>
        if 0xDC00 ≤ low ∧ low < 0xE000 then
          some
            (utf8 (0x10000 + 0x400 * (code - 0xD800) + (low - 0xDC00)), t)
        else
          none
    else
      none

def readEscape : List UInt8 -> Read (List UInt8)
  | [] => none
  | b :: rest =>
      if b = 34 ∨ b = 92 ∨ b = 47 then
        some ([b], rest)
      else if b = 98 then
        some ([8], rest)
      else if b = 102 then
        some ([12], rest)
      else if b = 110 then
        some ([10], rest)
      else if b = 114 then
        some ([13], rest)
      else if b = 116 then
        some ([9], rest)
      else if b = 117 then
        readUnicode rest
      else
        none

def readChars : Nat -> List UInt8 -> Read (List UInt8)
  | fuel + 1, b :: rest =>
      if b = 34 then
        some ([], rest)
      else if b = 92 then
        (readEscape rest).bind fun (bytes, rest) =>
          (readChars fuel rest).map fun (more, rest) => (bytes ++ more, rest)
      else if b < 32 then
        none
      else
        (readChars fuel rest).map fun (more, rest) => (b :: more, rest)
  | _, _ => none

def readString (t : List UInt8) : Read (List UInt8) :=
  readChars t.length t

/-!
## Numbers
-/

def readSign : List UInt8 -> Int × List UInt8
  | [] => (1, [])
  | b :: rest => if b = 45 then (-1, rest) else (1, b :: rest)

def readDigits (t : List UInt8) : Read (List UInt8) :=
  let digits := t.takeWhile fun b => decide (IsDigit b)
  if digits = [] then
    none
  else
    some (digits, t.dropWhile fun b => decide (IsDigit b))

def readNatural (t : List UInt8) : Read (List UInt8) :=
  (readDigits t).bind fun (digits, t) =>
    if digits.head? = some 48 ∧ digits ≠ [48] then
      none
    else
      some (digits, t)

def readFraction : List UInt8 -> Read (List UInt8)
  | [] => some ([], [])
  | b :: rest => if b = 46 then readDigits rest else some ([], b :: rest)

def readExponent : List UInt8 -> Read Int
  | [] => some (0, [])
  | b :: rest =>
      if b = 101 ∨ b = 69 then
        let (sign, t) :=
          if rest.head? = some 43 then (1, rest.tail) else readSign rest
        (readDigits t).map fun (digits, t) => (sign * readDecimal digits, t)
      else
        some (0, b :: rest)

def readNumber (t : List UInt8) : Read Document :=
  let (sign, t) := readSign t
  (readNatural t).bind fun (natural, t) =>
    (readFraction t).bind fun (fraction, t) =>
      (readExponent t).map fun (exponent, t) =>
        (Document.number (sign * readDecimal (natural ++ fraction))
          (exponent - fraction.length), t)

/-!
## Values
-/

def readLiteral (word : List UInt8) (document : Document) (t : List UInt8) :
    Read Document :=
  if t.take word.length = word then
    some (document, t.drop word.length)
  else
    none

mutual

def readValue : Nat -> List UInt8 -> Read Document
  | 0, _ => none
  | fuel + 1, t =>
      (readByte t).bind fun (b, rest) =>
        if b = 34 then
          (readString rest).map fun (contents, t) => (Document.string contents, t)
        else if b = 123 then
          (readByte rest).bind fun (b', rest') =>
            if b' = 125 then
              some (Document.object [], rest')
            else
              (readMembers fuel rest).map fun (members, t) =>
                (Document.object members, t)
        else if b = 91 then
          (readByte rest).bind fun (b', rest') =>
            if b' = 93 then
              some (Document.array [], rest')
            else
              (readItems fuel rest).map fun (items, t) => (Document.array items, t)
        else if b = 116 then
          readLiteral [116, 114, 117, 101] (Document.bool true) (b :: rest)
        else if b = 102 then
          readLiteral [102, 97, 108, 115, 101] (Document.bool false) (b :: rest)
        else if b = 110 then
          readLiteral [110, 117, 108, 108] Document.null (b :: rest)
        else
          readNumber (b :: rest)

def readMembers : Nat -> List UInt8 -> Read (List (List UInt8 × Document))
  | 0, _ => none
  | fuel + 1, t =>
      (readByte t).bind fun (quote, t) =>
        if quote = 34 then
          (readString t).bind fun (key, t) =>
            (readByte t).bind fun (colon, t) =>
              if colon = 58 then
                (readValue fuel t).bind fun (value, t) =>
                  (readByte t).bind fun (b, t) =>
                    if b = 125 then
                      some ([(key, value)], t)
                    else if b = 44 then
                      (readMembers fuel t).map fun (more, t) =>
                        ((key, value) :: more, t)
                    else
                      none
              else
                none
        else
          none

def readItems : Nat -> List UInt8 -> Read (List Document)
  | 0, _ => none
  | fuel + 1, t =>
      (readValue fuel t).bind fun (item, t) =>
        (readByte t).bind fun (b, t) =>
          if b = 93 then
            some ([item], t)
          else if b = 44 then
            (readItems fuel t).map fun (more, t) => (item :: more, t)
          else
            none

end

/-- A whole text: one value, with spaces around it. -/
def read (t : List UInt8) : Option Document :=
  (readValue (t.length + 1) t).bind fun (document, rest) =>
    if rest.all isSpace then some document else none

/-!
## Writing
-/

/-- How a writer writes the bytes of a string, and that they are read back. -/
structure Escaper where
  escape : UInt8 -> List UInt8
  nonempty : forall b, escape b ≠ []
  reads : forall b fuel rest, readChars (fuel + 1) (escape b ++ rest) =
    (readChars fuel rest).map fun (more, rest) => (b :: more, rest)

def Escaper.text (e : Escaper) (t : List UInt8) : List UInt8 :=
  t.flatMap e.escape

def writeNumber (mantissa exponent : Int) : List UInt8 :=
  signedDecimal mantissa ++
    if exponent = 0 then [] else 101 :: signedDecimal exponent

mutual

def write (e : Escaper) : Document -> List UInt8
  | Document.null => [110, 117, 108, 108]
  | Document.bool true => [116, 114, 117, 101]
  | Document.bool false => [102, 97, 108, 115, 101]
  | Document.number mantissa exponent => writeNumber mantissa exponent
  | Document.string contents => quoted (e.text contents)
  | Document.array items => 91 :: (writeItems e items ++ [93])
  | Document.object members => 123 :: (writeMembers e members ++ [125])

def writeItems (e : Escaper) : List Document -> List UInt8
  | [] => []
  | first :: rest => write e first ++ writeMoreItems e rest

def writeMoreItems (e : Escaper) : List Document -> List UInt8
  | [] => []
  | first :: rest => 44 :: (write e first ++ writeMoreItems e rest)

def writeMembers (e : Escaper) : List (List UInt8 × Document) -> List UInt8
  | [] => []
  | (key, value) :: rest =>
      member (e.text key) (write e value) ++ writeMoreMembers e rest

def writeMoreMembers (e : Escaper) :
    List (List UInt8 × Document) -> List UInt8
  | [] => []
  | (key, value) :: rest =>
      44 :: (member (e.text key) (write e value) ++ writeMoreMembers e rest)

end

/-!
## Reading what has been written

The induction is on the fuel, since what is inside a document is shorter.
-/

def EndsNumber (rest : List UInt8) : Prop :=
  forall b t, rest = b :: t -> ¬ (IsDigit b ∨ b = 46 ∨ b = 101 ∨ b = 69)

theorem EndsNumber.of_byte {b : UInt8} {t : List UInt8}
    (h : ¬ (IsDigit b ∨ b = 46 ∨ b = 101 ∨ b = 69)) : EndsNumber (b :: t) := by
  intro b' t' heq
  rw [← (List.cons.inj heq).1]
  exact h

theorem readByte_cons {b : UInt8} {t : List UInt8} (h : isSpace b = false) :
    readByte (b :: t) = some (b, t) := by
  rw [readByte, List.dropWhile_cons_of_neg (by simp [h])]

theorem readDigits_append {digits rest : List UInt8} (h : Digits digits)
    (hrest : forall b t, rest = b :: t -> ¬ IsDigit b) :
    readDigits (digits ++ rest) = some (digits, rest) := by
  have hall : forall b, b ∈ digits -> decide (IsDigit b) = true :=
    fun b hb => decide_eq_true (h.2 b hb)
  have htake : rest.takeWhile (fun b => decide (IsDigit b)) = [] ∧
      rest.dropWhile (fun b => decide (IsDigit b)) = rest := by
    cases rest with
    | nil => exact ⟨rfl, rfl⟩
    | cons b t => simp [hrest b t rfl]
  rw [readDigits, List.takeWhile_append_of_pos hall,
    List.dropWhile_append_of_pos hall, htake.1, htake.2, List.append_nil,
    if_neg h.1]

theorem readSign_signedDecimal (i : Int) (rest : List UInt8) :
    exists sign, readSign (signedDecimal i ++ rest) =
        (sign, decimal i.natAbs ++ rest) ∧
      sign * (i.natAbs : Int) = i := by
  cases i with
  | ofNat n =>
      refine ⟨1, ?_, by simp⟩
      rcases (natural_decimal n).1.starts with ⟨b, t, hstart, hb⟩
      have hminus : b ≠ 45 := by
        intro heq
        rw [heq] at hb
        exact absurd hb (by decide)
      simp [signedDecimal, hstart, readSign, hminus]
  | negSucc n =>
      refine ⟨-1, ?_, by simp; omega⟩
      simp [signedDecimal, readSign]

theorem readNatural_decimal (n : Nat) {rest : List UInt8}
    (hrest : forall b t, rest = b :: t -> ¬ IsDigit b) :
    readNatural (decimal n ++ rest) = some (decimal n, rest) := by
  have hnatural := natural_decimal n
  have hfirst : ¬ ((decimal n).head? = some 48 ∧ decimal n ≠ [48]) := by
    rintro ⟨hzero, hne⟩
    exact hne (hnatural.2 hzero)
  simp only [readNatural, readDigits_append hnatural.1 hrest,
    Option.bind_some, if_neg hfirst]

theorem readFraction_none {rest : List UInt8}
    (hrest : forall b t, rest = b :: t -> b ≠ 46) :
    readFraction rest = some ([], rest) := by
  cases rest with
  | nil => rfl
  | cons b t => rw [readFraction, if_neg (hrest b t rfl)]

theorem readExponent_none {rest : List UInt8} (hrest : EndsNumber rest) :
    readExponent rest = some (0, rest) := by
  cases rest with
  | nil => rfl
  | cons b t =>
      rw [readExponent, if_neg]
      intro hcase
      exact hrest b t rfl (Or.inr (Or.inr hcase))

theorem readExponent_signedDecimal (i : Int) {rest : List UInt8}
    (hrest : EndsNumber rest) :
    readExponent (101 :: (signedDecimal i ++ rest)) = some (i, rest) := by
  rcases readSign_signedDecimal i rest with ⟨sign, hsign, hvalue⟩
  have hplus : (signedDecimal i ++ rest).head? ≠ some 43 := by
    rcases signedDecimal_split i with ⟨minus, digits, hminus, hdigits, heq⟩
    rcases hdigits.starts with ⟨b, t, rfl, hb⟩
    rw [heq]
    rcases hminus with rfl | rfl
    · intro h
      rw [List.nil_append, List.cons_append, List.head?_cons,
        Option.some.injEq] at h
      rw [h] at hb
      exact absurd hb (by decide)
    · simp
  have hdigits := readDigits_append (natural_decimal i.natAbs).1
    fun b t heq hb => hrest b t heq (Or.inl hb)
  rw [readExponent, if_pos (Or.inl rfl), if_neg hplus, hsign]
  simp only [hdigits, Option.map_some, readDecimal_decimal, hvalue]

theorem readNumber_writeNumber (mantissa exponent : Int) {rest : List UInt8}
    (hrest : EndsNumber rest) :
    readNumber (writeNumber mantissa exponent ++ rest) =
      some (Document.number mantissa exponent, rest) := by
  rcases readSign_signedDecimal mantissa
    ((if exponent = 0 then [] else 101 :: signedDecimal exponent) ++ rest)
    with ⟨sign, hsign, hvalue⟩
  generalize htail : (if exponent = 0 then [] else 101 ::
    signedDecimal exponent) ++ rest = tail at hsign
  have hstart : forall b t, tail = b :: t -> ¬ IsDigit b ∧ b ≠ 46 := by
    intro b t heq
    rw [← htail] at heq
    split at heq
    · have hend := hrest b t heq
      exact ⟨fun hb => hend (Or.inl hb), fun hb => hend (Or.inr (Or.inl hb))⟩
    · rw [← (List.cons.inj heq).1]
      decide
  have hexponent : readExponent tail = some (exponent, rest) := by
    rw [← htail]
    split
    · rename_i hzero
      rw [hzero]
      exact readExponent_none hrest
    · exact readExponent_signedDecimal exponent hrest
  rw [readNumber, writeNumber, List.append_assoc, htail, hsign]
  simp only [readNatural_decimal mantissa.natAbs fun b t h => (hstart b t h).1,
    readFraction_none fun b t h => (hstart b t h).2, hexponent,
    Option.bind_some, Option.map_some, List.append_nil, readDecimal_decimal,
    hvalue, List.length_nil, Nat.cast_zero, Int.sub_zero]

theorem Escaper.length_le (e : Escaper) (t : List UInt8) :
    t.length ≤ (e.text t).length := by
  induction t with
  | nil => exact Nat.zero_le _
  | cons b rest ih =>
      have hpos := List.length_pos_iff.mpr (e.nonempty b)
      simp only [Escaper.text, List.flatMap_cons, List.length_append,
        List.length_cons] at ih ⊢
      omega

theorem Escaper.readChars_text (e : Escaper) (t rest : List UInt8) {fuel : Nat}
    (h : t.length < fuel) :
    readChars fuel (e.text t ++ 34 :: rest) = some (t, rest) := by
  induction t generalizing fuel with
  | nil =>
      cases fuel with
      | zero => exact absurd h (Nat.not_lt_zero _)
      | succ fuel => rfl
  | cons b t ih =>
      cases fuel with
      | zero => exact absurd h (Nat.not_lt_zero _)
      | succ fuel =>
          have hrest := ih (Nat.lt_of_succ_lt_succ h)
          rw [Escaper.text, List.flatMap_cons, List.append_assoc, e.reads]
          rw [Escaper.text] at hrest
          rw [hrest]
          rfl

theorem Escaper.readString_text (e : Escaper) (t rest : List UInt8) :
    readString (e.text t ++ 34 :: rest) = some (t, rest) := by
  apply e.readChars_text
  have hle := e.length_le t
  rw [List.length_append, List.length_cons]
  omega

theorem writeNumber_starts (mantissa exponent : Int) :
    exists b t, writeNumber mantissa exponent = b :: t ∧ StartsNumber b := by
  rcases signedDecimal_split mantissa with ⟨sign, digits, hsign, hdigits, heq⟩
  rw [writeNumber, heq]
  rcases hsign with rfl | rfl
  · rcases hdigits.starts with ⟨b, t, rfl, hb⟩
    exact ⟨b, _, rfl, Or.inr hb⟩
  · exact ⟨45, _, rfl, Or.inl rfl⟩

theorem isSpace_eq_false {b : UInt8} (h : StartsNumber b) :
    isSpace b = false := by
  rw [isSpace, decide_eq_false_iff_not]
  rintro (rfl | rfl | rfl | rfl) <;> exact absurd h (by decide)

theorem readValue_number {b : UInt8} {t : List UInt8} (h : StartsNumber b)
    (fuel : Nat) : readValue (fuel + 1) (b :: t) = readNumber (b :: t) := by
  have hne : forall c : UInt8, ¬ StartsNumber c -> b ≠ c := by
    intro c hc heq
    exact hc (heq ▸ h)
  rw [readValue, readByte_cons (isSpace_eq_false h), Option.bind_some]
  simp only [hne 34 (by decide), hne 123 (by decide), hne 91 (by decide),
    hne 116 (by decide), hne 102 (by decide), hne 110 (by decide), if_false]

theorem write_starts (e : Escaper) (document : Document) :
    exists b t, write e document = b :: t ∧ isSpace b = false ∧
      b ≠ 125 ∧ b ≠ 93 := by
  cases document with
  | null => exact ⟨110, _, rfl, by decide⟩
  | bool b =>
      cases b with
      | true => exact ⟨116, _, rfl, by decide⟩
      | false => exact ⟨102, _, rfl, by decide⟩
  | number mantissa exponent =>
      rcases writeNumber_starts mantissa exponent with ⟨b, t, hstart, hb⟩
      refine ⟨b, t, hstart, isSpace_eq_false hb, ?_, ?_⟩ <;>
        intro heq <;> rw [heq] at hb <;> exact absurd hb (by decide)
  | string contents => exact ⟨34, _, rfl, by decide⟩
  | array items => exact ⟨91, _, rfl, by decide⟩
  | object members => exact ⟨123, _, rfl, by decide⟩

def ReadsBack (e : Escaper) (fuel : Nat) : Prop :=
  forall (document : Document) (rest : List UInt8),
    (write e document).length ≤ fuel -> EndsNumber rest ->
    readValue fuel (write e document ++ rest) = some (document, rest)

theorem readMembers_step (e : Escaper) (key : List UInt8) {value : Document}
    {fuel : Nat} {rest : List UInt8} (hvalue : ReadsBack e fuel)
    (hfuel : (write e value).length ≤ fuel) (hrest : EndsNumber rest) :
    readMembers (fuel + 1)
        (member (e.text key) (write e value) ++ rest) =
      (readByte rest).bind fun (b, t) =>
        if b = 125 then
          some ([(key, value)], t)
        else if b = 44 then
          (readMembers fuel t).map fun (more, t) => ((key, value) :: more, t)
        else
          none := by
  simp [member, quoted, readMembers, readByte_cons, isSpace,
    e.readString_text, hvalue value rest hfuel hrest]

theorem readMembers_write (e : Escaper) {key : List UInt8} {value : Document}
    {more : List (List UInt8 × Document)} {fuel : Nat} {rest : List UInt8}
    (hvalue : forall fuel', fuel' < fuel -> ReadsBack e fuel')
    (hfuel : (writeMembers e ((key, value) :: more)).length ≤ fuel) :
    readMembers fuel (writeMembers e ((key, value) :: more) ++ 125 :: rest) =
      some ((key, value) :: more, rest) := by
  induction more generalizing key value fuel with
  | nil =>
      cases fuel with
      | zero => simp [writeMembers, member, quoted] at hfuel
      | succ fuel =>
          have hlength : (write e value).length ≤ fuel := by
            simp [writeMembers, writeMoreMembers, member, quoted] at hfuel
            omega
          rw [writeMembers, writeMoreMembers, List.append_nil,
            readMembers_step e key (hvalue fuel (Nat.lt_succ_self fuel)) hlength
              (EndsNumber.of_byte (by decide)), readByte_cons (by decide)]
          rfl
  | cons second more ih =>
      rcases second with ⟨key', value'⟩
      cases fuel with
      | zero => simp [writeMembers, member, quoted] at hfuel
      | succ fuel =>
          have htext : writeMembers e ((key, value) :: (key', value') :: more) =
              member (e.text key) (write e value) ++
                44 :: writeMembers e ((key', value') :: more) := rfl
          rw [htext] at hfuel ⊢
          have hlengths : (write e value).length ≤ fuel ∧
              (writeMembers e ((key', value') :: more)).length ≤ fuel := by
            simp only [member, quoted, List.length_append, List.length_cons]
              at hfuel
            omega
          have hmore := ih (fun fuel' hlt => hvalue fuel' (Nat.lt_succ_of_lt hlt))
            hlengths.2
          rw [List.append_assoc, List.cons_append,
            readMembers_step e key (hvalue fuel (Nat.lt_succ_self fuel))
              hlengths.1 (EndsNumber.of_byte (by decide)),
            readByte_cons (by decide), Option.bind_some]
          simp [hmore]

theorem readItems_step (e : Escaper) {item : Document} {fuel : Nat}
    {rest : List UInt8} (hitem : ReadsBack e fuel)
    (hfuel : (write e item).length ≤ fuel) (hrest : EndsNumber rest) :
    readItems (fuel + 1) (write e item ++ rest) =
      (readByte rest).bind fun (b, t) =>
        if b = 93 then
          some ([item], t)
        else if b = 44 then
          (readItems fuel t).map fun (more, t) => (item :: more, t)
        else
          none := by
  simp [readItems, hitem item rest hfuel hrest]

theorem readItems_write (e : Escaper) {item : Document} {more : List Document}
    {fuel : Nat} {rest : List UInt8}
    (hitem : forall fuel', fuel' < fuel -> ReadsBack e fuel')
    (hfuel : (writeItems e (item :: more)).length < fuel) :
    readItems fuel (writeItems e (item :: more) ++ 93 :: rest) =
      some (item :: more, rest) := by
  induction more generalizing item fuel with
  | nil =>
      cases fuel with
      | zero => exact absurd hfuel (Nat.not_lt_zero _)
      | succ fuel =>
          have hlength : (write e item).length ≤ fuel := by
            simp [writeItems, writeMoreItems] at hfuel
            omega
          rw [writeItems, writeMoreItems, List.append_nil,
            readItems_step e (hitem fuel (Nat.lt_succ_self fuel)) hlength
              (EndsNumber.of_byte (by decide)), readByte_cons (by decide)]
          rfl
  | cons second more ih =>
      cases fuel with
      | zero => exact absurd hfuel (Nat.not_lt_zero _)
      | succ fuel =>
          have htext : writeItems e (item :: second :: more) =
              write e item ++ 44 :: writeItems e (second :: more) := rfl
          rw [htext] at hfuel ⊢
          have hlengths : (write e item).length ≤ fuel ∧
              (writeItems e (second :: more)).length < fuel := by
            simp only [List.length_append, List.length_cons] at hfuel
            omega
          have hmore := ih (fun fuel' hlt => hitem fuel' (Nat.lt_succ_of_lt hlt))
            hlengths.2
          rw [List.append_assoc, List.cons_append,
            readItems_step e (hitem fuel (Nat.lt_succ_self fuel)) hlengths.1
              (EndsNumber.of_byte (by decide)),
            readByte_cons (by decide), Option.bind_some]
          simp [hmore]

theorem readValue_array {b : UInt8} {t : List UInt8} (hspace : isSpace b = false)
    (hend : b ≠ 93) (fuel : Nat) :
    readValue (fuel + 1) (91 :: b :: t) =
      (readItems fuel (b :: t)).map fun (items, t) =>
        (Document.array items, t) := by
  rw [readValue, readByte_cons (by decide), Option.bind_some]
  simp [readByte_cons hspace, hend]

theorem readValue_object {b : UInt8} {t : List UInt8}
    (hspace : isSpace b = false) (hend : b ≠ 125) (fuel : Nat) :
    readValue (fuel + 1) (123 :: b :: t) =
      (readMembers fuel (b :: t)).map fun (members, t) =>
        (Document.object members, t) := by
  rw [readValue, readByte_cons (by decide), Option.bind_some]
  simp [readByte_cons hspace, hend]

theorem readsBack (e : Escaper) (fuel : Nat) : ReadsBack e fuel := by
  induction fuel using Nat.strong_induction_on with
  | h fuel ih =>
  intro document rest hfuel hrest
  cases fuel with
  | zero =>
      rcases write_starts e document with ⟨b, t, hstart, _⟩
      rw [hstart] at hfuel
      exact absurd hfuel (Nat.not_succ_le_zero _)
  | succ fuel =>
      have hinner : forall fuel', fuel' < fuel -> ReadsBack e fuel' :=
        fun fuel' hlt => ih fuel' (Nat.lt_succ_of_lt hlt)
      cases document with
      | null => simp [write, readValue, readByte, isSpace, readLiteral]
      | bool b =>
          cases b <;> simp [write, readValue, readByte, isSpace, readLiteral]
      | number mantissa exponent =>
          rcases writeNumber_starts mantissa exponent with ⟨b, t, hstart, hb⟩
          have hread := readNumber_writeNumber mantissa exponent hrest
          rw [hstart, List.cons_append] at hread
          rw [write, hstart, List.cons_append, readValue_number hb]
          exact hread
      | string contents =>
          rw [write, quoted, List.cons_append, List.append_assoc, readValue,
            readByte_cons (by decide), Option.bind_some]
          simp [e.readString_text contents rest]
      | array items =>
          cases items with
          | nil => simp [write, writeItems, readValue, readByte, isSpace]
          | cons first more =>
              have hlength : (writeItems e (first :: more)).length < fuel := by
                simp only [write, List.length_append, List.length_cons,
                  List.length_nil] at hfuel
                omega
              have hread := @readItems_write e first more fuel rest hinner
                hlength
              rcases write_starts e first with ⟨b, t, hstart, hspace, _, hend⟩
              have htext : writeItems e (first :: more) ++ 93 :: rest =
                  b :: (t ++ writeMoreItems e more ++ 93 :: rest) := by
                rw [writeItems, hstart]
                rfl
              rw [write, List.cons_append, List.append_assoc,
                List.singleton_append, htext, readValue_array hspace hend,
                ← htext, hread]
              rfl
      | object members =>
          cases members with
          | nil => simp [write, writeMembers, readValue, readByte, isSpace]
          | cons first more =>
              rcases first with ⟨key, value⟩
              have hlength : (writeMembers e ((key, value) :: more)).length ≤
                  fuel := by
                simp only [write, List.length_append, List.length_cons,
                  List.length_nil] at hfuel
                omega
              have hread := @readMembers_write e key value more fuel rest hinner
                hlength
              have hstart : exists t,
                  writeMembers e ((key, value) :: more) ++ 125 :: rest =
                    34 :: t := ⟨_, rfl⟩
              rcases hstart with ⟨t, htext⟩
              rw [write, List.cons_append, List.append_assoc,
                List.singleton_append, htext,
                readValue_object (by decide) (by decide), ← htext, hread]
              rfl

theorem read_write (e : Escaper) (document : Document) {space : List UInt8}
    (hspace : space.all isSpace = true) :
    read (write e document ++ space) = some document := by
  have hrest : EndsNumber space := by
    intro b t heq
    rw [heq, List.all_cons, Bool.and_eq_true, isSpace, decide_eq_true_eq]
      at hspace
    rcases hspace.1 with rfl | rfl | rfl | rfl <;> decide
  have hread := readsBack e ((write e document ++ space).length + 1) document
    space (by rw [List.length_append]; omega) hrest
  rw [read, hread, Option.bind_some]
  exact if_pos hspace

end Json

end Foundation
end NginLog
