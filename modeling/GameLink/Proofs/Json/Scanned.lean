import GameLink.Json.Token
import GameLink.Json.Text
import GameLink.Json.Printer

/-! # Written tokens

What scanning makes of a written text or integer. A text is escaped character by
character, so it is looked at one character at a time, first by the scanner and
then by the reader that resolves escapes. An integer is the only token that ends
where the next one starts, so it needs to know what follows.
-/
namespace GameLink.Json

/-! ## Characters as bytes -/

/-- The bytes of characters. -/
def utf8 (cs : List Char) : Bytes := cs.flatMap String.utf8EncodeChar

theorem utf8_append (cs ds : List Char) : utf8 (cs ++ ds) = utf8 cs ++ utf8 ds :=
  List.flatMap_append

theorem utf8_cons (c : Char) (cs : List Char) :
    utf8 (c :: cs) = String.utf8EncodeChar c ++ utf8 cs := List.flatMap_cons

theorem ofText_ofList (cs : List Char) : Bytes.ofText (String.ofList cs) = utf8 cs := by
  simp [Bytes.ofText, utf8, List.utf8Encode]

theorem ofText_eq_utf8 (s : String) : Bytes.ofText s = utf8 s.toList := by
  rw [← ofText_ofList, String.ofList_toList]

/-- A byte that a text token shows as it is. -/
structure Plain (b : UInt8) : Prop where
  unquoted : b.toNat ≠ 0x22
  unescaped : b.toNat ≠ 0x5C
  visible : 0x20 ≤ b.toNat

theorem plain_utf8EncodeChar {c : Char} (h : 0x20 ≤ c.toNat) (hq : c.toNat ≠ 0x22)
    (hb : c.toNat ≠ 0x5C) : ∀ b ∈ String.utf8EncodeChar c, Plain b := by
  have hlong : ∀ n, 0x80 ≤ n → n < 0x100 → Plain (UInt8.ofNat n) := by
    intro n hlow hhigh
    have hn : (UInt8.ofNat n).toNat = n := by rw [UInt8.toNat_ofNat']; omega
    exact ⟨by omega, by omega, by omega⟩
  have hc : c.val.toNat = c.toNat := rfl
  intro b hmem
  simp only [String.utf8EncodeChar] at hmem
  split at hmem
  · rename_i hv
    rw [List.mem_singleton] at hmem
    have hn : b.toNat = c.toNat := by rw [hmem, UInt8.toNat_ofNat']; omega
    exact ⟨by omega, by omega, by omega⟩
  · split at hmem
    · simp only [List.mem_cons, List.not_mem_nil, or_false] at hmem
      rcases hmem with rfl | rfl <;> exact hlong _ (by omega) (by omega)
    · split at hmem
      · simp only [List.mem_cons, List.not_mem_nil, or_false] at hmem
        rcases hmem with rfl | rfl | rfl <;> exact hlong _ (by omega) (by omega)
      · simp only [List.mem_cons, List.not_mem_nil, or_false] at hmem
        rcases hmem with rfl | rfl | rfl | rfl <;> exact hlong _ (by omega) (by omega)

/-! ## Texts -/

namespace Token

theorem stepText_plain {b : UInt8} (h : Plain b) (raw : Bytes) :
    stepText .plain raw b = ([], .text .plain (b :: raw)) := by
  have hq : (b == 0x22) = false := by
    simpa using fun e => h.unquoted (by rw [e]; rfl)
  have hb : (b == 0x5C) = false := by
    simpa using fun e => h.unescaped (by rw [e]; rfl)
  have hv : ¬ b < 0x20 := by
    have := h.visible
    rw [UInt8.lt_iff_toNat_lt]
    show ¬ b.toNat < 32
    omega
  simp [stepText, hq, hb, hv]

theorem scanFrom_plain {bs : Bytes} (h : ∀ b ∈ bs, Plain b) (raw rest : Bytes) :
    scanFrom (.text .plain raw) (bs ++ rest) =
      scanFrom (.text .plain (bs.reverse ++ raw)) rest := by
  induction bs generalizing raw with
  | nil => rfl
  | cons b bs ih =>
    simp only [List.cons_append, scanFrom, step, stepText_plain (h b List.mem_cons_self),
      List.nil_append, List.reverse_cons, List.append_assoc]
    exact ih (fun b hb => h b (List.mem_cons_of_mem _ hb)) (b :: raw)

/-- The byte of a lower-case hex digit. -/
def hexByte (n : Nat) : UInt8 := if n < 10 then UInt8.ofNat (48 + n) else UInt8.ofNat (87 + n)

theorem hexByte_spec : ∀ n < 16, String.utf8EncodeChar (Text.hexDigit n) = [hexByte n] ∧
    isHex (hexByte n) = true ∧ Text.hexValue (hexByte n) = n := by
  decide

theorem encodeChar_control {c : Char} (hs : Text.shortEscape? c = none) (h : c.toNat < 0x20) :
    utf8 (Text.encodeChar c) =
      [0x5C, 0x75, 0x30, 0x30, hexByte (c.toNat / 16), hexByte (c.toNat % 16)] := by
  obtain ⟨hhigh, -, -⟩ := hexByte_spec (c.toNat / 16) (by omega)
  obtain ⟨hlow, -, -⟩ := hexByte_spec (c.toNat % 16) (by omega)
  simp only [Text.encodeChar, hs, if_pos h, utf8_cons, hhigh, hlow]
  rfl

theorem encodeChar_plain {c : Char} (hs : Text.shortEscape? c = none) (h : ¬ c.toNat < 0x20) :
    utf8 (Text.encodeChar c) = String.utf8EncodeChar c ∧
      ∀ b ∈ String.utf8EncodeChar c, Plain b := by
  refine ⟨by simp [Text.encodeChar, hs, h, utf8], plain_utf8EncodeChar (by omega) ?_ ?_⟩
  · intro hc
    rw [show c = '"' from Char.toNat_inj.mp hc] at hs
    cases hs
  · intro hc
    rw [show c = '\\' from Char.toNat_inj.mp hc] at hs
    cases hs

theorem scanFrom_encodeChar (c : Char) (raw rest : Bytes) :
    scanFrom (.text .plain raw) (utf8 (Text.encodeChar c) ++ rest) =
      scanFrom (.text .plain ((utf8 (Text.encodeChar c)).reverse ++ raw)) rest := by
  cases hs : Text.shortEscape? c with
  | some e =>
    unfold Text.shortEscape? at hs
    split at hs <;> cases hs <;> rfl
  | none =>
    by_cases hlow : c.toNat < 0x20
    · obtain ⟨-, hhigh, -⟩ := hexByte_spec (c.toNat / 16) (by omega)
      obtain ⟨-, hlast, -⟩ := hexByte_spec (c.toNat % 16) (by omega)
      rw [encodeChar_control hs hlow]
      have hzero : isHex 0x30 = true := rfl
      simp [scanFrom, step, stepText, isShortEscape, hzero, hhigh, hlast]
    · obtain ⟨heq, hplain⟩ := encodeChar_plain hs hlow
      rw [heq]
      exact scanFrom_plain hplain raw rest

end Token

namespace Text

theorem unescape_plain {bs : Bytes} (h : ∀ b ∈ bs, Plain b) (rest : Bytes) :
    unescape (bs ++ rest) = (unescape rest).map (bs ++ ·) := by
  induction bs with
  | nil => simp
  | cons b bs ih =>
    have hb : b ≠ 0x5C := fun e => (h b List.mem_cons_self).unescaped (by rw [e]; rfl)
    rw [List.cons_append, unescape, ih (fun b hb => h b (List.mem_cons_of_mem _ hb))]
    · simp [Function.comp_def]
    · intro _ _ _ _ _ hc _
      exact hb hc
    · intro _ _ hc _
      exact hb hc

theorem unescape_encodeChar (c : Char) (rest : Bytes) :
    unescape (utf8 (encodeChar c) ++ rest) =
      (unescape rest).map (String.utf8EncodeChar c ++ ·) := by
  cases hs : shortEscape? c with
  | some e =>
    have hs' := hs
    unfold shortEscape? at hs
    split at hs <;> cases hs <;>
      (rw [encodeChar, hs']; simp [utf8, String.utf8EncodeChar, unescape]; rfl)
  | none =>
    by_cases hlow : c.toNat < 0x20
    · obtain ⟨-, -, hhigh⟩ := Token.hexByte_spec (c.toNat / 16) (by omega)
      obtain ⟨-, -, hlast⟩ := Token.hexByte_spec (c.toNat % 16) (by omega)
      have hunit : codeUnit 0x30 0x30 (Token.hexByte (c.toNat / 16))
          (Token.hexByte (c.toNat % 16)) = c.toNat := by
        have hzero : hexValue 0x30 = 0 := rfl
        simp only [codeUnit, hhigh, hlast, hzero]
        omega
      rw [Token.encodeChar_control hs hlow]
      simp only [List.cons_append, List.nil_append]
      rw [unescape.eq_def]
      simp only [hunit]
      rw [if_neg (by omega), if_neg (by omega), Char.ofNat_toNat]
    · obtain ⟨heq, hplain⟩ := Token.encodeChar_plain hs hlow
      rw [heq]
      exact unescape_plain hplain rest

theorem unescape_encode (s : String) : unescape (utf8 (encode s)) = some (Bytes.ofText s) := by
  rw [ofText_eq_utf8, encode]
  induction s.toList with
  | nil => rfl
  | cons c cs ih =>
    rw [List.flatMap_cons, utf8_append, unescape_encodeChar, ih, utf8_cons]
    rfl

/-- A text that is written is read back. -/
theorem decode?_encode (s : String) : decode? (utf8 (encode s)) = some s := by
  rw [decode?, unescape_encode, Option.bind_some, Bytes.text?_ofText]

end Text

/-! ## Integers -/

namespace Token

/-- What can follow a value: nothing, or a byte that no number goes on with. -/
inductive Delimited : Bytes → Prop
  | nil : Delimited []
  | comma (rest : Bytes) : Delimited (0x2C :: rest)
  | closeArray (rest : Bytes) : Delimited (0x5D :: rest)
  | closeObject (rest : Bytes) : Delimited (0x7D :: rest)

theorem scanFrom_numeral_end {part : NumberPart} (hp : part = .zero ∨ part = .whole) (x : Numeral)
    {rest : Bytes} (h : Delimited rest) :
    scanFrom (.numeral part x) rest = finishNumeral x :: scanFrom .between rest := by
  rcases hp with rfl | rfl <;> cases h <;> rfl

theorem utf8EncodeChar_digit {c : Char} (h : c.isDigit) :
    ∃ b, String.utf8EncodeChar c = [b] ∧ isDigit b = true ∧ digit b = c.toNat - 48 ∧
      (b = 0x30 → c = '0') := by
  obtain ⟨hlow, hhigh⟩ := Char.isDigit_iff_toNat.mp h
  have hlow' : 48 ≤ c.toNat := hlow
  have hhigh' : c.toNat ≤ 57 := hhigh
  have hb : (UInt8.ofNat c.toNat).toNat = c.toNat := by rw [UInt8.toNat_ofNat']; omega
  refine ⟨UInt8.ofNat c.toNat, ?_, ?_, ?_, ?_⟩
  · rw [String.utf8EncodeChar]
    exact if_pos (show c.toNat ≤ 127 by omega)
  · simp only [isDigit, Bool.and_eq_true, decide_eq_true_eq, UInt8.le_iff_toNat_le, hb]
    exact ⟨hlow', hhigh'⟩
  · rw [digit, hb]
  · intro hzero
    rw [hzero] at hb
    exact Char.toNat_inj.mp hb.symm

/-- The digits of a numeral as they are kept while it is being read. -/
def digitValues (ds : List Char) : List Nat := ds.map (fun c => c.toNat - 48)

theorem scanFrom_digits {ds : List Char} (h : ∀ c ∈ ds, c.isDigit) (x : Numeral) (rest : Bytes) :
    scanFrom (.numeral .whole x) (utf8 ds ++ rest) =
      scanFrom (.numeral .whole { x with whole := (digitValues ds).reverse ++ x.whole }) rest := by
  induction ds generalizing x with
  | nil => rfl
  | cons c ds ih =>
    obtain ⟨b, hb, hdigit, hvalue, -⟩ := utf8EncodeChar_digit (h c List.mem_cons_self)
    rw [utf8_cons, hb, List.append_assoc, List.singleton_append, scanFrom]
    simp only [step, stepNumeral, hdigit, if_true, List.nil_append]
    rw [ih (fun c hc => h c (List.mem_cons_of_mem _ hc)), hvalue]
    simp [digitValues]

theorem toDigits_head (n : Nat) (h : 0 < n) : ∃ c cs, Nat.toDigits 10 n = c :: cs ∧ c ≠ '0' := by
  induction n using Nat.strongRecOn with
  | ind n ih =>
    by_cases hsmall : n < 10
    · exact ⟨_, [], Nat.toDigits_of_lt_base hsmall, by simpa using Nat.ne_of_gt h⟩
    · obtain ⟨c, cs, hcs, hc⟩ := ih (n / 10) (by omega) (by omega)
      refine ⟨c, cs ++ [(n % 10).digitChar], ?_, hc⟩
      rw [Nat.toDigits_of_base_le (by omega) (by omega), hcs, List.cons_append]

/-- A number in decimal is a zero, or digits that do not start with one. -/
theorem digitChars_cases (n : Nat) : n = 0 ∧ digitChars n = ['0'] ∨
    ∃ c cs, digitChars n = c :: cs ∧ c ≠ '0' ∧ ∀ d ∈ c :: cs, d.isDigit := by
  rcases Nat.eq_zero_or_pos n with rfl | hpos
  · exact .inl ⟨rfl, rfl⟩
  · obtain ⟨c, cs, hcs, hc⟩ := toDigits_head n hpos
    refine .inr ⟨c, cs, hcs, hc, ?_⟩
    intro d hd
    rw [← hcs] at hd
    exact Nat.isDigit_of_mem_toDigits (by omega) (by omega) hd

theorem start_digit : ∀ n < 58, 48 < n → start (UInt8.ofNat n) =
    ([], .numeral .whole (startNumeral false [digit (UInt8.ofNat n)])) := by
  decide

/-- The numeral that shows an integer. -/
def numeralOf (negative : Bool) (n : Nat) : Numeral :=
  ⟨negative, digitValues (digitChars n), [], none⟩

/-- The digits of a number, where a value or what follows its sign is due. -/
theorem scanFrom_digitChars {mode : Mode} {negative : Bool}
    (hm : mode = .between ∧ negative = false ∨
      mode = .numeral .sign (startNumeral true []) ∧ negative = true)
    (n : Nat) {rest : Bytes} (h : Delimited rest) :
    scanFrom mode (utf8 (digitChars n) ++ rest) =
      .number (numeralOf negative n) :: scanFrom .between rest := by
  rcases digitChars_cases n with ⟨-, hn⟩ | ⟨c, cs, hn, hc, hdigits⟩
  · have hzero : scanFrom mode (utf8 ['0'] ++ rest) =
        scanFrom (.numeral .zero (startNumeral negative [0])) rest := by
      rcases hm with ⟨rfl, rfl⟩ | ⟨rfl, rfl⟩ <;> rfl
    rw [numeralOf, hn, hzero, scanFrom_numeral_end (.inl rfl) _ h]
    rfl
  · obtain ⟨b, hb, hdigit, hvalue, hb0⟩ := utf8EncodeChar_digit (hdigits c List.mem_cons_self)
    have hne : b ≠ 0x30 := fun e => hc (hb0 e)
    have hfirst : scanFrom mode (b :: (utf8 cs ++ rest)) =
        scanFrom (.numeral .whole (startNumeral negative [digit b])) (utf8 cs ++ rest) := by
      rcases hm with ⟨rfl, rfl⟩ | ⟨rfl, rfl⟩
      · have hlow : 48 ≤ b.toNat ∧ b.toNat ≤ 57 := by
          simpa [isDigit, UInt8.le_iff_toNat_le] using hdigit
        have hstrict : b.toNat ≠ 48 := fun e => hne (UInt8.toNat_inj.mp e)
        have hstart := start_digit b.toNat (by omega) (by omega)
        rw [UInt8.ofNat_toNat] at hstart
        simp only [scanFrom, step, hstart, List.nil_append]
      · have hz : (b == 0x30) = false := by simpa using hne
        simp only [scanFrom, step, stepNumeral, hz, hdigit]
        rfl
    rw [numeralOf, hn, utf8_cons, hb, List.append_assoc, List.singleton_append, hfirst,
      scanFrom_digits (fun d hd => hdigits d (List.mem_cons_of_mem _ hd)),
      scanFrom_numeral_end (.inr rfl) _ h]
    simp [finishNumeral, startNumeral, digitValues, hvalue]

end Token
end GameLink.Json
