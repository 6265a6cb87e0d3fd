import GameLink.Text.Decimal

/-! # Numbers and their texts

Which texts write a number, said without reading them: digits of any length, with
any zeros in front, after one sign or none. Reading accepts these and no others,
and the text that printing gives is one of them.
-/
namespace GameLink.Decimal

/-- One or more digits that stand for `n`. -/
structure Digits (cs : List Char) (n : Nat) : Prop where
  nonempty : cs ≠ []
  digits : ∀ c ∈ cs, c.isDigit
  value : Nat.ofDigitChars 10 cs 0 = n

/-- The texts of a natural number. -/
inductive Writes : List Char → Nat → Prop
  | plain {cs : List Char} {n : Nat} : Digits cs n → Writes cs n
  | plus {cs : List Char} {n : Nat} : Digits cs n → Writes ('+' :: cs) n

/-- The texts of an integer. -/
inductive WritesInt : List Char → Int → Prop
  | plain {cs : List Char} {n : Nat} : Digits cs n → WritesInt cs n
  | plus {cs : List Char} {n : Nat} : Digits cs n → WritesInt ('+' :: cs) n
  | minus {cs : List Char} {n : Nat} : Digits cs n → WritesInt ('-' :: cs) (-n)

/-! ## Digits -/

theorem digit?_eq_some_iff {c : Char} {d : Nat} :
    digit? c = some d ↔ c.isDigit ∧ d = c.toNat - 48 := by
  have hrange : ('0' ≤ c ∧ c ≤ '9') ↔ c.isDigit = true := by
    rw [Char.isDigit_iff_toNat]
    exact Iff.rfl
  rw [digit?]
  split
  · rename_i h
    exact ⟨fun heq => ⟨hrange.mp h, (Option.some.inj heq).symm⟩, fun heq => heq.2 ▸ rfl⟩
  · rename_i h
    exact ⟨fun heq => (nomatch heq), fun heq => absurd (hrange.mpr heq.1) h⟩

theorem digits?_eq_some_iff {cs : List Char} {ds : List Nat} :
    digits? cs = some ds ↔ (∀ c ∈ cs, c.isDigit) ∧ ds = cs.map (fun c => c.toNat - 48) := by
  induction cs generalizing ds with
  | nil => exact ⟨fun h => ⟨by simp, (Option.some.inj h).symm⟩, fun h => h.2 ▸ rfl⟩
  | cons c cs ih =>
    simp only [digits?, Option.bind_eq_bind, Option.bind_eq_some_iff, digit?_eq_some_iff, ih,
      List.forall_mem_cons, List.map_cons]
    constructor
    · rintro ⟨d, ⟨hc, rfl⟩, ds, ⟨hcs, rfl⟩, hout⟩
      exact ⟨⟨hc, hcs⟩, (Option.some.inj hout).symm⟩
    · rintro ⟨⟨hc, hcs⟩, rfl⟩
      exact ⟨_, ⟨hc, rfl⟩, _, ⟨hcs, rfl⟩, rfl⟩

theorem ofDigits_map (cs : List Char) :
    ofDigits (cs.map (fun c => c.toNat - 48)) = Nat.ofDigitChars 10 cs 0 := by
  rw [ofDigits, List.foldl_map]
  rfl

theorem natural?_eq_some_iff {cs : List Char} {n : Nat} : natural? cs = some n ↔ Digits cs n := by
  cases cs with
  | nil => exact ⟨fun h => (nomatch h), fun h => absurd rfl h.nonempty⟩
  | cons c cs =>
    simp only [natural?, Option.map_eq_some_iff, digits?_eq_some_iff]
    constructor
    · rintro ⟨_, ⟨hdigits, rfl⟩, rfl⟩
      exact ⟨List.cons_ne_nil c cs, hdigits, (ofDigits_map (c :: cs)).symm⟩
    · rintro ⟨-, hdigits, rfl⟩
      exact ⟨_, ⟨hdigits, rfl⟩, ofDigits_map (c :: cs)⟩

/-- Digits start with no sign. -/
theorem Digits.head_isDigit {c : Char} {cs : List Char} {n : Nat} (h : Digits (c :: cs) n) :
    c.isDigit := h.digits c List.mem_cons_self

theorem digits_toDigits (n : Nat) : Digits (Nat.toDigits 10 n) n where
  nonempty := Nat.toDigits_ne_nil
  digits _ := Nat.isDigit_of_mem_toDigits (by omega) (by omega)
  value := Nat.ofDigitChars_ten_toDigits

/-! ## Signs -/

theorem unsigned?_eq_some_iff {cs : List Char} {n : Nat} :
    unsigned? cs = some n ↔ Writes cs n := by
  constructor
  · intro h
    unfold unsigned? at h
    split at h
    · exact .plus (natural?_eq_some_iff.mp h)
    · exact .plain (natural?_eq_some_iff.mp h)
  · rintro (h | h)
    -- without a sign the text is no `'+' :: _`, as its first character is a digit
    · unfold unsigned?
      split
      · exact absurd h.head_isDigit (by decide)
      · exact natural?_eq_some_iff.mpr h
    · exact natural?_eq_some_iff.mpr h

theorem signed?_eq_some_iff {cs : List Char} {n : Int} : signed? cs = some n ↔ WritesInt cs n := by
  constructor
  · intro h
    unfold signed? at h
    split at h <;>
      simp only [Option.map_eq_some_iff, Option.bind_eq_bind, Option.bind_eq_some_iff,
        natural?_eq_some_iff] at h <;>
      obtain ⟨_, ⟨k, hk, heq⟩, rfl⟩ := h <;> cases heq
    · exact .minus hk
    · exact .plus hk
    · exact .plain hk
  · rintro (h | h | h)
    · unfold signed?
      split
      · exact absurd h.head_isDigit (by decide)
      · exact absurd h.head_isDigit (by decide)
      · rw [natural?_eq_some_iff.mpr h]
        rfl
    · rw [signed?, natural?_eq_some_iff.mpr h]
      rfl
    · rw [signed?, natural?_eq_some_iff.mpr h]
      rfl

/-! ## Ranges -/

/-- A number is read if and only if the text writes it and it lies in the range. -/
theorem inRange?_eq_some_iff {lo hi n : Nat} {text : String} :
    inRange? lo hi text = some n ↔ Writes text.toList n ∧ lo ≤ n ∧ n ≤ hi := by
  rw [inRange?, Option.filter_eq_some_iff, unsigned?_eq_some_iff, Bool.and_eq_true,
    decide_eq_true_eq, decide_eq_true_eq]

theorem int64?_eq_some_iff {n : Int} {text : String} :
    int64? text = some n ↔ WritesInt text.toList n ∧ minInt64 ≤ n ∧ n ≤ maxInt64 := by
  rw [int64?, Option.filter_eq_some_iff, signed?_eq_some_iff, Bool.and_eq_true,
    decide_eq_true_eq, decide_eq_true_eq]

theorem uint16_fits (n : UInt16) : (n.toNat : Int) ≤ 65535 :=
  Int.ofNat_le.mpr (Nat.le_of_lt_succ n.toNat_lt)

theorem uint64_fits (n : UInt64) : (n.toNat : Int) ≤ maxUInt64 :=
  Int.ofNat_le.mpr (Nat.le_of_lt_succ n.toNat_lt)

/-! ## Printing -/

theorem writesInt_toString (n : Int) : WritesInt (toString n).toList n := by
  cases n with
  | ofNat n =>
    have h : (toString (Int.ofNat n)).toList = Nat.toDigits 10 n := by
      rw [show toString (Int.ofNat n) = toString n from rfl]
      simp
    rw [h]
    exact .plain (digits_toDigits n)
  | negSucc n =>
    have h : (toString (Int.negSucc n)).toList = '-' :: Nat.toDigits 10 (n + 1) := by
      rw [show toString (Int.negSucc n) = "-" ++ toString (n + 1) from rfl]
      simp
    rw [h]
    exact .minus (digits_toDigits (n + 1))

/-- A number of 64 bits that is printed is read back. -/
theorem int64?_toString {n : Int} (hlow : minInt64 ≤ n) (hhigh : n ≤ maxInt64) :
    int64? (toString n) = some n :=
  int64?_eq_some_iff.mpr ⟨writesInt_toString n, hlow, hhigh⟩

end GameLink.Decimal
