import GameLink.Message.Reply
import GameLink.Proofs.Settings.Variables

/-! # Numerals in machine words

A word takes the digits of a numeral one by one: it multiplies what it has by ten
and adds the digit, or takes it away behind a minus, and gives up at the first
step that would leave its range. What it has never comes closer to zero, so this
is the same as reading the number exactly and then looking at its range: leading
zeros are harmless, and the least number is reached although its magnitude does
not fit.
-/
namespace GameLink.Decimal

/-- The range of a machine word. -/
structure Word where
  least : Int
  greatest : Int
  least_le : least ≤ 0 := by decide
  le_greatest : 0 ≤ greatest := by decide

namespace Word

def uint16 : Word := { least := 0, greatest := 65535 }

def uint64 : Word := { least := 0, greatest := maxUInt64 }

def int64 : Word := { least := minInt64, greatest := maxInt64 }

/-- The result of an operation, unless it overflows. -/
def checked (w : Word) (n : Int) : Option Int :=
  if w.least ≤ n ∧ n ≤ w.greatest then some n else none

/-- The number of magnitude `k` above zero, or below it. -/
def away : Bool → Nat → Int
  | false, k => k
  | true, k => -k

/-- Takes digits into a word that holds `n` so far. -/
def take? (w : Word) (below : Bool) : Int → List Nat → Option Int
  | n, [] => some n
  | n, d :: ds => do
    let tens ← w.checked (10 * n)
    let next ← w.checked (tens + away below d)
    w.take? below next ds

/-- One or more digits. -/
def magnitude? (w : Word) (below : Bool) (cs : List Char) : Option Int :=
  if cs.isEmpty then none else (digits? cs).bind (w.take? below 0)

/-- The numeral in a text; only a word that has negative numbers takes a minus. -/
def read? (w : Word) (text : String) : Option Int :=
  match text.toList with
  | [] => none
  | c :: rest =>
    if c = '+' then w.magnitude? false rest
    else if c = '-' ∧ w.least < 0 then w.magnitude? true rest
    else w.magnitude? false (c :: rest)

section
variable {w : Word} {below : Bool}

/-! ## Steps of a word -/

theorem checked_eq_some_iff {n m : Int} :
    w.checked n = some m ↔ m = n ∧ w.least ≤ n ∧ n ≤ w.greatest := by
  rw [checked]
  split
  · rename_i h
    rw [Option.some.injEq, eq_comm, and_iff_left h]
  · rename_i h
    exact ⟨fun he => (nomatch he), fun he => absurd he.2 h⟩

/-- Where a magnitude overflows, so does every greater one. -/
theorem checked_eq_none_of_le {j k : Nat} (h : w.checked (away below j) = none) (hjk : j ≤ k) :
    w.checked (away below k) = none := by
  have hleast := w.least_le
  have hgreatest := w.le_greatest
  rw [Option.eq_none_iff_forall_ne_some] at h ⊢
  intro n hn
  obtain ⟨-, hrange⟩ := checked_eq_some_iff.mp hn
  refine h _ (checked_eq_some_iff.mpr ⟨rfl, ?_⟩)
  cases below <;> simp only [away] at hrange ⊢ <;> omega

theorem le_foldl_digits (k : Nat) (ds : List Nat) : k ≤ ds.foldl (fun n d => 10 * n + d) k := by
  induction ds generalizing k with
  | nil => exact Nat.le_refl k
  | cons d ds ih => exact Nat.le_trans (by omega) (ih (10 * k + d))

/-- Digits that are taken one by one overflow exactly if the number that they write does. -/
theorem take?_eq_checked {k : Nat} (hk : w.checked (away below k) = some (away below k))
    (ds : List Nat) : w.take? below (away below k) ds =
      w.checked (away below (ds.foldl (fun n d => 10 * n + d) k)) := by
  induction ds generalizing k with
  | nil => exact hk.symm
  | cons d ds ih =>
    have htens : 10 * away below k = away below (10 * k) := by
      cases below <;> simp only [away] <;> omega
    have hsum : away below (10 * k) + away below d = away below (10 * k + d) := by
      cases below <;> simp only [away] <;> omega
    have hlast : 10 * k + d ≤ ds.foldl (fun n d => 10 * n + d) (10 * k + d) := le_foldl_digits _ ds
    rw [take?, htens, List.foldl_cons, Option.bind_eq_bind]
    cases hfirst : w.checked (away below (10 * k)) with
    | none => exact (checked_eq_none_of_le hfirst (by omega)).symm
    | some tens =>
      obtain ⟨rfl, -⟩ := checked_eq_some_iff.mp hfirst
      rw [Option.bind_some, hsum]
      cases hnext : w.checked (away below (10 * k + d)) with
      | none => exact (checked_eq_none_of_le hnext hlast).symm
      | some next =>
        obtain ⟨rfl, -⟩ := checked_eq_some_iff.mp hnext
        exact ih hnext

theorem magnitude?_eq_some_iff {cs : List Char} {n : Int} :
    w.magnitude? below cs = some n ↔
      ∃ k, Digits cs k ∧ n = away below k ∧ w.least ≤ n ∧ n ≤ w.greatest := by
  have hzero : w.checked (away below 0) = some (away below 0) := by
    rw [checked_eq_some_iff]
    cases below <;> exact ⟨rfl, w.least_le, w.le_greatest⟩
  have hexact : w.magnitude? below cs = (natural? cs).bind fun k => w.checked (away below k) := by
    cases cs with
    | nil => rfl
    | cons c cs =>
      have htaken : ∀ ds, w.take? below 0 ds = w.checked (away below (ofDigits ds)) := by
        intro ds
        rw [ofDigits, ← take?_eq_checked hzero ds]
        cases below <;> rfl
      simp only [magnitude?, natural?, List.isEmpty_cons, Bool.false_eq_true, if_false,
        Option.bind_map]
      exact congrArg (Option.bind _) (funext htaken)
  simp only [hexact, Option.bind_eq_some_iff, natural?_eq_some_iff, checked_eq_some_iff]
  refine exists_congr fun k => and_congr_right fun _ => ?_
  constructor <;> (rintro ⟨rfl, h⟩; exact ⟨rfl, h⟩)

end

/-! ## Whole numerals -/

/-- The numerals that a word may be given. -/
inductive Shows (w : Word) : List Char → Int → Prop
  | plain {cs : List Char} {k : Nat} : Digits cs k → Shows w cs k
  | plus {cs : List Char} {k : Nat} : Digits cs k → Shows w ('+' :: cs) k
  | minus {cs : List Char} {k : Nat} : w.least < 0 → Digits cs k → Shows w ('-' :: cs) (-k)

theorem read?_eq_some_iff {w : Word} {text : String} {n : Int} :
    w.read? text = some n ↔ w.Shows text.toList n ∧ w.least ≤ n ∧ n ≤ w.greatest := by
  rw [read?]
  generalize text.toList = cs
  constructor
  · intro h
    split at h
    · cases h
    · split at h
      · rename_i hplus
        obtain ⟨k, hk, rfl, hrange⟩ := magnitude?_eq_some_iff.mp h
        exact ⟨hplus ▸ .plus hk, hrange⟩
      · split at h
        · rename_i hminus
          obtain ⟨k, hk, rfl, hrange⟩ := magnitude?_eq_some_iff.mp h
          exact ⟨hminus.1 ▸ .minus hminus.2 hk, hrange⟩
        · obtain ⟨k, hk, rfl, hrange⟩ := magnitude?_eq_some_iff.mp h
          exact ⟨.plain hk, hrange⟩
  · rintro ⟨h, hrange⟩
    cases h with
    | plus hk => exact magnitude?_eq_some_iff.mpr ⟨_, hk, rfl, hrange⟩
    | minus hw hk =>
      simp only [Char.reduceEq, if_false, hw, and_self, if_true]
      exact magnitude?_eq_some_iff.mpr ⟨_, hk, rfl, hrange⟩
    | plain hk =>
      cases cs with
      | nil => exact absurd rfl hk.nonempty
      | cons c rest =>
        -- a digit is no sign
        have hplus : c ≠ '+' := by
          rintro rfl
          exact absurd hk.head_isDigit (by decide)
        have hminus : c ≠ '-' := by
          rintro rfl
          exact absurd hk.head_isDigit (by decide)
        simp only [hplus, hminus, if_false, false_and]
        exact magnitude?_eq_some_iff.mpr ⟨_, hk, rfl, hrange⟩

theorem shows_iff_writesInt {w : Word} (hw : w.least < 0) {cs : List Char} {n : Int} :
    w.Shows cs n ↔ WritesInt cs n := by
  constructor
  · rintro (h | h | ⟨-, h⟩)
    · exact .plain h
    · exact .plus h
    · exact .minus h
  · rintro (h | h | h)
    · exact .plain h
    · exact .plus h
    · exact .minus hw h

theorem shows_iff_writes {w : Word} (hw : w.least = 0) {cs : List Char} {k : Nat} :
    w.Shows cs k ↔ Writes cs k := by
  constructor
  · generalize hn : (k : Int) = n
    rintro (h | h | ⟨hless, h⟩)
    · exact .plain (Int.ofNat_inj.mp hn ▸ h)
    · exact .plus (Int.ofNat_inj.mp hn ▸ h)
    · exact absurd hw (Int.ne_of_lt hless)
  · rintro (h | h)
    · exact .plain h
    · exact .plus h

end Word

/-! ## Printing -/

theorem Digits.zeros {cs : List Char} {n : Nat} (h : Digits cs n) (zeros : Nat) :
    Digits (List.replicate zeros '0' ++ cs) n := by
  induction zeros with
  | zero => exact h
  | succ zeros ih =>
    refine ⟨List.cons_ne_nil _ _, ?_, ?_⟩
    · intro c hc
      rcases List.mem_cons.mp hc with rfl | hc
      · decide
      · exact ih.digits c hc
    · exact ih.value

/-- The text that is printed, with any zeros in front. -/
theorem writes_padded (zeros n : Nat) :
    Writes (String.ofList (List.replicate zeros '0') ++ toString n).toList n := by
  have hprinted : (toString n).toList = Nat.toDigits 10 n := by simp
  rw [String.toList_append, String.toList_ofList, hprinted]
  exact .plain ((digits_toDigits n).zeros zeros)

/-! ## What is read of a text -/

open Settings (uint16InRange? uint64InRange?)

/-- A text is read as a number exactly if it writes it and it is in range, which is what a word makes
of it digit by digit. -/
structure Exact (text : String) : Prop where
  uint16 : ∀ lo hi n, uint16InRange? text lo hi = some n ↔
    Writes text.toList n.toNat ∧ lo ≤ n ∧ n ≤ hi
  uint64 : ∀ lo hi n, uint64InRange? text lo hi = some n ↔
    Writes text.toList n.toNat ∧ lo ≤ n ∧ n ≤ hi
  opCode : ∀ n, Json.Reading.opCode (.text (some text)) = .ok n ↔
    WritesInt text.toList n ∧ minInt64 ≤ n ∧ n ≤ maxInt64
  uint16_stepwise : ∀ lo hi n, uint16InRange? text lo hi = some n ↔
    Word.uint16.read? text = some (n.toNat : Int) ∧ lo ≤ n ∧ n ≤ hi
  uint64_stepwise : ∀ lo hi n, uint64InRange? text lo hi = some n ↔
    Word.uint64.read? text = some (n.toNat : Int) ∧ lo ≤ n ∧ n ≤ hi
  opCode_stepwise : ∀ n, Json.Reading.opCode (.text (some text)) = .ok n ↔
    Word.int64.read? text = some n
  /-- What is printed is read back, also with zeros in front. -/
  uint16_printed : ∀ zeros (n lo hi : UInt16),
    text = String.ofList (List.replicate zeros '0') ++ toString n → lo ≤ n → n ≤ hi →
    uint16InRange? text lo hi = some n
  uint64_printed : ∀ zeros (n lo hi : UInt64),
    text = String.ofList (List.replicate zeros '0') ++ toString n → lo ≤ n → n ≤ hi →
    uint64InRange? text lo hi = some n
  opCode_printed : ∀ n, text = toString n → minInt64 ≤ n → n ≤ maxInt64 →
    Json.Reading.opCode (.text (some text)) = .ok n

theorem opCode_eq_ok_iff {text : String} {n : Int} :
    Json.Reading.opCode (.text (some text)) = .ok n ↔
      WritesInt text.toList n ∧ minInt64 ≤ n ∧ n ≤ maxInt64 := by
  rw [← int64?_eq_some_iff, Json.Reading.opCode]
  cases int64? text <;> simp

theorem uint16_iff {text : String} {lo hi n : UInt16} : uint16InRange? text lo hi = some n ↔
    Writes text.toList n.toNat ∧ lo ≤ n ∧ n ≤ hi := by
  rw [Settings.uint16InRange?_eq_some_iff]
  exact ⟨fun h => ⟨h.written, h.low, h.high⟩, fun h => ⟨h.1, h.2.1, h.2.2⟩⟩

theorem uint64_iff {text : String} {lo hi n : UInt64} : uint64InRange? text lo hi = some n ↔
    Writes text.toList n.toNat ∧ lo ≤ n ∧ n ≤ hi := by
  rw [Settings.uint64InRange?_eq_some_iff]
  exact ⟨fun h => ⟨h.written, h.low, h.high⟩, fun h => ⟨h.1, h.2.1, h.2.2⟩⟩

/-- A word without negative numbers reads what a text writes, if it fits. -/
theorem unsigned_read?_iff {w : Word} (hw : w.least = 0) {text : String} {k : Nat}
    (hk : (k : Int) ≤ w.greatest) : w.read? text = some (k : Int) ↔ Writes text.toList k := by
  rw [Word.read?_eq_some_iff, Word.shows_iff_writes hw]
  exact and_iff_left ⟨by omega, hk⟩

theorem numerals_exact (text : String) : Exact text where
  uint16 _ _ _ := uint16_iff
  uint64 _ _ _ := uint64_iff
  opCode _ := opCode_eq_ok_iff
  uint16_stepwise lo hi n := by rw [uint16_iff, unsigned_read?_iff rfl (uint16_fits n)]
  uint64_stepwise lo hi n := by rw [uint64_iff, unsigned_read?_iff rfl (uint64_fits n)]
  opCode_stepwise n := by
    rw [opCode_eq_ok_iff, Word.read?_eq_some_iff, Word.shows_iff_writesInt (by decide)]
    rfl
  uint16_printed zeros n lo hi htext hlow hhigh :=
    uint16_iff.mpr ⟨htext ▸ writes_padded zeros n.toNat, hlow, hhigh⟩
  uint64_printed zeros n lo hi htext hlow hhigh :=
    uint64_iff.mpr ⟨htext ▸ writes_padded zeros n.toNat, hlow, hhigh⟩
  opCode_printed n htext hlow hhigh :=
    opCode_eq_ok_iff.mpr ⟨htext ▸ writesInt_toString n, hlow, hhigh⟩

/-- The least number has a magnitude that is out of range, and the one below it is refused. -/
example : Word.int64.read? "-009223372036854775808" = some (-9223372036854775808) ∧
    Word.int64.read? "-9223372036854775809" = none := by decide +kernel

end GameLink.Decimal
