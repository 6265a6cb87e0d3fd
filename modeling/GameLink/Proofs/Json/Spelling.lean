import Mathlib.Data.List.Basic
import GameLink.Proofs.Json.Scanned

/-! # How tokens are spelled

The bytes of each token, said without the scanner, and texts of tokens with blanks
between them. Scanning finds the tokens of every such text, and a text in which it
finds no fault is one (`scan_eq_iff`). The scanner is followed byte by byte: what it
has read of a token is the beginning of a spelling, and a number is the only token
that ends before the byte that tells so.
-/
namespace GameLink.Json.Token

/-! ## Numbers -/

/-- One digit or more. -/
structure Figures (bs : Bytes) : Prop where
  nonempty : bs ≠ []
  digits : ∀ b ∈ bs, isDigit b = true

inductive Sign : Bool → Bytes → Prop
  | none : Sign false []
  | minus : Sign true [0x2D]

/-- A zero by itself, or digits that do not start with one. -/
inductive Whole : List Nat → Bytes → Prop
  | zero : Whole [0] [0x30]
  | figures {b : UInt8} {bs : Bytes} (nonzero : b ≠ 0x30) (figures : Figures (b :: bs)) :
      Whole ((b :: bs).map digit) (b :: bs)

inductive Fraction : List Nat → Bytes → Prop
  | none : Fraction [] []
  | figures {bs : Bytes} (figures : Figures bs) : Fraction (bs.map digit) (0x2E :: bs)

/-- The letter of an exponent and its sign. -/
inductive Mark : Bool → Bytes → Prop
  | plain {b : UInt8} (letter : b = 0x65 ∨ b = 0x45) : Mark false [b]
  | plus {b : UInt8} (letter : b = 0x65 ∨ b = 0x45) : Mark false [b, 0x2B]
  | minus {b : UInt8} (letter : b = 0x65 ∨ b = 0x45) : Mark true [b, 0x2D]

inductive Power : Option (Bool × List Nat) → Bytes → Prop
  | none : Power none []
  | figures {below : Bool} {ms bs : Bytes} (mark : Mark below ms) (figures : Figures bs) :
      Power (some (below, bs.map digit)) (ms ++ bs)

/-! ## Texts and all tokens -/

/-- What may stand between quotes. -/
inductive Raw : Bytes → Prop
  | nil : Raw []
  | plain {b : UInt8} {bs : Bytes} (plain : Plain b) (more : Raw bs) : Raw (b :: bs)
  | short {b : UInt8} {bs : Bytes} (short : isShortEscape b = true) (more : Raw bs) :
      Raw (0x5C :: b :: bs)
  | unit {a b c d : UInt8} {bs : Bytes} (hex : ∀ h ∈ [a, b, c, d], isHex h = true)
      (more : Raw bs) : Raw (0x5C :: 0x75 :: a :: b :: c :: d :: bs)

inductive Spells : Token → Bytes → Prop
  | openArray : Spells .openArray [0x5B]
  | closeArray : Spells .closeArray [0x5D]
  | openObject : Spells .openObject [0x7B]
  | closeObject : Spells .closeObject [0x7D]
  | comma : Spells .comma [0x2C]
  | colon : Spells .colon [0x3A]
  | null : Spells .null [0x6E, 0x75, 0x6C, 0x6C]
  | true : Spells (.bool true) [0x74, 0x72, 0x75, 0x65]
  | false : Spells (.bool false) [0x66, 0x61, 0x6C, 0x73, 0x65]
  | number {negative : Bool} {w f : List Nat} {p : Option (Bool × List Nat)}
      {ss ws fs ps : Bytes} (sign : Sign negative ss) (whole : Whole w ws)
      (fraction : Fraction f fs) (power : Power p ps) :
      Spells (.number ⟨negative, w, f, p⟩) (ss ++ (ws ++ (fs ++ ps)))
  | text {raw : Bytes} (inner : Raw raw) : Spells (.text raw) (0x22 :: (raw ++ [0x22]))

/-- A byte that a number could go on with. -/
def continues (b : UInt8) : Bool := isDigit b || b == 0x2E || b == 0x65 || b == 0x45

/-- A number is as long as it can be; other tokens end by themselves. -/
def Ends (t : Token) (rest : Bytes) : Prop :=
  ∀ n, t = .number n → ∀ b ∈ rest.head?, continues b = false

/-- A text of tokens, with any blanks before, between and after them. -/
inductive Spaced : Bytes → List Token → Prop
  | nil : Spaced [] []
  | blank {b : UInt8} {bs : Bytes} {ts : List Token} (blank : isBlank b = true)
      (more : Spaced bs ts) : Spaced (b :: bs) ts
  | token {t : Token} {bs rest : Bytes} {ts : List Token} (spells : Spells t bs)
      (ends : Ends t rest) (more : Spaced rest ts) : Spaced (bs ++ rest) (t :: ts)

/-! ## Spelled tokens are scanned -/

/-- Parts of a number after which it may end. -/
def NumberPart.complete : NumberPart → Bool
  | .zero | .whole | .fraction | .power => true
  | _ => false

theorem scanFrom_complete {part : NumberPart} (hp : part.complete = true) (n : Numeral)
    {rest : Bytes} (h : ∀ b ∈ rest.head?, continues b = false) :
    scanFrom (.numeral part n) rest = finishNumeral n :: scanFrom .between rest := by
  cases rest with
  | nil => cases part <;> first | rfl | cases hp
  | cons b rest =>
    have hb := h b rfl
    simp only [continues, Bool.or_eq_false_iff] at hb
    obtain ⟨⟨⟨digit, point⟩, mark⟩, Mark⟩ := hb
    have ended : stepNumeral part n b = endNumeral n b := by
      cases part <;> first | (simp [stepNumeral, afterDigits, digit, point, mark, Mark]; done) | cases hp
    simp [scanFrom, step, ended, endNumeral]

/-- Digits are read where the scanner stays in the same part and adds each of them to its number. -/
theorem scanFrom_figures {part : NumberPart} {add : Numeral → List Nat → Numeral}
    (nil : ∀ n, add n [] = n) (cons : ∀ n d ds, add (add n [d]) ds = add n (d :: ds))
    (stays : ∀ n b, isDigit b = true →
      stepNumeral part n b = ([], .numeral part (add n [digit b])))
    {ds : Bytes} (h : ∀ b ∈ ds, isDigit b = true) (n : Numeral) (rest : Bytes) :
    scanFrom (.numeral part n) (ds ++ rest) =
      scanFrom (.numeral part (add n (ds.map digit))) rest := by
  induction ds generalizing n with
  | nil => rw [List.map_nil, nil, List.nil_append]
  | cons b ds ih =>
    rw [List.forall_mem_cons] at h
    simp only [List.cons_append, scanFrom, step, stays n b h.1, List.nil_append, ih h.2, cons,
      List.map_cons]

theorem scanFrom_whole_figures {ds : Bytes} (h : ∀ b ∈ ds, isDigit b = true) (n : Numeral)
    (rest : Bytes) : scanFrom (.numeral .whole n) (ds ++ rest) =
      scanFrom (.numeral .whole { n with whole := (ds.map digit).reverse ++ n.whole }) rest :=
  @scanFrom_figures .whole (fun n ds => { n with whole := ds.reverse ++ n.whole }) (fun _ => rfl)
    (by simp) (fun n b hb => by simp [stepNumeral, hb]) ds h n rest

theorem scanFrom_fraction_figures {ds : Bytes} (h : ∀ b ∈ ds, isDigit b = true) (n : Numeral)
    (rest : Bytes) : scanFrom (.numeral .fraction n) (ds ++ rest) =
      scanFrom (.numeral .fraction { n with fraction := (ds.map digit).reverse ++ n.fraction })
        rest :=
  @scanFrom_figures .fraction (fun n ds => { n with fraction := ds.reverse ++ n.fraction })
    (fun _ => rfl) (by simp) (fun n b hb => by simp [stepNumeral, hb]) ds h n rest

theorem scanFrom_power_figures {ds : Bytes} (h : ∀ b ∈ ds, isDigit b = true) (n : Numeral)
    (rest : Bytes) : scanFrom (.numeral .power n) (ds ++ rest) =
      scanFrom (.numeral .power
        { n with power := n.power.map fun p => (p.1, (ds.map digit).reverse ++ p.2) }) rest :=
  @scanFrom_figures .power
    (fun n ds => { n with power := n.power.map fun p => (p.1, ds.reverse ++ p.2) })
    (by simp) (by simp [Function.comp_def]) (fun n b hb => by simp [stepNumeral, hb, addPower])
    ds h n rest

/-- A digit where a value is due, or after a minus, begins a number. -/
theorem start_figure {b : UInt8} (hb : isDigit b = true) (hne : b ≠ 0x30) :
    start b = ([], .numeral .whole (startNumeral false [digit b])) := by
  have bounds : 48 ≤ b.toNat ∧ b.toNat ≤ 57 := by
    simpa [isDigit, UInt8.le_iff_toNat_le] using hb
  have strict : b.toNat ≠ 48 := fun h => hne (UInt8.toNat_inj.mp h)
  have started := start_digit b.toNat (by omega) (by omega)
  rwa [UInt8.ofNat_toNat] at started

section
variable {negative : Bool} {w f : List Nat} {p : Option (Bool × List Nat)} {ss ws fs ps : Bytes}

theorem scanFrom_whole (sign : Sign negative ss) (whole : Whole w ws) (rest : Bytes) :
    ∃ part, (part = .zero ∨ part = .whole) ∧ scanFrom .between (ss ++ (ws ++ rest)) =
      scanFrom (.numeral part ⟨negative, w.reverse, [], none⟩) rest := by
  cases whole with
  | zero =>
    refine ⟨.zero, .inl rfl, ?_⟩
    cases sign <;> rfl
  | @figures b bs nonzero figures =>
    obtain ⟨hb, hbs⟩ := List.forall_mem_cons.mp figures.digits
    refine ⟨.whole, .inr rfl, ?_⟩
    have first : scanFrom .between (ss ++ (b :: bs ++ rest)) =
        scanFrom (.numeral .whole (startNumeral negative [digit b])) (bs ++ rest) := by
      cases sign with
      | none => simp [scanFrom, step, start_figure hb nonzero]
      | minus =>
        have after : stepNumeral .sign (startNumeral true []) b =
            ([], .numeral .whole (startNumeral true [digit b])) := by
          simp [stepNumeral, nonzero, hb, startNumeral]
        exact congrArg (fun s : List Token × Mode => s.1 ++ scanFrom s.2 (bs ++ rest)) after
    rw [first, scanFrom_whole_figures hbs]
    simp [startNumeral]

theorem scanFrom_fraction (fraction : Fraction f fs) {part : NumberPart}
    (hp : part = .zero ∨ part = .whole) (rest : Bytes) :
    ∃ part', (part' = .zero ∨ part' = .whole ∨ part' = .fraction) ∧
      scanFrom (.numeral part ⟨negative, w, [], none⟩) (fs ++ rest) =
        scanFrom (.numeral part' ⟨negative, w, f.reverse, none⟩) rest := by
  cases fraction with
  | none => exact ⟨part, hp.imp_right .inl, rfl⟩
  | @figures bs figures =>
    refine ⟨.fraction, .inr (.inr rfl), ?_⟩
    obtain ⟨b, bs, rfl⟩ := List.exists_cons_of_ne_nil figures.nonempty
    obtain ⟨hb, hbs⟩ := List.forall_mem_cons.mp figures.digits
    have point : scanFrom (.numeral part ⟨negative, w, [], none⟩) (0x2E :: (b :: bs ++ rest)) =
        scanFrom (.numeral .point ⟨negative, w, [], none⟩) (b :: bs ++ rest) := by
      rcases hp with rfl | rfl <;> rfl
    have first : scanFrom (.numeral .point ⟨negative, w, [], none⟩) (b :: bs ++ rest) =
        scanFrom (.numeral .fraction ⟨negative, w, [digit b], none⟩) (bs ++ rest) := by
      simp [scanFrom, step, stepNumeral, hb]
    rw [List.cons_append, point, first, scanFrom_fraction_figures hbs]
    simp

theorem scanFrom_mark {below : Bool} {ms : Bytes} (mark : Mark below ms) {part : NumberPart}
    (hp : part = .zero ∨ part = .whole ∨ part = .fraction) (n : Numeral) (rest : Bytes) :
    ∃ part', (part' = .mark ∨ part' = .powerSign) ∧ scanFrom (.numeral part n) (ms ++ rest) =
      scanFrom (.numeral part' (startPower n below)) rest := by
  cases mark with
  | plain letter =>
    refine ⟨.mark, .inl rfl, ?_⟩
    rcases hp with rfl | rfl | rfl <;> rcases letter with rfl | rfl <;> rfl
  | plus letter | minus letter =>
    refine ⟨.powerSign, .inr rfl, ?_⟩
    rcases hp with rfl | rfl | rfl <;> rcases letter with rfl | rfl <;> rfl

theorem stepNumeral_first_power {part : NumberPart} (hp : part = .mark ∨ part = .powerSign)
    {b : UInt8} (hb : isDigit b = true) (n : Numeral) :
    stepNumeral part n b = ([], .numeral .power (addPower n (digit b))) := by
  have bounds : 48 ≤ b.toNat ∧ b.toNat ≤ 57 := by
    simpa [isDigit, UInt8.le_iff_toNat_le] using hb
  have unsigned : (b == 0x2B) = false ∧ (b == 0x2D) = false := by
    constructor <;> refine beq_eq_false_iff_ne.mpr fun h => ?_ <;> rw [h] at bounds <;>
      exact absurd bounds (by decide)
  rcases hp with rfl | rfl <;> simp [stepNumeral, hb, unsigned]

theorem scanFrom_power (power : Power p ps) {part : NumberPart}
    (hp : part = .zero ∨ part = .whole ∨ part = .fraction) (rest : Bytes) :
    ∃ part', part'.complete = true ∧ scanFrom (.numeral part ⟨negative, w, f, none⟩) (ps ++ rest) =
      scanFrom (.numeral part' ⟨negative, w, f, p.map fun e => (e.1, e.2.reverse)⟩) rest := by
  cases power with
  | none =>
    refine ⟨part, ?_, rfl⟩
    rcases hp with rfl | rfl | rfl <;> rfl
  | @figures below ms bs mark figures =>
    refine ⟨.power, rfl, ?_⟩
    obtain ⟨b, bs, rfl⟩ := List.exists_cons_of_ne_nil figures.nonempty
    obtain ⟨hb, hbs⟩ := List.forall_mem_cons.mp figures.digits
    obtain ⟨part', hpart, marked⟩ := scanFrom_mark mark hp ⟨negative, w, f, none⟩ (b :: bs ++ rest)
    have first : scanFrom (.numeral part' (startPower ⟨negative, w, f, none⟩ below))
        (b :: bs ++ rest) =
        scanFrom (.numeral .power ⟨negative, w, f, some (below, [digit b])⟩) (bs ++ rest) := by
      simp only [List.cons_append, scanFrom, step, stepNumeral_first_power hpart hb]
      rfl
    rw [List.append_assoc, marked, first, scanFrom_power_figures hbs]
    simp

theorem scanFrom_number (sign : Sign negative ss) (whole : Whole w ws) (fraction : Fraction f fs)
    (power : Power p ps) {rest : Bytes} (ends : ∀ b ∈ rest.head?, continues b = false) :
    scanFrom .between (ss ++ (ws ++ (fs ++ ps)) ++ rest) =
      .number ⟨negative, w, f, p⟩ :: scanFrom .between rest := by
  obtain ⟨part, hpart, whole⟩ := scanFrom_whole sign whole (fs ++ (ps ++ rest))
  obtain ⟨part, hpart, fraction⟩ :=
    @scanFrom_fraction negative w.reverse _ _ fraction _ hpart (ps ++ rest)
  obtain ⟨part, complete, power⟩ :=
    @scanFrom_power negative w.reverse f.reverse _ _ power _ hpart rest
  simp only [List.append_assoc]
  rw [whole, fraction, power, scanFrom_complete complete _ ends]
  simp [finishNumeral, Function.comp_def]

end

theorem scanFrom_raw {raw : Bytes} (h : Raw raw) (before rest : Bytes) :
    scanFrom (.text .plain before) (raw ++ rest) =
      scanFrom (.text .plain (raw.reverse ++ before)) rest := by
  induction h generalizing before with
  | nil => rfl
  | plain plain _ ih => simp [scanFrom, step, stepText_plain plain, ih]
  | @short b bs short _ ih => simp [scanFrom, step, stepText, short, ih]
  | @unit a b c d bs hex _ ih =>
    have unescaped : isShortEscape 0x75 = false := rfl
    have ha := hex a (by simp)
    have hb := hex b (by simp)
    have hc := hex c (by simp)
    have hd := hex d (by simp)
    simp [scanFrom, step, stepText, unescaped, ha, hb, hc, hd, ih]

/-- A token is scanned off the front of a text that it does not go on into. -/
theorem scanFrom_spells {t : Token} {bs rest : Bytes} (h : Spells t bs) (ends : Ends t rest) :
    scanFrom .between (bs ++ rest) = t :: scanFrom .between rest := by
  cases h with
  | number sign whole fraction power => exact scanFrom_number sign whole fraction power (ends _ rfl)
  | @text raw inner =>
    have opened : scanFrom .between (0x22 :: (raw ++ [0x22]) ++ rest) =
        scanFrom (.text .plain []) (raw ++ 0x22 :: rest) := by
      simp [scanFrom, step, start, isBlank]
    rw [opened, scanFrom_raw inner, List.append_nil, scanFrom]
    simp [step, stepText]
  | _ => rfl

theorem scan_spaced {bytes : Bytes} {ts : List Token} (h : Spaced bytes ts) : scan bytes = ts := by
  induction h with
  | nil => rfl
  | blank blank _ ih =>
    rw [scan, scanFrom, step, start, if_pos blank]
    exact ih
  | token spells ends _ ih =>
    rw [scan, scanFrom_spells spells ends]
    exact congrArg _ ih

/-! ## Scanned tokens are spelled -/

theorem Raw.append {as bs : Bytes} (h : Raw as) (h' : Raw bs) : Raw (as ++ bs) := by
  induction h with
  | nil => exact h'
  | plain plain _ ih => exact .plain plain ih
  | short short _ ih => exact .short short ih
  | unit hex _ ih => exact .unit hex ih

theorem Figures.append_singleton {bs : Bytes} (h : Figures bs) {b : UInt8}
    (hb : isDigit b = true) : Figures (bs ++ [b]) where
  nonempty := by simp
  digits := by
    intro c hc
    rcases List.mem_append.mp hc with hc | hc
    · exact h.digits c hc
    · exact List.mem_singleton.mp hc ▸ hb

theorem Figures.singleton {b : UInt8} (hb : isDigit b = true) : Figures [b] :=
  ⟨List.cons_ne_nil b [], fun _ hc => List.mem_singleton.mp hc ▸ hb⟩

/-- What the scanner has read of a token when it is in the middle of it. Between tokens it has
read nothing. -/
inductive Begins : Mode → Bytes → Prop
  | between : Begins .between []
  | word {read : Bytes} {next : UInt8} {more : Bytes} {t : Token} (number : ∀ n, t ≠ .number n)
      (spells : Spells t (read ++ next :: more)) : Begins (.word next more t) read
  | sign : Begins (.numeral .sign ⟨true, [], [], none⟩) [0x2D]
  | zero {negative : Bool} {ss : Bytes} (sign : Sign negative ss) :
      Begins (.numeral .zero ⟨negative, [0], [], none⟩) (ss ++ [0x30])
  | whole {negative : Bool} {b : UInt8} {ss bs : Bytes} (sign : Sign negative ss)
      (nonzero : b ≠ 0x30) (figures : Figures (b :: bs)) :
      Begins (.numeral .whole ⟨negative, ((b :: bs).map digit).reverse, [], none⟩) (ss ++ b :: bs)
  | point {negative : Bool} {w : List Nat} {ss ws : Bytes} (sign : Sign negative ss)
      (whole : Whole w ws) :
      Begins (.numeral .point ⟨negative, w.reverse, [], none⟩) (ss ++ (ws ++ [0x2E]))
  | fraction {negative : Bool} {w : List Nat} {ss ws bs : Bytes} (sign : Sign negative ss)
      (whole : Whole w ws) (figures : Figures bs) :
      Begins (.numeral .fraction ⟨negative, w.reverse, (bs.map digit).reverse, none⟩)
        (ss ++ (ws ++ 0x2E :: bs))
  | mark {negative : Bool} {w f : List Nat} {ss ws fs : Bytes} {b : UInt8}
      (sign : Sign negative ss) (whole : Whole w ws) (fraction : Fraction f fs)
      (letter : b = 0x65 ∨ b = 0x45) :
      Begins (.numeral .mark ⟨negative, w.reverse, f.reverse, some (false, [])⟩)
        (ss ++ (ws ++ (fs ++ [b])))
  | powerSign {negative below : Bool} {w f : List Nat} {ss ws fs : Bytes} {b c : UInt8}
      (sign : Sign negative ss) (whole : Whole w ws) (fraction : Fraction f fs)
      (mark : Mark below [b, c]) :
      Begins (.numeral .powerSign ⟨negative, w.reverse, f.reverse, some (below, [])⟩)
        (ss ++ (ws ++ (fs ++ [b, c])))
  | power {negative below : Bool} {w f : List Nat} {ss ws fs ms bs : Bytes}
      (sign : Sign negative ss) (whole : Whole w ws) (fraction : Fraction f fs)
      (mark : Mark below ms) (figures : Figures bs) :
      Begins (.numeral .power
        ⟨negative, w.reverse, f.reverse, some (below, (bs.map digit).reverse)⟩)
        (ss ++ (ws ++ (fs ++ (ms ++ bs))))
  | text {raw : Bytes} (inner : Raw raw) : Begins (.text .plain raw.reverse) (0x22 :: raw)
  | escape {raw : Bytes} (inner : Raw raw) :
      Begins (.text .escape (raw ++ [0x5C]).reverse) (0x22 :: (raw ++ [0x5C]))
  | unit {raw hs : Bytes} {left : Nat} (inner : Raw raw) (hex : ∀ h ∈ hs, isHex h = true)
      (four : hs.length + left = 4) (more : 0 < left) :
      Begins (.text (.hex left) (raw ++ 0x5C :: 0x75 :: hs).reverse)
        (0x22 :: (raw ++ 0x5C :: 0x75 :: hs))

/-- A number that may end is spelled. -/
theorem Begins.number {part : NumberPart} {n : Numeral} {read : Bytes}
    (h : Begins (.numeral part n) read) (hp : part.complete = true) :
    Spells (finishNumeral n) read := by
  cases h with
  | zero sign => simpa [finishNumeral] using Spells.number sign .zero .none .none
  | whole sign nonzero figures =>
    simpa [finishNumeral] using Spells.number sign (.figures nonzero figures) .none .none
  | fraction sign whole figures =>
    simpa [finishNumeral] using Spells.number sign whole (.figures figures) .none
  | power sign whole fraction mark figures =>
    simpa [finishNumeral] using Spells.number sign whole fraction (.figures mark figures)
  | _ => cases hp

/-- What a byte in the middle of a token makes of what has been read. -/
inductive Goes (read : Bytes) (b : UInt8) : List Token × Mode → Prop
  | on {mode : Mode} (h : Begins mode (read ++ [b])) : Goes read b ([], mode)
  | ends {t : Token} (number : ∀ n, t ≠ .number n) (h : Spells t (read ++ [b])) :
      Goes read b ([t], .between)
  | before {n : Numeral} (h : Spells (finishNumeral n) read) (figure : isDigit b = false) :
      Goes read b (endNumeral n b)
  | fault : Goes read b ([], .fault)

/-- A choice by one byte, where the byte is known in the first case. -/
theorem byte_cases {α : Type} {motive : α → Prop} {b c : UInt8} {x y : α}
    (h : b = c → motive x) (h' : b ≠ c → motive y) : motive (if b == c then x else y) :=
  iteInduction (fun hb => h (beq_iff_eq.mp hb)) fun hb => h' fun heq => hb (beq_iff_eq.mpr heq)

theorem goes_word {next : UInt8} {more read : Bytes} {t : Token}
    (h : Begins (.word next more t) read) (b : UInt8) : Goes read b (stepWord next more t b) := by
  cases h with
  | word number spells =>
    unfold stepWord
    refine byte_cases (fun hb => ?_) fun _ => .fault
    subst hb
    cases more with
    | nil => exact .ends number spells
    | cons next more => exact .on (.word number (by simpa using spells))

theorem goes_text {part : TextPart} {raw read : Bytes} (h : Begins (.text part raw) read)
    (b : UInt8) : Goes read b (stepText part raw b) := by
  cases h with
  | @text raw inner =>
    rw [stepText]
    refine byte_cases (fun hb => ?_) fun hquote => byte_cases (fun hb => ?_) fun hescape => ?_
    · rw [hb, List.reverse_reverse]
      exact .ends (by simp) (.text inner)
    · rw [hb]
      exact .on (by simpa using Begins.escape inner)
    · refine iteInduction (fun _ => .fault) fun hlow => ?_
      have plain : Plain b := {
        unquoted := fun h => hquote (UInt8.toNat_inj.mp h)
        unescaped := fun h => hescape (UInt8.toNat_inj.mp h)
        visible := Nat.le_of_not_lt fun h => hlow (UInt8.lt_iff_toNat_lt.mpr h) }
      exact .on (by simpa using Begins.text (inner.append (.plain plain .nil)))
  | @escape raw inner =>
    rw [stepText]
    refine iteInduction (fun short => ?_) fun _ => byte_cases (fun hb => ?_) fun _ => .fault
    · exact .on (by simpa using Begins.text (inner.append (.short short .nil)))
    · rw [hb]
      have begun : Begins (.text (.hex 4) (raw ++ [0x5C, 0x75]).reverse) _ :=
        .unit inner (by simp) rfl (by decide)
      exact .on (by simpa using begun)
  | @unit raw hs left inner hex four more =>
    rw [stepText]
    refine iteInduction (fun hb => ?_) fun _ => .fault
    have hex' : ∀ h ∈ hs ++ [b], isHex h = true := by
      intro h hmem
      rcases List.mem_append.mp hmem with hmem | hmem
      · exact hex h hmem
      · exact List.mem_singleton.mp hmem ▸ hb
    split
    · -- the fourth digit ends the escape
      obtain ⟨x, y, z, rfl⟩ := List.length_eq_three.mp (by omega : hs.length = 3)
      exact .on (by simpa using Begins.text (inner.append (.unit hex' .nil)))
    · have four' : (hs ++ [b]).length + (left - 1) = 4 := by
        rw [List.length_append, List.length_singleton]
        omega
      exact .on (by simpa using Begins.unit inner hex' four' (by omega))

/-- After the integer part or the fraction, where no digit follows. -/
theorem goes_afterDigits {n : Numeral} {read : Bytes} {point : Bool} {b : UInt8}
    (spells : Spells (finishNumeral n) read) (figure : isDigit b = false)
    (goes : point = true → Begins (.numeral .point n) (read ++ [0x2E]))
    (marks : ∀ c, c = 0x65 ∨ c = 0x45 → Begins (.numeral .mark (startPower n false)) (read ++ [c])) :
    Goes read b (afterDigits n point b) := by
  rw [afterDigits]
  refine iteInduction (fun hb => ?_) fun _ => iteInduction (fun hb => ?_) fun _ =>
    .before spells figure
  · rw [Bool.and_eq_true, beq_iff_eq] at hb
    rw [hb.2]
    exact .on (goes hb.1)
  · exact .on (marks b (by simpa using hb))

theorem goes_numeral {part : NumberPart} {n : Numeral} {read : Bytes}
    (h : Begins (.numeral part n) read) (b : UInt8) : Goes read b (stepNumeral part n b) := by
  have spells : part.complete = true → Spells (finishNumeral n) read := h.number
  cases h with
  | sign =>
    rw [stepNumeral]
    refine byte_cases (fun hb => ?_) fun nonzero => iteInduction (fun hb => ?_) fun _ => .fault
    · rw [hb]
      exact .on (.zero .minus)
    · exact .on (.whole .minus nonzero (.singleton hb))
  | zero sign =>
    rw [stepNumeral]
    refine iteInduction (fun _ => .fault) fun hb => ?_
    refine goes_afterDigits (spells rfl) (Bool.eq_false_iff.mpr hb) (fun _ => ?_) fun c hc => ?_
    · simpa using Begins.point sign .zero
    · simpa [startPower] using Begins.mark sign .zero .none hc
  | @whole negative c ss bs sign nonzero figures =>
    rw [stepNumeral]
    refine iteInduction (fun hb => ?_) fun hb => ?_
    · have figures' : Figures (c :: (bs ++ [b])) := figures.append_singleton hb
      exact .on (by simpa using Begins.whole sign nonzero figures')
    · have whole : Whole _ (c :: bs) := .figures nonzero figures
      refine goes_afterDigits (spells rfl) (Bool.eq_false_iff.mpr hb) (fun _ => ?_) fun d hd => ?_
      · simpa using Begins.point sign whole
      · simpa [startPower] using Begins.mark sign whole .none hd
  | point sign whole =>
    rw [stepNumeral]
    refine iteInduction (fun hb => ?_) fun _ => .fault
    exact .on (by simpa using Begins.fraction sign whole (.singleton hb))
  | fraction sign whole figures =>
    rw [stepNumeral]
    refine iteInduction (fun hb => ?_) fun hb => ?_
    · exact .on (by simpa using Begins.fraction sign whole (figures.append_singleton hb))
    · refine goes_afterDigits (spells rfl) (Bool.eq_false_iff.mpr hb) (by simp) fun c hc => ?_
      simpa [startPower] using Begins.mark sign whole (.figures figures) hc
  | mark sign whole fraction letter =>
    rw [stepNumeral]
    refine byte_cases (fun hb => ?_) fun _ => byte_cases (fun hb => ?_) fun _ =>
      iteInduction (fun hb => ?_) fun _ => .fault
    · rw [hb]
      exact .on (by simpa using Begins.powerSign sign whole fraction (.plus letter))
    · rw [hb]
      exact .on (by
        simpa [startPower] using Begins.powerSign sign whole fraction (.minus letter))
    · have figures := Figures.singleton hb
      exact .on (by
        simpa [addPower] using Begins.power sign whole fraction (.plain letter) figures)
  | powerSign sign whole fraction mark =>
    rw [stepNumeral]
    refine iteInduction (fun hb => ?_) fun _ => .fault
    have figures := Figures.singleton hb
    exact .on (by simpa [addPower] using Begins.power sign whole fraction mark figures)
  | power sign whole fraction mark figures =>
    rw [stepNumeral]
    refine iteInduction (fun hb => ?_) fun hb => ?_
    · have figures' := figures.append_singleton hb
      exact .on (by simpa [addPower] using Begins.power sign whole fraction mark figures')
    · exact .before (spells rfl) (Bool.eq_false_iff.mpr hb)

/-- What a byte makes between tokens. -/
inductive Starts (b : UInt8) : List Token × Mode → Prop
  | blank (h : isBlank b = true) : Starts b ([], .between)
  | token {t : Token} (number : ∀ n, t ≠ .number n) (h : Spells t [b]) : Starts b ([t], .between)
  | on {mode : Mode} (h : Begins mode [b]) : Starts b ([], mode)
  | fault : Starts b ([], .fault)

theorem starts (b : UInt8) : Starts b (start b) := by
  rw [start]
  refine iteInduction .blank fun _ => ?_
  refine byte_cases (fun h => h ▸ .token (by simp) .openArray) fun _ => ?_
  refine byte_cases (fun h => h ▸ .token (by simp) .closeArray) fun _ => ?_
  refine byte_cases (fun h => h ▸ .token (by simp) .openObject) fun _ => ?_
  refine byte_cases (fun h => h ▸ .token (by simp) .closeObject) fun _ => ?_
  refine byte_cases (fun h => h ▸ .token (by simp) .comma) fun _ => ?_
  refine byte_cases (fun h => h ▸ .token (by simp) .colon) fun _ => ?_
  refine byte_cases (fun h => h ▸ .on (.text .nil)) fun _ => ?_
  refine byte_cases (fun h => h ▸ .on (.word (by simp) .null)) fun _ => ?_
  refine byte_cases (fun h => h ▸ .on (.word (by simp) .true)) fun _ => ?_
  refine byte_cases (fun h => h ▸ .on (.word (by simp) .false)) fun _ => ?_
  refine byte_cases (fun h => h ▸ .on .sign) fun _ => ?_
  refine byte_cases (fun h => h ▸ .on (.zero .none)) fun nonzero => ?_
  exact iteInduction (fun hb => .on (.whole .none nonzero (.singleton hb))) fun _ => .fault

theorem malformed_mem_fault (bytes : Bytes) : malformed ∈ scanFrom .fault bytes := by
  induction bytes with
  | nil => exact List.mem_singleton_self _
  | cons b bytes ih => simpa [scanFrom, step] using ih

theorem spells_sound {t : Token} {bs : Bytes} (h : Spells t bs) : t ≠ .malformed := by
  cases h <;> simp

section
variable {read bytes : Bytes} {b : UInt8} {s : List Token × Mode}

theorem spaced_starts (h : Starts b s) (sound : malformed ∉ s.1 ++ scanFrom s.2 bytes)
    (more : ∀ {mode read}, Begins mode read → malformed ∉ scanFrom mode bytes →
      Spaced (read ++ bytes) (scanFrom mode bytes)) :
    Spaced (b :: bytes) (s.1 ++ scanFrom s.2 bytes) := by
  rw [List.mem_append, not_or] at sound
  cases h with
  | blank h => exact .blank h (more .between sound.2)
  | token number h => exact .token h (fun n hn => absurd hn (number n)) (more .between sound.2)
  | on h => exact more h sound.2
  | fault => exact absurd (malformed_mem_fault bytes) sound.2

/-- A number that has ended is not followed by a byte of numbers, which begins no token. -/
theorem not_continues (figure : isDigit b = false)
    (sound : malformed ∉ (start b).1 ++ scanFrom (start b).2 bytes) : continues b = false := by
  have faulty : ∀ c : UInt8, c = 0x2E ∨ c = 0x65 ∨ c = 0x45 → start c = ([], .fault) := by
    rintro c (rfl | rfl | rfl) <;> rfl
  rw [continues, figure, Bool.false_or]
  refine Bool.eq_false_iff.mpr fun h => ?_
  have hb : b = 0x2E ∨ b = 0x65 ∨ b = 0x45 := by simpa [or_assoc] using h
  rw [faulty b hb] at sound
  exact sound (malformed_mem_fault bytes)

theorem spaced_goes (h : Goes read b s) (sound : malformed ∉ s.1 ++ scanFrom s.2 bytes)
    (more : ∀ {mode read}, Begins mode read → malformed ∉ scanFrom mode bytes →
      Spaced (read ++ bytes) (scanFrom mode bytes)) :
    Spaced (read ++ b :: bytes) (s.1 ++ scanFrom s.2 bytes) := by
  cases h with
  | on h =>
    rw [List.append_cons]
    exact more h sound
  | ends number h =>
    rw [List.append_cons]
    rw [List.mem_append, not_or] at sound
    exact .token h (fun n hn => absurd hn (number n)) (more .between sound.2)
  | before h figure =>
    rw [endNumeral, List.cons_append, List.mem_cons, not_or] at sound
    refine .token h (fun _ _ c hc => ?_) (spaced_starts (starts b) sound.2 more)
    cases hc
    exact not_continues figure sound.2
  | fault => exact absurd (malformed_mem_fault bytes) sound

end

/-- Where the scanner meets no fault, what it has read of a token and the rest of the text are a
text of the tokens it finds. -/
theorem spaced_scanFrom {mode : Mode} {read : Bytes} (h : Begins mode read) (bytes : Bytes)
    (sound : malformed ∉ scanFrom mode bytes) : Spaced (read ++ bytes) (scanFrom mode bytes) := by
  induction bytes generalizing mode read with
  | nil =>
    cases mode with
    | between =>
      cases h
      exact .nil
    | numeral part n =>
      cases hp : part.complete with
      | true =>
        rw [scanFrom_complete hp n (by simp)]
        exact .token (h.number hp) (by simp [Ends]) .nil
      | false =>
        cases part with
        | zero | whole | fraction | power => cases hp
        | sign | point | mark | powerSign => exact absurd (List.mem_singleton_self _) sound
    | word | text | fault => exact absurd (List.mem_singleton_self _) sound
  | cons b bytes ih =>
    cases mode with
    | between =>
      cases h
      exact spaced_starts (starts b) sound ih
    | word next more t => exact spaced_goes (goes_word h b) sound ih
    | numeral part n => exact spaced_goes (goes_numeral h b) sound ih
    | text part raw => exact spaced_goes (goes_text h b) sound ih
    | fault => nomatch h

theorem Spaced.sound {bytes : Bytes} {ts : List Token} (h : Spaced bytes ts) : malformed ∉ ts := by
  induction h with
  | nil => exact List.not_mem_nil
  | blank _ _ ih => exact ih
  | token spells _ _ ih => exact List.not_mem_cons_of_ne_of_not_mem (spells_sound spells).symm ih

/-- A text is spaced tokens exactly where scanning finds them and no fault. -/
theorem scan_eq_iff {bytes : Bytes} {ts : List Token} :
    scan bytes = ts ∧ malformed ∉ ts ↔ Spaced bytes ts := by
  constructor
  · rintro ⟨rfl, sound⟩
    exact spaced_scanFrom .between bytes sound
  · intro h
    exact ⟨scan_spaced h, h.sound⟩

end GameLink.Json.Token
