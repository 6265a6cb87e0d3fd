import GameLink.Proofs.Json.Scanned
import GameLink.Json.Reading

/-! # Written values are read back

The text of a value builds the document that shows it, whatever was being read
before the text and whatever stands after it. Numbers are integers of 64 bits
here: a binary64 number need not come back as the one that was written.
-/
namespace GameLink.Json

/-! ## Single tokens -/

namespace Token

theorem scanFrom_encode (s : String) (raw rest : Bytes) :
    scanFrom (.text .plain raw) (utf8 (Text.encode s) ++ rest) =
      scanFrom (.text .plain ((utf8 (Text.encode s)).reverse ++ raw)) rest := by
  rw [Text.encode]
  induction s.toList generalizing raw with
  | nil => rfl
  | cons c cs ih =>
    rw [List.flatMap_cons, utf8_append, List.append_assoc, scanFrom_encodeChar, ih]
    simp

theorem scanFrom_quoted (s : String) (rest : Bytes) :
    scanFrom .between (utf8 (quoted s) ++ rest) =
      .text (utf8 (Text.encode s)) :: scanFrom .between rest := by
  have hopen : scanFrom .between (utf8 (quoted s) ++ rest) =
      scanFrom (.text .plain []) (utf8 (Text.encode s) ++ 0x22 :: rest) := by
    rw [quoted, List.cons_append, utf8_cons, utf8_append, List.append_assoc, List.append_assoc]
    rfl
  rw [hopen, scanFrom_encode, List.append_nil, scanFrom]
  simp [step, stepText]

theorem scanFrom_intChars (n : Int) {rest : Bytes} (h : Delimited rest) :
    scanFrom .between (utf8 (intChars n) ++ rest) =
      .number (numeralOf (decide (n < 0)) n.natAbs) :: scanFrom .between rest := by
  by_cases hneg : n < 0
  · rw [intChars, if_pos hneg, utf8_cons, List.append_assoc, decide_eq_true hneg,
      ← scanFrom_digitChars (.inr ⟨rfl, rfl⟩) _ h]
    rfl
  · rw [intChars, if_neg hneg, decide_eq_false hneg, scanFrom_digitChars (.inl ⟨rfl, rfl⟩) _ h]

theorem scanFrom_comma (rest : Bytes) :
    scanFrom .between (0x2C :: rest) = .comma :: scanFrom .between rest := rfl

theorem scanFrom_closeArray (rest : Bytes) :
    scanFrom .between (0x5D :: rest) = .closeArray :: scanFrom .between rest := rfl

theorem scanFrom_closeObject (rest : Bytes) :
    scanFrom .between (0x7D :: rest) = .closeObject :: scanFrom .between rest := rfl

theorem scanFrom_array (items : List Json) (rest : Bytes) :
    scanFrom .between (utf8 (chars (.array items)) ++ rest) =
      .openArray :: scanFrom .between (utf8 (itemChars items) ++ 0x5D :: rest) := by
  rw [chars, List.cons_append, utf8_cons, utf8_append, List.append_assoc, List.append_assoc]
  rfl

theorem scanFrom_object (members : List (String × Json)) (rest : Bytes) :
    scanFrom .between (utf8 (chars (.object members)) ++ rest) =
      .openObject :: scanFrom .between (utf8 (memberChars members) ++ 0x7D :: rest) := by
  rw [chars, List.cons_append, utf8_cons, utf8_append, List.append_assoc, List.append_assoc]
  rfl

end Token

theorem ofDigits_digitValues (n : Nat) :
    Decimal.ofDigits (Token.digitValues (digitChars n)) = n := by
  rw [Decimal.ofDigits, Token.digitValues, List.foldl_map]
  exact Nat.ofDigitChars_ten_toDigits

/-- An integer of 64 bits, signed or not, is read exactly. -/
theorem number?_numeralOf {n : Int} (hlow : Decimal.minInt64 ≤ n) (hhigh : n ≤ Decimal.maxUInt64) :
    (Token.numeralOf (decide (n < 0)) n.natAbs).number? = some (.int n) := by
  have hlow' : -9223372036854775808 ≤ n := hlow
  have hhigh' : n ≤ 18446744073709551615 := hhigh
  have hpow : Nat.pow 2 63 = 9223372036854775808 := rfl
  simp only [Numeral.number?, Token.numeralOf, ofDigits_digitValues, Numeral.isInteger,
    Numeral.maxSignificand, hpow]
  by_cases hneg : n < 0
  · have hvalue : -(n.natAbs : Int) = n := by omega
    rw [if_neg (by simp [hneg]), if_pos (by simp [hneg]; omega), hvalue]
  · have hvalue : (n.natAbs : Int) = n := by omega
    rw [if_pos (by simp [hneg]; omega), hvalue]

/-! ## Values -/

mutual
/-- Every number is an integer of 64 bits. -/
def Integral : Json → Prop
  | .number (.int n) => Decimal.minInt64 ≤ n ∧ n ≤ Decimal.maxUInt64
  | .number (.float _) => False
  | .array items => IntegralItems items
  | .object members => IntegralMembers members
  | _ => True

def IntegralItems : List Json → Prop
  | [] => True
  | v :: rest => v.Integral ∧ IntegralItems rest

def IntegralMembers : List (String × Json) → Prop
  | [] => True
  | (_, v) :: rest => v.Integral ∧ IntegralMembers rest
end

namespace Document
open Token

/-- A value may come next, inside `outer`. -/
def Awaits (s : State) (outer : List Frame) : Prop :=
  ∀ t, t ≠ .closeArray → s.step t = valueStep outer t

/-- A key may come next. -/
def AwaitsKey (s : State) (members : Members) (outer : List Frame) : Prop :=
  ∀ raw, s.step (.text raw) = some (.colon members (Text.decode? raw) outer)

theorem awaits_value (outer : List Frame) : Awaits (.value outer) outer := fun _ _ => rfl

theorem awaits_first (items : List Document) (outer : List Frame) :
    Awaits (.array items false outer) (.array items :: outer) := by
  intro t ht
  cases t <;> first | rfl | exact absurd rfl ht

theorem awaitsKey_first (members : Members) (outer : List Frame) :
    AwaitsKey (.object members false outer) members outer := fun _ => rfl

theorem awaitsKey_next (members : Members) (outer : List Frame) :
    AwaitsKey (.key members outer) members outer := fun _ => rfl

theorem build_cons {s next : State} {t : Token} (h : s.step t = some next) (rest : List Token) :
    build s (t :: rest) = build next rest := by
  cases s with
  | done root => cases h
  | _ => simp only [build, h]

/-- A written key and the colon after it. -/
theorem build_key {s : State} {ms : Members} {outer : List Frame} (hs : AwaitsKey s ms outer)
    (k : String) (rest : Bytes) :
    build s (scanFrom .between (utf8 (quoted k) ++ 0x3A :: rest)) =
      build (.value (.object ms (some k) :: outer)) (scanFrom .between rest) := by
  rw [scanFrom_quoted, build_cons (hs _), Text.decode?_encode]
  exact build_cons rfl _

mutual
theorem build_chars {s : State} {outer : List Frame} (hs : Awaits s outer) {rest : Bytes}
    (hrest : Delimited rest) : ∀ v : Json, v.Integral →
    build s (scanFrom .between (utf8 v.chars ++ rest)) =
      build (.plug outer (ofJson v)) (scanFrom .between rest)
  | .null, _ => build_cons (hs .null (by decide)) _
  | .bool b, _ => by
    cases b
    · exact build_cons (hs (.bool false) (by decide)) _
    · exact build_cons (hs (.bool true) (by decide)) _
  | .number (.int n), hv => by
    rw [chars, numberChars, scanFrom_intChars n hrest,
      build_cons (hs (.number (numeralOf (decide (n < 0)) n.natAbs)) (by simp)),
      number?_numeralOf hv.1 hv.2, ofJson]
  | .string s', _ => by
    rw [chars, scanFrom_quoted, build_cons (hs (.text (utf8 (Text.encode s'))) (by simp)),
      Text.decode?_encode, ofJson]
  | .array [], _ => by
    rw [scanFrom_array, build_cons (hs .openArray (by decide)), ofJson]
    exact build_cons rfl _
  | .array (v :: vs), hv => by
    rw [scanFrom_array, build_cons (hs .openArray (by decide)), ofJson]
    exact build_itemChars (awaits_first [] outer) v vs hv
  | .object [], _ => by
    rw [scanFrom_object, build_cons (hs .openObject (by decide)), ofJson]
    exact build_cons rfl _
  | .object ((k, v) :: vs), hv => by
    rw [scanFrom_object, build_cons (hs .openObject (by decide)), ofJson]
    exact build_memberChars (awaitsKey_first [] outer) k v vs hv
  termination_by v => sizeOf v

/-- The items of an array that are still to come. -/
theorem build_itemChars {s : State} {ds : List Document} {outer : List Frame} {rest : Bytes}
    (hs : Awaits s (.array ds :: outer)) :
    ∀ (v : Json) (vs : List Json), IntegralItems (v :: vs) →
    build s (scanFrom .between (utf8 (itemChars (v :: vs)) ++ 0x5D :: rest)) =
      build (.plug outer (.array (ds.reverse ++ ofItems (v :: vs)) true))
        (scanFrom .between rest)
  | v, [], hv => by
    rw [itemChars, build_chars hs (.closeArray rest) v hv.1, scanFrom_closeArray]
    refine (build_cons rfl _).trans ?_
    rw [ofItems, ofItems, List.reverse_cons]
  | v, w :: ws, hv => by
    have hsplit : utf8 (itemChars (v :: w :: ws)) ++ 0x5D :: rest =
        utf8 v.chars ++ 0x2C :: (utf8 (itemChars (w :: ws)) ++ 0x5D :: rest) := by
      rw [itemChars.eq_3 v (w :: ws) (by simp), utf8_append, utf8_cons, List.append_assoc]
      rfl
    rw [hsplit, build_chars hs (.comma _) v hv.1, scanFrom_comma]
    refine (build_cons rfl _).trans ?_
    rw [build_itemChars (awaits_value (.array (ofJson v :: ds) :: outer)) w ws hv.2]
    simp [ofItems]
  termination_by v vs => sizeOf (v :: vs)

/-- The members of an object that are still to come. -/
theorem build_memberChars {s : State} {ms : Members} {outer : List Frame} {rest : Bytes}
    (hs : AwaitsKey s ms outer) :
    ∀ (k : String) (v : Json) (vs : List (String × Json)), IntegralMembers ((k, v) :: vs) →
    build s (scanFrom .between (utf8 (memberChars ((k, v) :: vs)) ++ 0x7D :: rest)) =
      build (.plug outer (.object (ms.reverse ++ ofMembers ((k, v) :: vs)) true))
        (scanFrom .between rest)
  | k, v, [], hv => by
    have hsplit : utf8 (memberChars [(k, v)]) ++ 0x7D :: rest =
        utf8 (quoted k) ++ 0x3A :: (utf8 v.chars ++ 0x7D :: rest) := by
      rw [memberChars, utf8_append, utf8_cons, List.append_assoc]
      rfl
    rw [hsplit, build_key hs, build_chars (awaits_value _) (.closeObject rest) v hv.1,
      scanFrom_closeObject]
    refine (build_cons rfl _).trans ?_
    rw [ofMembers, ofMembers, List.reverse_cons]
  | k, v, (k', w) :: ws, hv => by
    have hsplit : utf8 (memberChars ((k, v) :: (k', w) :: ws)) ++ 0x7D :: rest =
        utf8 (quoted k) ++ 0x3A ::
          (utf8 v.chars ++ 0x2C :: (utf8 (memberChars ((k', w) :: ws)) ++ 0x7D :: rest)) := by
      rw [memberChars.eq_3 k v ((k', w) :: ws) (by simp), utf8_append, utf8_append, utf8_cons,
        utf8_cons]
      simp only [List.append_assoc]
      rfl
    rw [hsplit, build_key hs, build_chars (awaits_value _) (.comma _) v hv.1, scanFrom_comma]
    refine (build_cons rfl _).trans ?_
    rw [build_memberChars (awaitsKey_next ((some k, ofJson v) :: ms) outer) k' w ws hv.2]
    simp [ofMembers]
  termination_by k v vs => sizeOf ((k, v) :: vs)
end

/-- What is written is the document of the value, with nothing after it. -/
theorem ofBytes_render {v : Json} (h : v.Integral) :
    ofBytes (Bytes.ofText v.render) = (ofJson v, true) := by
  have hbuild := build_chars (awaits_value []) .nil v h
  rw [List.append_nil] at hbuild
  rw [ofBytes, Token.scan, render, ofText_ofList, hbuild]
  rfl

end Document

/-- A whole text is read where it holds one document that is read. -/
theorem Reading.ofBytes_eq_ok_iff {α : Type} {read : Reading α} {bytes : Bytes} {v : α} :
    Reading.ofBytes read bytes = .ok v ↔
      ∃ d, Document.ofBytes bytes = (d, true) ∧ read d = .ok v := by
  rw [Reading.ofBytes]
  obtain ⟨d, ended⟩ := Document.ofBytes bytes
  cases hr : read d <;> cases ended <;> simp [hr]

/-- A reading of a written value is a reading of the value. -/
theorem Reading.ofBytes_render {α : Type} (read : Reading α) {v : Json} (h : v.Integral) :
    Reading.ofBytes read (Bytes.ofText v.render) = read (.ofJson v) := by
  rw [Reading.ofBytes, Document.ofBytes_render h]
  cases hr : read (.ofJson v) <;> simp [hr]

end GameLink.Json
