import Mathlib.Data.String.Basic
import GameLink.Proofs.Json.Scanned

/-! # The order of texts

Texts compare by their characters, and so do their UTF-8 bytes: of two characters
the greater one has the greater bytes at the first place where they differ, as a
longer encoding has a greater first byte.
-/
namespace GameLink.Bytes
open Json (utf8 utf8_cons ofText_eq_utf8)

/-- The bytes of a character, by how many there are. -/
inductive Encoded (n : Nat) : Bytes → Prop
  | one (high : n ≤ 127) : Encoded n [UInt8.ofNat n]
  | two (low : 127 < n) (high : n ≤ 2047) :
      Encoded n [UInt8.ofNat (n / 64 % 32 + 192), UInt8.ofNat (n % 64 + 128)]
  | three (low : 2047 < n) (high : n ≤ 65535) :
      Encoded n [UInt8.ofNat (n / 4096 % 16 + 224), UInt8.ofNat (n / 64 % 64 + 128),
        UInt8.ofNat (n % 64 + 128)]
  | four (low : 65535 < n) (high : n < 1114112) :
      Encoded n [UInt8.ofNat (n / 262144 % 8 + 240), UInt8.ofNat (n / 4096 % 64 + 128),
        UInt8.ofNat (n / 64 % 64 + 128), UInt8.ofNat (n % 64 + 128)]

theorem encoded (c : Char) : Encoded c.toNat (String.utf8EncodeChar c) := by
  have bound : c.toNat < 1114112 := by
    have range : c.toNat < 0xD800 ∨ 0xDFFF < c.toNat ∧ c.toNat < 0x110000 := c.valid
    omega
  rw [String.utf8EncodeChar]
  refine iteInduction .one fun one => iteInduction (.two (Nat.lt_of_not_le one)) fun two => ?_
  exact iteInduction (.three (Nat.lt_of_not_le two)) fun three =>
    .four (Nat.lt_of_not_le three) bound

theorem ofNat_lt_iff {m n : Nat} (hm : m < 256) (hn : n < 256) :
    UInt8.ofNat m < UInt8.ofNat n ↔ m < n := by
  rw [UInt8.lt_iff_toNat_lt, UInt8.toNat_ofNat', UInt8.toNat_ofNat']
  omega

theorem ofNat_eq_iff {m n : Nat} (hm : m < 256) (hn : n < 256) :
    UInt8.ofNat m = UInt8.ofNat n ↔ m = n := by
  rw [← UInt8.toNat_inj, UInt8.toNat_ofNat', UInt8.toNat_ofNat']
  omega

theorem Encoded.pos {n : Nat} {bs : Bytes} (h : Encoded n bs) (rest : Bytes) : [] < bs ++ rest := by
  cases h <;> exact List.nil_lt_cons _ _

/-- The order of two characters is decided within their bytes, whatever follows. -/
theorem Encoded.lt {m n : Nat} (h : m < n) {as bs : Bytes} (hm : Encoded m as) (hn : Encoded n bs)
    (rest rest' : Bytes) : as ++ rest < bs ++ rest' := by
  cases hm <;> cases hn <;>
    simp (disch := omega) only [List.cons_append, List.nil_append, List.cons_lt_cons_iff,
      ofNat_lt_iff, ofNat_eq_iff]
  case four.four =>
    -- one byte after the other, as there are too many digits to compare at once
    rcases (by omega : m / 262144 < n / 262144 ∨ m / 262144 = n / 262144) with first | first
    · exact .inl (by omega)
    · refine .inr ⟨by omega, ?_⟩
      rcases (by omega : m / 4096 < n / 4096 ∨ m / 4096 = n / 4096) with second | second
      · exact .inl (by omega)
      · exact .inr ⟨by omega, by omega⟩
  all_goals omega

theorem utf8_lt {cs ds : List Char} (h : cs < ds) : utf8 cs < utf8 ds := by
  induction h with
  | nil =>
    rw [utf8_cons]
    exact (encoded _).pos _
  | rel h =>
    rw [utf8_cons, utf8_cons]
    exact (encoded _).lt h (encoded _) _ _
  | cons _ ih =>
    rw [utf8_cons, utf8_cons]
    exact List.append_left_lt ih

/-- Texts are in the order of their bytes. -/
theorem ofText_lt_iff {s t : String} : ofText s < ofText t ↔ s < t := by
  have forth : ∀ {s t : String}, s < t → ofText s < ofText t := by
    intro s t h
    rw [ofText_eq_utf8, ofText_eq_utf8]
    exact utf8_lt (String.lt_iff_toList_lt.mp h)
  refine ⟨fun h => ?_, forth⟩
  by_contra hle
  rcases eq_or_lt_of_le (not_lt.mp hle) with rfl | hlt
  · exact List.lt_irrefl _ h
  · exact List.lt_asymm h (forth hlt)

end GameLink.Bytes
