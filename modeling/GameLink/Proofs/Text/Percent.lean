import GameLink.Text.Percent

/-! # Escapes are read back

Escaping takes bytes one by one, and each of them can be read off the front of
what it became.
-/
namespace GameLink.Percent

theorem hexValue?_hexDigit : ∀ n < 16, hexValue? (hexDigit n) = some n := by decide

theorem unreserved_bounds {b : UInt8} (h : isUnreserved b = true) :
    b.toNat < 128 ∧ b.toNat ≠ 0x25 := by
  simp only [isUnreserved, Bool.or_eq_true, Bool.and_eq_true, decide_eq_true_eq, beq_iff_eq,
    UInt8.le_iff_toNat_le, ← UInt8.toNat_inj, UInt8.reduceToNat] at h
  omega

/-- A byte is read off the front of its escaped form. -/
theorem decode?_encodeByte (b : UInt8) (rest : List Char) :
    decode? (encodeByte b ++ rest) = (decode? rest).map (b :: ·) := by
  rw [encodeByte]
  split
  · rename_i hb
    obtain ⟨hlow, hne⟩ := unreserved_bounds hb
    have hnat : (Char.ofNat b.toNat).toNat = b.toNat := by
      have hvalid : b.toNat.isValidChar := Or.inl (by omega)
      rw [Char.ofNat, dif_pos hvalid]
      rfl
    have hmark : Char.ofNat b.toNat ≠ '%' := by
      intro heq
      rw [heq] at hnat
      exact hne hnat.symm
    rw [List.singleton_append, decode?, hnat, UInt8.ofNat_toNat, if_pos ⟨hlow, hb⟩]
    intro _ _ _ heq
    exact absurd heq hmark
  · have hhigh := hexValue?_hexDigit (b.toNat / 16) (by have := b.toNat_lt; omega)
    have hlast := hexValue?_hexDigit (b.toNat % 16) (by omega)
    have hvalue : UInt8.ofNat (16 * (b.toNat / 16) + b.toNat % 16) = b := by
      rw [Nat.div_add_mod, UInt8.ofNat_toNat]
    simp only [List.cons_append, List.nil_append, decode?, hhigh, hlast]
    cases decode? rest with
    | none => rfl
    | some more => simp only [hvalue, Option.map_some]

theorem decode?_encode (bytes : Bytes) : decode? (encode bytes) = some bytes := by
  induction bytes with
  | nil => rfl
  | cons b rest ih =>
    have hcons : encode (b :: rest) = encodeByte b ++ encode rest := List.flatMap_cons
    rw [hcons, decode?_encodeByte, ih, Option.map_some]

end GameLink.Percent
