import GameLink.Text.Base64

/-! # Base64 is read back

A group of characters gives back the bytes it was made of, so a text is read back
group by group. That padding is told from a character is all that the end of the
text needs. The other way round, a group that is read is the one that its bytes are
written as: the bits that stand for nothing are checked. So of all texts without
padding the written ones are read, and no others (`decode?_eq_some_iff`).
-/
namespace GameLink.Base64

variable {a : Alphabet}

/-! ## Characters -/

theorem value?_char (a : Alphabet) : ∀ n < 64, a.value? (a.char n) = some n := by
  cases a <;> decide

theorem char_ne_pad (a : Alphabet) : ∀ n < 64, a.char n ≠ '=' := by
  cases a <;> decide

theorem char_ne_dot (a : Alphabet) : ∀ n < 64, a.char n ≠ '.' := by
  cases a <;> decide

theorem between_iff {lo hi c : Char} : (lo ≤ c ∧ c ≤ hi) ↔ lo.toNat ≤ c.toNat ∧ c.toNat ≤ hi.toNat :=
  Iff.rfl

/-- A character with a value is the character of that value, and no other has it. -/
theorem char_of_value? {c : Char} {n : Nat} (h : a.value? c = some n) : n < 64 ∧ a.char n = c := by
  have back : ∀ m, m = c.toNat → Char.ofNat m = c := fun m hm => hm ▸ Char.ofNat_toNat c
  have upper : 'A'.toNat = 65 ∧ 'Z'.toNat = 90 := ⟨rfl, rfl⟩
  have lower : 'a'.toNat = 97 ∧ 'z'.toNat = 122 := ⟨rfl, rfl⟩
  have figure : '0'.toNat = 48 ∧ '9'.toNat = 57 := ⟨rfl, rfl⟩
  simp only [Alphabet.value?, between_iff] at h
  split at h
  · cases h
    exact ⟨by omega, by rw [Alphabet.char, if_pos (by omega), back _ (by omega)]⟩
  · split at h
    · cases h
      refine ⟨by omega, ?_⟩
      rw [Alphabet.char, if_neg (by omega), if_pos (by omega), back _ (by omega)]
    · split at h
      · cases h
        refine ⟨by omega, ?_⟩
        rw [Alphabet.char, if_neg (by omega), if_neg (by omega), if_pos (by omega),
          back _ (by omega)]
      · split at h
        · rename_i heq
          cases h
          exact ⟨by decide, heq.symm⟩
        · split at h
          · rename_i heq
            cases h
            exact ⟨by decide, heq.symm⟩
          · cases h

/-! ## Groups -/

section
variable (x y z : UInt8)

theorem three?_three : three? a (a.char (x.toNat / 4))
    (a.char (x.toNat % 4 * 16 + y.toNat / 16)) (a.char (y.toNat % 16 * 4 + z.toNat / 64))
    (a.char (z.toNat % 64)) = some [x, y, z] := by
  have hx := x.toNat_lt
  have hy := y.toNat_lt
  have hz := z.toNat_lt
  have hfirst : x.toNat / 4 * 4 + (x.toNat % 4 * 16 + y.toNat / 16) / 16 = x.toNat := by omega
  have hsecond : (x.toNat % 4 * 16 + y.toNat / 16) % 16 * 16 +
      (y.toNat % 16 * 4 + z.toNat / 64) / 4 = y.toNat := by omega
  have hthird : (y.toNat % 16 * 4 + z.toNat / 64) % 4 * 64 + z.toNat % 64 = z.toNat := by omega
  rw [three?, value?_char a _ (by omega), value?_char a _ (by omega), value?_char a _ (by omega),
    value?_char a _ (by omega)]
  simp only [hfirst, hsecond, hthird, UInt8.ofNat_toNat]

theorem two?_two : two? a (a.char (x.toNat / 4)) (a.char (x.toNat % 4 * 16 + y.toNat / 16))
    (a.char (y.toNat % 16 * 4)) = some [x, y] := by
  have hx := x.toNat_lt
  have hy := y.toNat_lt
  have hfirst : x.toNat / 4 * 4 + (x.toNat % 4 * 16 + y.toNat / 16) / 16 = x.toNat := by omega
  have hsecond : (x.toNat % 4 * 16 + y.toNat / 16) % 16 * 16 + y.toNat % 16 * 4 / 4 =
      y.toNat := by omega
  rw [two?, value?_char a _ (by omega), value?_char a _ (by omega), value?_char a _ (by omega)]
  simp only [hfirst, hsecond, UInt8.ofNat_toNat]
  exact if_pos (by omega)

theorem one?_one : one? a (a.char (x.toNat / 4)) (a.char (x.toNat % 4 * 16)) = some [x] := by
  have hx := x.toNat_lt
  have hfirst : x.toNat / 4 * 4 + x.toNat % 4 * 16 / 16 = x.toNat := by omega
  rw [one?, value?_char a _ (by omega), value?_char a _ (by omega)]
  simp only [hfirst, UInt8.ofNat_toNat]
  exact if_pos (by omega)

end

theorem three_of_three? {c d e f : Char} {bytes : Bytes} (h : three? a c d e f = some bytes) :
    ∃ x y z, bytes = [x, y, z] ∧ three a x y z = [c, d, e, f] := by
  unfold three? at h
  split at h
  · rename_i p q r s hc hd he hf
    cases h
    obtain ⟨hp, rfl⟩ := char_of_value? hc
    obtain ⟨hq, rfl⟩ := char_of_value? hd
    obtain ⟨hr, rfl⟩ := char_of_value? he
    obtain ⟨hs, rfl⟩ := char_of_value? hf
    refine ⟨_, _, _, rfl, ?_⟩
    have hx : (UInt8.ofNat (p * 4 + q / 16)).toNat = p * 4 + q / 16 := by
      rw [UInt8.toNat_ofNat']; omega
    have hy : (UInt8.ofNat (q % 16 * 16 + r / 4)).toNat = q % 16 * 16 + r / 4 := by
      rw [UInt8.toNat_ofNat']; omega
    have hz : (UInt8.ofNat (r % 4 * 64 + s)).toNat = r % 4 * 64 + s := by
      rw [UInt8.toNat_ofNat']; omega
    have hfirst : (p * 4 + q / 16) / 4 = p := by omega
    have hsecond : (p * 4 + q / 16) % 4 * 16 + (q % 16 * 16 + r / 4) / 16 = q := by omega
    have hthird : (q % 16 * 16 + r / 4) % 16 * 4 + (r % 4 * 64 + s) / 64 = r := by omega
    have hfourth : (r % 4 * 64 + s) % 64 = s := by omega
    rw [three, hx, hy, hz, hfirst, hsecond, hthird, hfourth]
  · cases h

theorem two_of_two? {c d e : Char} {bytes : Bytes} (h : two? a c d e = some bytes) :
    ∃ x y, bytes = [x, y] ∧ two a x y = [c, d, e] := by
  unfold two? at h
  split at h
  · rename_i p q r hc hd he
    split at h
    · cases h
      obtain ⟨hp, rfl⟩ := char_of_value? hc
      obtain ⟨hq, rfl⟩ := char_of_value? hd
      obtain ⟨hr, rfl⟩ := char_of_value? he
      refine ⟨_, _, rfl, ?_⟩
      have hx : (UInt8.ofNat (p * 4 + q / 16)).toNat = p * 4 + q / 16 := by
        rw [UInt8.toNat_ofNat']; omega
      have hy : (UInt8.ofNat (q % 16 * 16 + r / 4)).toNat = q % 16 * 16 + r / 4 := by
        rw [UInt8.toNat_ofNat']; omega
      have hfirst : (p * 4 + q / 16) / 4 = p := by omega
      have hsecond : (p * 4 + q / 16) % 4 * 16 + (q % 16 * 16 + r / 4) / 16 = q := by omega
      have hthird : (q % 16 * 16 + r / 4) % 16 * 4 = r := by omega
      rw [two, hx, hy, hfirst, hsecond, hthird]
    · cases h
  · cases h

theorem one_of_one? {c d : Char} {bytes : Bytes} (h : one? a c d = some bytes) :
    ∃ x, bytes = [x] ∧ one a x = [c, d] := by
  unfold one? at h
  split at h
  · rename_i p q hc hd
    split at h
    · cases h
      obtain ⟨hp, rfl⟩ := char_of_value? hc
      obtain ⟨hq, rfl⟩ := char_of_value? hd
      refine ⟨_, rfl, ?_⟩
      have hx : (UInt8.ofNat (p * 4 + q / 16)).toNat = p * 4 + q / 16 := by
        rw [UInt8.toNat_ofNat']; omega
      have hfirst : (p * 4 + q / 16) / 4 = p := by omega
      have hsecond : (p * 4 + q / 16) % 4 * 16 = q := by omega
      rw [one, hx, hfirst, hsecond]
    · cases h
  · cases h

/-! ## Texts with padding -/

/-- Bytes that are written with padding are read back. -/
theorem decodePadded?_encodePadded (a : Alphabet) (bytes : Bytes) :
    decodePadded? a (encodePadded a bytes) = some bytes := by
  induction bytes using encodePadded.induct with
  | case1 x y z rest ih =>
    -- a full group ends in a character, so it is not taken for a padded one
    have hlast := char_ne_pad a (z.toNat % 64) (by omega)
    rw [encodePadded, three]
    simp only [List.cons_append, List.nil_append]
    rw [decodePadded?, if_neg (hlast ·.1), three?_three, ih]
    rfl
  | case2 x y =>
    have hlast := char_ne_pad a (y.toNat % 16 * 4) (by have := y.toNat_lt; omega)
    rw [encodePadded, two]
    simp only [List.cons_append, List.nil_append]
    rw [decodePadded?, if_pos ⟨rfl, rfl⟩, if_neg hlast]
    exact two?_two x y
  | case3 x =>
    rw [encodePadded, one]
    exact one?_one x
  | case4 => rfl

/-! ## Texts without padding -/

theorem decode?_encode (a : Alphabet) (bytes : Bytes) : decode? a (encode a bytes) = some bytes := by
  induction bytes using encode.induct with
  | case1 x y z rest ih =>
    rw [encode, three]
    simp only [List.cons_append, List.nil_append]
    rw [decode?, three?_three, ih]
    rfl
  | case2 x y => exact two?_two x y
  | case3 x => exact one?_one x
  | case4 => rfl

theorem eq_encode_of_decode? : ∀ {cs : List Char} {bytes : Bytes}, decode? a cs = some bytes →
    cs = encode a bytes
  | c :: d :: e :: f :: rest, bytes, h => by
    rw [decode?] at h
    split at h
    · rename_i group more hgroup hmore
      cases h
      obtain ⟨x, y, z, rfl, hthree⟩ := three_of_three? hgroup
      simp only [List.cons_append, List.nil_append, encode, hthree, ← eq_encode_of_decode? hmore]
    · cases h
  | [c, d, e], bytes, h => by
    obtain ⟨x, y, rfl, htwo⟩ := two_of_two? h
    exact htwo.symm
  | [c, d], bytes, h => by
    obtain ⟨x, rfl, hone⟩ := one_of_one? h
    exact hone.symm
  | [_], bytes, h => nomatch h
  | [], bytes, h => by
    cases h
    rfl

/-- Of all texts that could stand for some bytes only the one that writing gives is read. -/
theorem decode?_eq_some_iff {cs : List Char} {bytes : Bytes} :
    decode? a cs = some bytes ↔ cs = encode a bytes :=
  ⟨eq_encode_of_decode?, fun h => h ▸ decode?_encode a bytes⟩

theorem mem_encode {bytes : Bytes} {c : Char} (h : c ∈ encode a bytes) :
    ∃ n, n < 64 ∧ c = a.char n := by
  induction bytes using encode.induct with
  | case1 x y z rest ih =>
    have hx := x.toNat_lt
    have hy := y.toNat_lt
    have hz := z.toNat_lt
    rw [encode, three, List.mem_append] at h
    rcases h with h | h
    · simp only [List.mem_cons, List.not_mem_nil, or_false] at h
      rcases h with h | h | h | h <;> exact ⟨_, by omega, h⟩
    · exact ih h
  | case2 x y =>
    have hx := x.toNat_lt
    have hy := y.toNat_lt
    simp only [encode, two, List.mem_cons, List.not_mem_nil, or_false] at h
    rcases h with h | h | h <;> exact ⟨_, by omega, h⟩
  | case3 x =>
    have hx := x.toNat_lt
    simp only [encode, one, List.mem_cons, List.not_mem_nil, or_false] at h
    rcases h with h | h <;> exact ⟨_, by omega, h⟩
  | case4 => cases h

theorem pad_not_mem_encode (a : Alphabet) (bytes : Bytes) : '=' ∉ encode a bytes := by
  intro h
  obtain ⟨n, hn, heq⟩ := mem_encode h
  exact char_ne_pad a n hn heq.symm

theorem dot_not_mem_encode (a : Alphabet) (bytes : Bytes) : '.' ∉ encode a bytes := by
  intro h
  obtain ⟨n, hn, heq⟩ := mem_encode h
  exact char_ne_dot a n hn heq.symm

theorem encode_ne_nil {bytes : Bytes} (h : bytes ≠ []) : encode a bytes ≠ [] := by
  match bytes, h with
  | _ :: _ :: _ :: _, _ => simp [encode, three]
  | [_, _], _ => simp [encode, two]
  | [_], _ => simp [encode, one]

end GameLink.Base64
