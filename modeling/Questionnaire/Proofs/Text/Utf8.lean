import Questionnaire.Text.Utf8

/-!
# Texts as bytes

A text that is encoded and read again is the same text (`decodeLossy_encode`): in front of the bytes
of a character, whatever follows them, stands this character (`first?_utf8EncodeChar`), and the scan
goes on behind them.
-/

namespace Questionnaire.Text.Utf8

/-! ### Sequences of bytes -/

variable {a b c d : UInt8} {w x y z : Nat}

theorem continuation?_eq (hb : b.toNat = x + 0x80) (hx : x < 0x40) : continuation? b = some x := by
  have hbounds : 0x80 ≤ b ∧ b ≤ 0xBF := by
    simp only [UInt8.le_iff_toNat_le, UInt8.reduceToNat]
    omega
  rw [continuation?, if_pos hbounds, hb, Nat.add_sub_cancel]

theorem pair?_eq (ha : a.toNat = w + 0xC0) (hb : b.toNat = x + 0x80) (hw : 2 ≤ w ∧ w < 0x20)
    (hx : x < 0x40) {n : Nat} (hn : w * 0x40 + x = n) : pair? a b = some (Char.ofNat n) := by
  have hbounds : 0xC2 ≤ a ∧ a ≤ 0xDF := by
    simp only [UInt8.le_iff_toNat_le, UInt8.reduceToNat]
    omega
  rw [pair?, continuation?_eq hb hx]
  refine (if_pos hbounds).trans ?_
  rw [ha, Nat.add_sub_cancel, hn]

theorem pair?_eq_none (ha : 0xE0 ≤ a.toNat) : pair? a b = none := by
  have hbounds : ¬ (0xC2 ≤ a ∧ a ≤ 0xDF) := by
    simp only [UInt8.le_iff_toNat_le, UInt8.reduceToNat]
    omega
  cases hb : continuation? b <;> simp [pair?, hb, if_neg hbounds]

theorem triple?_eq (ha : a.toNat = w + 0xE0) (hb : b.toNat = x + 0x80) (hc : c.toNat = y + 0x80)
    (hw : w < 0x10) (hx : x < 0x40) (hy : y < 0x40) {n : Nat} (hn : w * 0x1000 + x * 0x40 + y = n)
    (hvalid : 0x800 ≤ n ∧ ¬ (0xD800 ≤ n ∧ n ≤ 0xDFFF)) : triple? a b c = some (Char.ofNat n) := by
  have hbounds : 0xE0 ≤ a ∧ a ≤ 0xEF := by
    simp only [UInt8.le_iff_toNat_le, UInt8.reduceToNat]
    omega
  rw [triple?, continuation?_eq hb hx, continuation?_eq hc hy]
  refine (if_pos hbounds).trans ?_
  rw [ha, Nat.add_sub_cancel, hn]
  exact if_pos hvalid

theorem triple?_eq_none (ha : 0xF0 ≤ a.toNat) : triple? a b c = none := by
  have hbounds : ¬ (0xE0 ≤ a ∧ a ≤ 0xEF) := by
    simp only [UInt8.le_iff_toNat_le, UInt8.reduceToNat]
    omega
  cases hb : continuation? b <;> cases hc : continuation? c <;>
    simp [triple?, hb, hc, if_neg hbounds]

theorem quadruple?_eq (ha : a.toNat = w + 0xF0) (hb : b.toNat = x + 0x80)
    (hc : c.toNat = y + 0x80) (hd : d.toNat = z + 0x80) (hw : w ≤ 4) (hx : x < 0x40)
    (hy : y < 0x40) (hz : z < 0x40) {n : Nat} (hn : w * 0x40000 + x * 0x1000 + y * 0x40 + z = n)
    (hvalid : 0x10000 ≤ n ∧ n ≤ 0x10FFFF) : quadruple? a b c d = some (Char.ofNat n) := by
  have hbounds : 0xF0 ≤ a ∧ a ≤ 0xF4 := by
    simp only [UInt8.le_iff_toNat_le, UInt8.reduceToNat]
    omega
  -- by `trans` and not by `simp`, whose proof makes the kernel multiply the large factors out
  rw [quadruple?, continuation?_eq hb hx, continuation?_eq hc hy, continuation?_eq hd hz]
  refine (if_pos hbounds).trans ?_
  rw [ha, Nat.add_sub_cancel, hn]
  exact if_pos hvalid

/-! ### Characters -/

theorem toNat_ofNat {n : Nat} (h : n < 0x100) : (UInt8.ofNat n).toNat = n :=
  UInt8.toNat_ofNat_of_lt' h

theorem not_lt_of_le_toNat (ha : 0x80 ≤ a.toNat) : ¬ a < 0x80 := by
  simp only [UInt8.lt_iff_toNat_lt, UInt8.reduceToNat]
  omega

theorem first?_one {rest : List UInt8} (ha : a.toNat < 0x80) :
    first? (a :: rest) = some (Char.ofNat a.toNat, 1) := by
  have hlt : a < 0x80 := by simpa only [UInt8.lt_iff_toNat_lt, UInt8.reduceToNat] using ha
  exact if_pos hlt

theorem first?_two {rest : List UInt8} {ch : Char} (ha : 0x80 ≤ a.toNat)
    (hpair : pair? a b = some ch) : first? (a :: b :: rest) = some (ch, 2) := by
  simp only [first?, if_neg (not_lt_of_le_toNat ha), hpair]

theorem first?_three {rest : List UInt8} {ch : Char} (ha : 0x80 ≤ a.toNat)
    (hpair : pair? a b = none) (htriple : triple? a b c = some ch) :
    first? (a :: b :: c :: rest) = some (ch, 3) := by
  simp only [first?, if_neg (not_lt_of_le_toNat ha), hpair, htriple]

theorem first?_four {rest : List UInt8} {ch : Char} (ha : 0x80 ≤ a.toNat)
    (hpair : pair? a b = none) (htriple : triple? a b c = none)
    (hquadruple : quadruple? a b c d = some ch) :
    first? (a :: b :: c :: d :: rest) = some (ch, 4) := by
  simp only [first?, if_neg (not_lt_of_le_toNat ha), hpair, htriple, hquadruple, Option.map_some]

/-- The bytes of a character, by how many there are. -/
theorem utf8EncodeChar_eq (c : Char) : String.utf8EncodeChar c =
    if c.toNat ≤ 0x7F then [UInt8.ofNat c.toNat]
    else if c.toNat ≤ 0x7FF then
      [UInt8.ofNat (c.toNat / 0x40 % 0x20 + 0xC0), UInt8.ofNat (c.toNat % 0x40 + 0x80)]
    else if c.toNat ≤ 0xFFFF then
      [UInt8.ofNat (c.toNat / 0x1000 % 0x10 + 0xE0), UInt8.ofNat (c.toNat / 0x40 % 0x40 + 0x80),
        UInt8.ofNat (c.toNat % 0x40 + 0x80)]
    else
      [UInt8.ofNat (c.toNat / 0x40000 % 8 + 0xF0), UInt8.ofNat (c.toNat / 0x1000 % 0x40 + 0x80),
        UInt8.ofNat (c.toNat / 0x40 % 0x40 + 0x80), UInt8.ofNat (c.toNat % 0x40 + 0x80)] :=
  rfl

/-- **A character stands in front of its bytes.** -/
theorem first?_utf8EncodeChar (c : Char) (rest : List UInt8) :
    first? (String.utf8EncodeChar c ++ rest) = some (c, (String.utf8EncodeChar c).length) := by
  -- a character is none of the surrogates, so three bytes are never refused
  have hvalid : c.toNat < 0xD800 ∨ 0xDFFF < c.toNat ∧ c.toNat < 0x110000 := c.valid
  have hself : Char.ofNat c.toNat = c := Char.ofNat_toNat c
  rw [utf8EncodeChar_eq]
  split
  · next hone =>
    have ha : (UInt8.ofNat c.toNat).toNat = c.toNat := toNat_ofNat (by omega)
    rw [List.singleton_append, first?_one (by omega), ha, hself]
    rfl
  · next hone =>
    split
    · next htwo =>
      have ha : (UInt8.ofNat (c.toNat / 0x40 % 0x20 + 0xC0)).toNat =
        c.toNat / 0x40 % 0x20 + 0xC0 := toNat_ofNat (by omega)
      refine first?_two (by omega) ?_
      rw [pair?_eq ha (toNat_ofNat (by omega)) (by omega) (by omega) (n := c.toNat) (by omega),
        hself]
    · next htwo =>
      split
      · next hthree =>
        have ha : (UInt8.ofNat (c.toNat / 0x1000 % 0x10 + 0xE0)).toNat =
          c.toNat / 0x1000 % 0x10 + 0xE0 := toNat_ofNat (by omega)
        refine first?_three (by omega) (pair?_eq_none (by omega)) ?_
        rw [triple?_eq ha (toNat_ofNat (by omega)) (toNat_ofNat (by omega)) (by omega) (by omega)
          (by omega) (n := c.toNat) (by omega) (by omega), hself]
      · next hthree =>
        have ha : (UInt8.ofNat (c.toNat / 0x40000 % 8 + 0xF0)).toNat =
          c.toNat / 0x40000 % 8 + 0xF0 := toNat_ofNat (by omega)
        refine first?_four (by omega) (pair?_eq_none (by omega)) (triple?_eq_none (by omega)) ?_
        rw [quadruple?_eq ha (toNat_ofNat (by omega)) (toNat_ofNat (by omega))
          (toNat_ofNat (by omega)) (by omega) (by omega) (by omega) (by omega) (n := c.toNat)
          (by omega) (by omega), hself]

/-! ### Texts -/

theorem toList_loop (bs : ByteArray) (i : Nat) (done : List UInt8) :
    ByteArray.toList.loop bs i done = done.reverse ++ bs.data.toList.drop i := by
  induction h : bs.size - i generalizing i done with
  | zero =>
    have hi : ¬ i < bs.size := by omega
    rw [ByteArray.toList.loop, if_neg hi, List.drop_eq_nil_of_le (Nat.not_lt.1 hi),
      List.append_nil]
  | succ n ih =>
    have hi : i < bs.size := by omega
    have hlength : i < bs.data.toList.length := hi
    have hget : bs.get! i = bs.data.toList[i] := by
      obtain ⟨bytes⟩ := bs
      exact getElem!_pos bytes i hi
    rw [ByteArray.toList.loop, if_pos hi, ih _ _ (by omega), List.drop_eq_getElem_cons hlength,
      List.reverse_cons, List.append_assoc, hget]
    rfl

/-- The bytes of a text are those of its characters, one after the other. -/
theorem encode_eq (s : String) : encode s = s.toList.flatMap String.utf8EncodeChar := by
  rw [encode, String.toUTF8_eq_toByteArray, ← String.utf8Encode_toList]
  rw [ByteArray.toList, toList_loop, List.utf8Encode, List.toList_data_toByteArray]
  rfl

theorem scan_append (done : List Piece) (taken rest : List UInt8) :
    scan done taken.length (taken ++ rest) = scan done 0 rest := by
  induction taken with
  | nil => rfl
  | cons a taken ih => rw [List.cons_append, List.length_cons, scan, ih]

/-- **A scan goes on behind the bytes of a character.** -/
theorem scan_utf8EncodeChar (done : List Piece) (c : Char) (rest : List UInt8) :
    scan done 0 (String.utf8EncodeChar c ++ rest) = scan (.char c :: done) 0 rest := by
  have hfirst := first?_utf8EncodeChar c rest
  cases hbytes : String.utf8EncodeChar c with
  | nil => exact absurd hbytes String.utf8EncodeChar_ne_nil
  | cons a taken =>
    rw [hbytes] at hfirst
    rw [List.cons_append, scan, ← List.cons_append, hfirst]
    exact scan_append _ taken rest

theorem scan_flatMap_utf8EncodeChar (cs : List Char) :
    ∀ done, scan done 0 (cs.flatMap String.utf8EncodeChar) = done.reverse ++ cs.map .char := by
  induction cs with
  | nil => exact fun done ↦ (List.append_nil _).symm
  | cons c cs ih =>
    intro done
    rw [List.flatMap_cons, scan_utf8EncodeChar, ih]
    simp

/-- **A text is read back from its bytes.** -/
theorem decodeLossy_encode (s : String) : decodeLossy (encode s) = s.toList := by
  rw [decodeLossy, pieces, encode_eq, scan_flatMap_utf8EncodeChar, List.reverse_nil,
    List.nil_append, List.map_map]
  exact List.map_id _

end Questionnaire.Text.Utf8
