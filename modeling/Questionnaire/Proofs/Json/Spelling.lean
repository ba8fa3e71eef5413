import Questionnaire.Json.Read
import Questionnaire.Json.Write

/-!
# How numbers and strings are spelled

The grammar of JSON for what stands between its brackets. A number is spelled by
`Numeral.Grammatical` parts; a string may spell each of its characters in several ways
(`SpelledAs`): as it is, by a letter after a backslash, by its code, or by the codes of a surrogate
pair. Reading goes through all of these spellings to what they spell, whatever may follow it
(`readNumeral_append`, `readString_append`), and writing uses one of them
(`spelledAs_flatMap_writeChar`).
-/

namespace Questionnaire.Json

/-! ### Ends -/

/-- The characters that can follow a value. -/
def terminators : List Char :=
  [' ', '\t', '\r', '\n', ',', ']', '\x7d']

/-- What is left does not go on with a value in front of it. -/
def Ends (rest : List Char) : Prop :=
  ∀ c ∈ rest.head?, c ∈ terminators

theorem ends_nil : Ends [] :=
  fun _ hc ↦ absurd hc (by simp)

theorem ends_cons {c : Char} {rest : List Char} (h : c ∈ terminators) : Ends (c :: rest) := by
  rintro d ⟨⟩
  exact h

/-! ### Numbers -/

/-- Some digits, at least one. -/
def Digits (ds : List Char) : Prop :=
  ds ≠ [] ∧ ∀ c ∈ ds, c.isDigit

/-- The parts of an exponent are what they should be. -/
structure Exponent.Grammatical (e : Exponent) : Prop where
  letter : e.letter ∈ ['e', 'E']
  sign : e.sign ∈ [none, some '+', some '-']
  digits : Digits e.digits

/-- The parts of a number are what they should be. -/
structure Numeral.Grammatical (n : Numeral) : Prop where
  whole : Digits n.whole
  /-- A zero in front stands alone. -/
  leading : n.whole.head? = some '0' → n.whole = ['0']
  fraction : ∀ c ∈ n.fraction, c.isDigit
  exponent : ∀ e ∈ n.exponent, e.Grammatical

theorem splitDigits_append {ds rest : List Char} (hds : ∀ c ∈ ds, c.isDigit)
    (hrest : ∀ c ∈ rest.head?, ¬ c.isDigit) : splitDigits (ds ++ rest) = (ds, rest) := by
  have hnone : rest.takeWhile Char.isDigit = [] ∧ rest.dropWhile Char.isDigit = rest := by
    cases rest with
    | nil => exact ⟨rfl, rfl⟩
    | cons c rest =>
      have hc : c.isDigit = false := by simpa using hrest c rfl
      simp [hc]
  rw [splitDigits, List.takeWhile_append_of_pos hds, List.dropWhile_append_of_pos hds, hnone.1,
    hnone.2, List.append_nil]

theorem Digits.splitDigits {ds rest : List Char} (h : Digits ds)
    (hrest : ∀ c ∈ rest.head?, ¬ c.isDigit) :
    ∃ c cs, ds = c :: cs ∧ Json.splitDigits (ds ++ rest) = (c :: cs, rest) := by
  cases hds : ds with
  | nil => exact absurd hds h.1
  | cons c cs => exact ⟨c, cs, rfl, splitDigits_append (hds ▸ h.2) hrest⟩

/-- The characters of an exponent that may be missing. -/
def Numeral.exponentChars (n : Numeral) : List Char :=
  (n.exponent.map Exponent.chars).getD []

/-- The characters of a fraction that may be missing. -/
def Numeral.fractionChars (n : Numeral) : List Char :=
  if n.fraction.isEmpty then [] else '.' :: n.fraction

theorem readSign_append {sign : Option Char} {rest : List Char}
    (hsign : sign ∈ [none, some '+', some '-']) (hrest : ∃ c cs, rest = c :: cs ∧ c.isDigit) :
    readSign (sign.toList ++ rest) = (sign, rest) := by
  obtain ⟨c, cs, rfl, hc⟩ := hrest
  simp only [List.mem_cons, List.not_mem_nil, or_false] at hsign
  rcases hsign with rfl | rfl | rfl
  · have hplus : c ≠ '+' := by rintro rfl; exact absurd hc (by decide)
    have hminus : c ≠ '-' := by rintro rfl; exact absurd hc (by decide)
    simp [readSign, hplus, hminus]
  · rfl
  · rfl

theorem readExponent_append {n : Numeral} {rest : List Char} (h : n.Grammatical)
    (hrest : Ends rest) : readExponent (n.exponentChars ++ rest) = some (n.exponent, rest) := by
  have hfollows : ∀ c ∈ terminators, ¬ c.isDigit ∧ ¬ (c = 'e' ∨ c = 'E') := by simp [terminators]
  rw [Numeral.exponentChars]
  cases he : n.exponent with
  | none =>
    cases rest with
    | nil => rfl
    | cons c rest =>
      have hc := (hfollows c (hrest c rfl)).2
      simp [readExponent, hc]
  | some e =>
    obtain ⟨hletter, hsign, hdigits⟩ := h.exponent e he
    obtain ⟨c, cs, hds, hsplit⟩ := hdigits.splitDigits fun c hc ↦ (hfollows c (hrest c hc)).1
    have hhead : ∃ d ds, e.digits ++ rest = d :: ds ∧ d.isDigit :=
      ⟨c, cs ++ rest, by rw [hds]; rfl, hdigits.2 c (by simp [hds])⟩
    have hread := readSign_append hsign hhead
    obtain ⟨letter, sign, digits⟩ := e
    have hletter' : (letter == 'e' || letter == 'E') = true := by simpa using hletter
    simp only [Option.map_some, Option.getD_some, Exponent.chars, List.cons_append,
      List.append_assoc, readExponent, hletter', if_true]
    rw [hread]
    dsimp only at hsplit hds ⊢
    rw [hsplit, hds]

theorem readFraction_append {n : Numeral} {rest : List Char} (h : n.Grammatical)
    (hrest : ∀ c ∈ rest.head?, ¬ c.isDigit ∧ c ≠ '.') :
    readFraction (n.fractionChars ++ rest) = some (n.fraction, rest) := by
  rw [Numeral.fractionChars]
  cases hfraction : n.fraction with
  | nil =>
    cases rest with
    | nil => rfl
    | cons c rest =>
      have hc := (hrest c rfl).2
      simp [readFraction, hc]
  | cons d ds =>
    have hsplit : splitDigits (d :: (ds ++ rest)) = (d :: ds, rest) :=
      splitDigits_append (hfraction ▸ h.fraction) fun c hc ↦ (hrest c hc).1
    simp [readFraction, hsplit]

theorem readWhole_append {n : Numeral} {rest : List Char} (h : n.Grammatical)
    (hrest : ∀ c ∈ rest.head?, ¬ c.isDigit) :
    readWhole (n.whole ++ rest) = some (n.whole, rest) := by
  obtain ⟨c, cs, hwhole, hsplit⟩ := h.whole.splitDigits hrest
  by_cases hzero : c = '0'
  · have halone : n.whole = ['0'] := h.leading (by rw [hwhole, hzero]; rfl)
    rw [halone]
    rfl
  · rw [hwhole] at hsplit ⊢
    unfold readWhole
    split
    · next heq => exact absurd (List.cons.inj heq).1 hzero
    · rw [hsplit]

/-- A spelling without its sign starts with a digit. -/
theorem Numeral.Grammatical.exists_digit {n : Numeral} (h : n.Grammatical) (rest : List Char) :
    ∃ c cs, n.whole ++ rest = c :: cs ∧ c.isDigit := by
  obtain ⟨hne, hdigits⟩ := h.whole
  cases hwhole : n.whole with
  | nil => exact absurd hwhole hne
  | cons c cs => exact ⟨c, cs ++ rest, rfl, hdigits c (by simp [hwhole])⟩

theorem Numeral.chars_append (n : Numeral) (rest : List Char) :
    n.chars ++ rest = (if n.negative then ['-'] else []) ++
      (n.whole ++ (n.fractionChars ++ (n.exponentChars ++ rest))) := by
  simp only [chars, fractionChars, exponentChars, List.append_assoc]

/-- A spelling starts with its sign or with a digit. -/
theorem Numeral.Grammatical.exists_start {n : Numeral} (h : n.Grammatical) (rest : List Char) :
    ∃ c cs, n.chars ++ rest = c :: cs ∧ (c = '-' ∨ c.isDigit) := by
  rw [n.chars_append]
  cases n.negative with
  | true => exact ⟨'-', _, rfl, Or.inl rfl⟩
  | false =>
    obtain ⟨c, cs, hcs, hdigit⟩ := h.exists_digit (n.fractionChars ++ (n.exponentChars ++ rest))
    exact ⟨c, cs, hcs, Or.inr hdigit⟩

theorem head?_exponentChars {n : Numeral} (h : n.Grammatical) {rest : List Char}
    (hrest : Ends rest) : ∀ c ∈ (n.exponentChars ++ rest).head?, ¬ c.isDigit ∧ c ≠ '.' := by
  have hends : ∀ c ∈ terminators, ¬ c.isDigit ∧ c ≠ '.' := by simp [terminators]
  have hletters : ∀ c ∈ ['e', 'E'], ¬ c.isDigit ∧ c ≠ '.' := by simp
  rw [Numeral.exponentChars]
  cases he : n.exponent with
  | none => exact fun c hc ↦ hends c (hrest c hc)
  | some e =>
    rintro c ⟨⟩
    exact hletters _ (h.exponent e he).letter

theorem head?_fractionChars (n : Numeral) {rest : List Char}
    (hrest : ∀ c ∈ rest.head?, ¬ c.isDigit ∧ c ≠ '.') :
    ∀ c ∈ (n.fractionChars ++ rest).head?, ¬ c.isDigit := by
  rw [Numeral.fractionChars]
  split
  · exact fun c hc ↦ (hrest c hc).1
  · rintro c ⟨⟩
    decide

/-- **A number is read** from its spelling, whatever may follow. -/
theorem readNumeral_append {n : Numeral} {rest : List Char} (h : n.Grammatical)
    (hrest : Ends rest) : readNumeral (n.chars ++ rest) = some (n, rest) := by
  have hexponent := head?_exponentChars h hrest
  have hwhole := readWhole_append h (head?_fractionChars n hexponent)
  obtain ⟨c, cs, hcs, hdigit⟩ := h.exists_digit (n.fractionChars ++ (n.exponentChars ++ rest))
  -- without a sign, the first digit must not be taken for one
  have hminus : c ≠ '-' := by
    rintro rfl
    exact absurd hdigit (by decide)
  unfold readNumeral
  rw [n.chars_append]
  cases hsign : n.negative with
  | true =>
    simp only [if_true, List.singleton_append, hwhole, readFraction_append h hexponent,
      readExponent_append h hrest, Option.bind_eq_bind, Option.bind_some]
    rw [← hsign]
    rfl
  | false =>
    rw [hcs] at hwhole ⊢
    have hself : (⟨false, n.whole, n.fraction, n.exponent⟩ : Numeral) = n := by rw [← hsign]
    simp [hminus, hwhole, readFraction_append h hexponent, readExponent_append h hrest, hself]

/-! ### Integers -/

theorem natOfDigits_toDigits (n : Nat) : natOfDigits (Nat.toDigits 10 n) = n :=
  Nat.ofDigitChars_ten_toDigits

theorem digits_toDigits (n : Nat) : Digits (Nat.toDigits 10 n) :=
  ⟨Nat.toDigits_ne_nil, fun _ hc ↦ Nat.isDigit_of_mem_toDigits (by decide) (by decide) hc⟩

theorem toList_toString (n : Nat) : (toString n).toList = Nat.toDigits 10 n :=
  Nat.toList_repr

theorem toString_inj {m n : Nat} (h : toString m = toString n) : m = n := by
  rw [← natOfDigits_toDigits m, ← toList_toString, h, toList_toString, natOfDigits_toDigits]

theorem digits_toString (n : Nat) : Digits (toString n).toList := by
  rw [toList_toString]
  exact digits_toDigits n

/-- Only zero is written with a zero in front. -/
theorem toDigits_leading (n : Nat) :
    (Nat.toDigits 10 n).head? = some '0' → Nat.toDigits 10 n = ['0'] := by
  induction n using Nat.strongRecOn with
  | ind n ih =>
    intro hhead
    by_cases hsmall : n < 10
    · rw [Nat.toDigits_of_lt_base hsmall] at hhead ⊢
      exact congrArg (fun c ↦ [c]) (Option.some.inj hhead)
    · -- the last digit has others in front of it, which do not stand for zero
      rw [Nat.toDigits_of_base_le (by decide) (by omega), List.head?_append,
        Option.or_of_isSome (by simp [Nat.toDigits_ne_nil])] at hhead
      have hzero := natOfDigits_toDigits (n / 10)
      rw [ih (n / 10) (by omega) hhead] at hzero
      have hnone : natOfDigits ['0'] = 0 := rfl
      omega

namespace Numeral

theorem grammatical_ofInt (i : Int) : (ofInt i).Grammatical where
  whole := digits_toDigits _
  leading := toDigits_leading _
  fraction := fun _ hc ↦ absurd hc List.not_mem_nil
  exponent := fun _ he ↦ absurd he (by simp [ofInt])

/-- **A word of 64 bits** is told from its spelling. -/
theorem toInt64?_ofInt (i : Int64) : (ofInt i.toInt).toInt64? = some i := by
  have hvalue : (ofInt i.toInt).toInt? = some i.toInt := by
    rw [toInt?, ofInt, natOfDigits_toDigits]
    simp only [List.isEmpty_nil, Option.isNone_none, Bool.and_self, if_true, decide_eq_true_eq,
      Option.some.injEq]
    omega
  rw [toInt64?, hvalue, Option.bind_some, if_pos ⟨i.minValue_le_toInt, i.toInt_le⟩,
    Int64.ofInt_toInt]

end Numeral

/-! ### Strings -/

/-- Characters are spelled in the body of a string. -/
inductive SpelledAs : List Char → List Char → Prop
  | nil : SpelledAs [] []
  | plain {c : Char} {cs raw : List Char} (bare : c ≠ '"' ∧ c ≠ '\\' ∧ 0x20 ≤ c.toNat)
      (rest : SpelledAs cs raw) : SpelledAs (c :: cs) (c :: raw)
  | letter {e c : Char} {cs raw : List Char} (means : escapeChar? e = some c)
      (rest : SpelledAs cs raw) : SpelledAs (c :: cs) ('\\' :: e :: raw)
  | code {a b c d : Char} {n : Nat} {cs raw : List Char} (means : hexCode? a b c d = some n)
      (single : ¬ isHighSurrogate n ∧ ¬ isLowSurrogate n) (rest : SpelledAs cs raw) :
      SpelledAs (Char.ofNat n :: cs) ('\\' :: 'u' :: a :: b :: c :: d :: raw)
  | pair {a b c d a' b' c' d' : Char} {n m : Nat} {cs raw : List Char}
      (meansHigh : hexCode? a b c d = some n) (meansLow : hexCode? a' b' c' d' = some m)
      (high : isHighSurrogate n) (low : isLowSurrogate m) (rest : SpelledAs cs raw) :
      SpelledAs (Char.ofNat (0x10000 + (n - 0xD800) * 0x400 + (m - 0xDC00)) :: cs)
        ('\\' :: 'u' :: a :: b :: c :: d :: '\\' :: 'u' :: a' :: b' :: c' :: d' :: raw)

theorem readUnits_quote (done : List TextUnit) (rest : List Char) :
    readUnits done ('"' :: rest) = some (done.reverse, rest) := by
  rw [readUnits.eq_def]
  rfl

theorem readUnits_plain {done : List TextUnit} {c : Char} {rest : List Char}
    (h : c ≠ '"' ∧ c ≠ '\\' ∧ 0x20 ≤ c.toNat) :
    readUnits done (c :: rest) = readUnits (.char c :: done) rest := by
  rw [readUnits.eq_def]
  simp [h.1, h.2.1, Nat.not_lt.2 h.2.2]

theorem readUnits_letter {done : List TextUnit} {e c : Char} {rest : List Char}
    (h : escapeChar? e = some c) :
    readUnits done ('\\' :: e :: rest) = readUnits (.char c :: done) rest := by
  have hu : e ≠ 'u' := by
    rintro rfl
    exact absurd h (by simp [escapeChar?])
  rw [readUnits.eq_def]
  simp [hu, h]

theorem readUnits_code {done : List TextUnit} {a b c d : Char} {n : Nat} {rest : List Char}
    (h : hexCode? a b c d = some n) :
    readUnits done ('\\' :: 'u' :: a :: b :: c :: d :: rest) =
      readUnits (.code n :: done) rest := by
  rw [readUnits.eq_def]
  simp [h]

/-- A code that is no first half of a pair stands for itself, whatever follows. -/
theorem joinUnits_code {n : Nat} (h : ¬ isHighSurrogate n) (done : List Char)
    (units : List TextUnit) :
    joinUnits done (.code n :: units) = joinUnits (charOfCode n :: done) units := by
  cases units with
  | nil => rfl
  | cons unit units =>
    cases unit with
    | char c => rfl
    | code m => simp [joinUnits, h]

/-- What is spelled in the body of a string is read as units that stand for it. -/
theorem SpelledAs.exists_units {cs raw : List Char} (h : SpelledAs cs raw) :
    ∃ units, (∀ done rest, readUnits done (raw ++ '"' :: rest) =
        some (done.reverse ++ units, rest)) ∧
      ∀ done, joinUnits done units = done.reverse ++ cs := by
  -- a pair is joined only after all of the body is read, so the two passes go side by side
  induction h with
  | nil => exact ⟨[], fun done rest ↦ by simp [readUnits_quote], fun done ↦ by simp [joinUnits]⟩
  | @plain c _ _ bare _ ih =>
    obtain ⟨units, hread, hjoin⟩ := ih
    refine ⟨.char c :: units, fun done rest ↦ ?_, fun done ↦ ?_⟩
    · rw [List.cons_append, readUnits_plain bare, hread]
      simp
    · rw [joinUnits, hjoin]
      simp
  | @letter e c _ _ means _ ih =>
    obtain ⟨units, hread, hjoin⟩ := ih
    refine ⟨.char c :: units, fun done rest ↦ ?_, fun done ↦ ?_⟩
    · rw [List.cons_append, List.cons_append, readUnits_letter means, hread]
      simp
    · rw [joinUnits, hjoin]
      simp
  | @code a b c d n _ _ means single _ ih =>
    obtain ⟨units, hread, hjoin⟩ := ih
    refine ⟨.code n :: units, fun done rest ↦ ?_, fun done ↦ ?_⟩
    · simp only [List.cons_append]
      rw [readUnits_code means, hread]
      simp
    · rw [joinUnits_code single.1, hjoin, charOfCode, if_neg (by simpa using single)]
      simp
  | @pair a b c d a' b' c' d' n m _ _ meansHigh meansLow high low _ ih =>
    obtain ⟨units, hread, hjoin⟩ := ih
    refine ⟨.code n :: .code m :: units, fun done rest ↦ ?_, fun done ↦ ?_⟩
    · simp only [List.cons_append]
      rw [readUnits_code meansHigh, readUnits_code meansLow, hread]
      simp
    · rw [joinUnits, if_pos (by simp [high, low]), hjoin]
      simp

/-- **A string is read** from each of its spellings. -/
theorem readString_append {s : String} {raw rest : List Char} (h : SpelledAs s.toList raw) :
    readString (raw ++ '"' :: rest) = some (s, rest) := by
  obtain ⟨units, hread, hjoin⟩ := h.exists_units
  rw [readString, hread, Option.map_some, List.reverse_nil, List.nil_append]
  simp [hjoin]

/-! ### Written strings -/

theorem hexValue?_hexDigit : ∀ k < 16, hexValue? (Text.hexDigit k) = some k := by
  decide

theorem hexCode?_hexDigits {n : Nat} (h : n < 0x10000) :
    ∃ a b c d, Text.hexDigits 4 n = [a, b, c, d] ∧ hexCode? a b c d = some n := by
  refine ⟨_, _, _, _, rfl, ?_⟩
  have hdigit : ∀ m, hexValue? (Text.hexDigit (m % 16)) = some (m % 16) :=
    fun m ↦ hexValue?_hexDigit _ (Nat.mod_lt _ (by decide))
  simp only [hexCode?, hdigit, Option.bind_eq_bind, Option.bind_some, Option.pure_def,
    Option.some.injEq]
  omega

/-- No character is half of a surrogate pair. -/
theorem not_isSurrogate_toNat (c : Char) :
    ¬ isHighSurrogate c.toNat ∧ ¬ isLowSurrogate c.toNat := by
  have hvalid : c.toNat < 0xD800 ∨ 0xDFFF < c.toNat ∧ c.toNat < 0x110000 := c.valid
  simp only [isHighSurrogate, isLowSurrogate, decide_eq_true_eq]
  omega

/-- A character that is written stands in front of what is spelled behind it. -/
theorem SpelledAs.writeChar {cs raw : List Char} (c : Char) (h : SpelledAs cs raw) :
    SpelledAs (c :: cs) (Json.writeChar c ++ raw) := by
  unfold Json.writeChar
  -- seven characters have a letter of their own
  split
  · exact .letter rfl h
  · exact .letter rfl h
  · exact .letter rfl h
  · exact .letter rfl h
  · exact .letter rfl h
  · exact .letter rfl h
  · exact .letter rfl h
  · next hquote hbackslash _ _ _ _ _ =>
    split
    · next hcode =>
      have hsmall : c.toNat < 0x10000 := by
        simp only [Bool.or_eq_true, decide_eq_true_eq, beq_iff_eq] at hcode
        rcases hcode with ((((hcode | rfl) | rfl) | rfl) | rfl) | rfl
        · omega
        all_goals decide
      obtain ⟨a, b, d, e, hdigits, hmeans⟩ := hexCode?_hexDigits hsmall
      have hspelled := SpelledAs.code hmeans (not_isSurrogate_toNat c) h
      rw [Char.ofNat_toNat] at hspelled
      rw [unicodeEscape, hdigits]
      exact hspelled
    · next hcode =>
      have hbare : 0x20 ≤ c.toNat := by
        simp only [Bool.or_eq_true, decide_eq_true_eq, not_or] at hcode
        omega
      exact .plain ⟨hquote, hbackslash, hbare⟩ h

theorem spelledAs_flatMap_writeChar (cs : List Char) : SpelledAs cs (cs.flatMap writeChar) := by
  induction cs with
  | nil => exact .nil
  | cons c cs ih => exact ih.writeChar c

end Questionnaire.Json
