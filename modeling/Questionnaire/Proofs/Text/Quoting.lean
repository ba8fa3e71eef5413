import Mathlib.Algebra.GroupWithZero.Nat
import Mathlib.Data.List.Nodup
import Questionnaire.Text.Quoted

/-!
# Reading quoted text back

A run of characters of one sort ends where a character of another sort follows, so that what is
written and what follows it can be told apart (`run_unique`).

Between two marks each character is written as itself, or as a backslash and what stands for it
(`Escapes`). The character behind the backslash tells how many hexadecimal digits belong to it, so
that no way of writing a character is the beginning of another one (`quoteChar_append_inj`), and the
mark that ends the text is found again (`quoteChars_append_inj`).
-/

namespace Questionnaire.Text

/-! ### Runs -/

/-- **A run and what follows it**: characters of one sort, up to the first that is of another. -/
theorem run_unique {p : Char → Prop} {a b r s : List Char} (ha : ∀ c ∈ a, p c)
    (hb : ∀ c ∈ b, p c) (hr : ∀ c ∈ r.head?, ¬ p c) (hs : ∀ c ∈ s.head?, ¬ p c)
    (h : a ++ r = b ++ s) : a = b ∧ r = s := by
  induction a generalizing b with
  | nil =>
    cases b with
    | nil => exact ⟨rfl, h⟩
    | cons d b =>
      exact absurd (hb d List.mem_cons_self) (hr d (by rw [← List.nil_append r, h]; rfl))
  | cons c a ih =>
    obtain ⟨hc, ha⟩ := List.forall_mem_cons.1 ha
    cases b with
    | nil => exact absurd hc (hs c (by rw [← List.nil_append s, ← h]; rfl))
    | cons d b =>
      obtain ⟨rfl, hrest⟩ := List.cons.inj h
      obtain ⟨rfl, hrs⟩ := ih ha (List.forall_mem_cons.1 hb).2 hrest
      exact ⟨rfl, hrs⟩

/-! ### Numbers of characters -/

theorem hexDigit_inj : ∀ m < 16, ∀ n < 16, hexDigit m = hexDigit n → m = n := by
  decide

theorem hexDigits_inj {width m n : Nat} (hm : m < 16 ^ width) (hn : n < 16 ^ width)
    (h : hexDigits width m = hexDigits width n) : m = n := by
  induction width generalizing m n with
  | zero => omega
  | succ width ih =>
    rw [Nat.pow_succ] at hm hn
    obtain ⟨hhigh, hlow⟩ := List.append_inj h (by simp)
    have hquotient : m / 16 = n / 16 := ih (by omega) (by omega) hhigh
    have hdigit : m % 16 = n % 16 :=
      hexDigit_inj _ (Nat.mod_lt _ (by decide)) _ (Nat.mod_lt _ (by decide)) (List.cons.inj hlow).1
    omega

/-! ### Single characters -/

/-- The control characters that have a letter, by their numbers. -/
def controlLetters : List (Nat × Char) :=
  [(0x07, 'a'), (0x08, 'b'), (0x0C, 'f'), (0x0A, 'n'), (0x0D, 'r'), (0x09, 't'), (0x0B, 'v')]

theorem mem_controlLetters {c l : Char} (h : controlLetter c = some l) :
    (c.toNat, l) ∈ controlLetters := by
  unfold controlLetter at h
  split at h
  case h_8 => exact absurd h (by simp)
  all_goals
    next heq =>
      rw [heq, ← Option.some.inj h]
      decide

/-- The letters before hexadecimal digits, each with their number. -/
def codeLetters : List (Char × Nat) :=
  [('x', 2), ('u', 4), ('U', 8)]

/-- The character `e` and the characters `ds`, behind a backslash, stand for `c`. -/
inductive Escapes : Char → List Char → Char → Prop
  | self {c : Char} (h : ¬ c.isAlpha) : Escapes c [] c
  | control {c l : Char} (h : (c.toNat, l) ∈ controlLetters) : Escapes l [] c
  | code {c l : Char} {width : Nat} (h : (l, width) ∈ codeLetters) (hc : c.toNat < 16 ^ width) :
      Escapes l (hexDigits width c.toNat) c

theorem isAlpha_of_mem_controlLetters {n : Nat} {l : Char} (h : (n, l) ∈ controlLetters) :
    l.isAlpha ∧ ∀ width, (l, width) ∉ codeLetters := by
  revert h
  simp only [controlLetters, codeLetters, List.mem_cons, Prod.mk.injEq, List.not_mem_nil, or_false]
  rintro (⟨-, rfl⟩ | ⟨-, rfl⟩ | ⟨-, rfl⟩ | ⟨-, rfl⟩ | ⟨-, rfl⟩ | ⟨-, rfl⟩ | ⟨-, rfl⟩) <;> simp

theorem isAlpha_of_mem_codeLetters {l : Char} {width : Nat} (h : (l, width) ∈ codeLetters) :
    l.isAlpha := by
  revert h
  simp only [codeLetters, List.mem_cons, Prod.mk.injEq, List.not_mem_nil, or_false]
  rintro (⟨rfl, -⟩ | ⟨rfl, -⟩ | ⟨rfl, -⟩) <;> simp

/-- **What is written behind a backslash** stands for one character only, whatever follows it. -/
theorem Escapes.unique {e c d : Char} {cs ds r s : List Char} (hc : Escapes e cs c)
    (hd : Escapes e ds d) (h : cs ++ r = ds ++ s) : c = d ∧ r = s := by
  cases hc with
  | self hself =>
    cases hd with
    | self => exact ⟨rfl, h⟩
    | control hl => exact absurd (isAlpha_of_mem_controlLetters hl).1 hself
    | code hl => exact absurd (isAlpha_of_mem_codeLetters hl) hself
  | control hl =>
    cases hd with
    | self hself => exact absurd (isAlpha_of_mem_controlLetters hl).1 hself
    | control hl' =>
      have hnodup : (controlLetters.map Prod.snd).Nodup := by decide
      have hpair := List.inj_on_of_nodup_map hnodup hl hl' rfl
      exact ⟨Char.toNat_inj.1 (Prod.mk.inj hpair).1, h⟩
    | code hl' => exact absurd hl' ((isAlpha_of_mem_controlLetters hl).2 _)
  | @code _ _ width hl hlt =>
    cases hd with
    | self hself => exact absurd (isAlpha_of_mem_codeLetters hl) hself
    | control hl' => exact absurd hl ((isAlpha_of_mem_controlLetters hl').2 _)
    | @code _ _ width' hl' hlt' =>
      have hnodup : (codeLetters.map Prod.fst).Nodup := by decide
      obtain rfl : width = width' :=
        (Prod.mk.inj (List.inj_on_of_nodup_map hnodup hl hl' rfl)).2
      obtain ⟨hdigits, hrest⟩ := List.append_inj h (by simp)
      exact ⟨Char.toNat_inj.1 (hexDigits_inj hlt hlt' hdigits), hrest⟩

variable {mark : Char}

/-- **How a character is written**: as itself, or behind a backslash. -/
theorem quoteChar_cases (hmark : ¬ mark.isAlpha) (c : Char) :
    (quoteChar mark c = [c] ∧ c ≠ mark ∧ c ≠ '\\') ∨
      ∃ e cs, quoteChar mark c = '\\' :: e :: cs ∧ Escapes e cs c := by
  have hlt : c.toNat < 0x110000 := by
    have hvalid := c.valid
    simp only [UInt32.isValidChar, Nat.isValidChar] at hvalid
    simp only [Char.toNat]
    omega
  rw [quoteChar]
  split
  · next hself =>
    refine Or.inr ⟨c, [], rfl, .self ?_⟩
    rcases Bool.or_eq_true_iff.1 hself with h | h
    · rwa [of_decide_eq_true h]
    · rw [of_decide_eq_true h]
      decide
  · next hself =>
    simp only [Bool.or_eq_true_iff, decide_eq_true_eq, not_or] at hself
    split
    · exact Or.inl ⟨rfl, hself⟩
    · split
      · next l hl => exact Or.inr ⟨l, [], rfl, .control (mem_controlLetters hl)⟩
      · refine Or.inr ?_
        dsimp only
        split
        · exact ⟨'x', _, rfl, .code (by simp [codeLetters]) (by omega)⟩
        · split
          · exact ⟨'u', _, rfl, .code (by simp [codeLetters]) (by omega)⟩
          · exact ⟨'U', _, rfl, .code (by simp [codeLetters]) (by omega)⟩

/-- **No way of writing a character** is the beginning of another one. -/
theorem quoteChar_append_inj (hmark : ¬ mark.isAlpha) {c d : Char} {r s : List Char}
    (h : quoteChar mark c ++ r = quoteChar mark d ++ s) : c = d ∧ r = s := by
  rcases quoteChar_cases hmark c with ⟨hc, -, hcne⟩ | ⟨e, cs, hc, hesc⟩ <;>
    rcases quoteChar_cases hmark d with ⟨hd, -, hdne⟩ | ⟨e', ds, hd, hesc'⟩ <;>
    rw [hc, hd] at h
  · exact List.cons.inj h
  · exact absurd (List.cons.inj h).1 hcne
  · exact absurd (List.cons.inj h).1.symm hdne
  · obtain ⟨rfl, hrest⟩ := List.cons.inj (List.cons.inj h).2
    exact hesc.unique hesc' hrest

/-- The mark does not start what is written for a character. -/
theorem ne_quoteChar_append (hmark : ¬ mark.isAlpha) (hbackslash : mark ≠ '\\') {c : Char}
    {r s : List Char} : mark :: r ≠ quoteChar mark c ++ s := by
  intro h
  rcases quoteChar_cases hmark c with ⟨hc, hcne, -⟩ | ⟨e, cs, hc, -⟩ <;> rw [hc] at h
  · exact hcne (List.cons.inj h).1.symm
  · exact hbackslash (List.cons.inj h).1

/-- **Characters between marks** are found again, whatever follows the second mark. -/
theorem quoteChars_append_inj (hmark : ¬ mark.isAlpha) (hbackslash : mark ≠ '\\')
    {cs ds r s : List Char}
    (h : quoteChars mark cs ++ mark :: r = quoteChars mark ds ++ mark :: s) : cs = ds ∧ r = s := by
  induction cs generalizing ds with
  | nil =>
    cases ds with
    | nil => exact ⟨rfl, (List.cons.inj h).2⟩
    | cons d ds =>
      rw [quoteChars, quoteChars, List.flatMap_cons, List.append_assoc] at h
      exact absurd h (ne_quoteChar_append hmark hbackslash)
  | cons c cs ih =>
    cases ds with
    | nil =>
      rw [quoteChars, quoteChars, List.flatMap_cons, List.append_assoc] at h
      exact absurd h.symm (ne_quoteChar_append hmark hbackslash)
    | cons d ds =>
      rw [quoteChars, quoteChars, List.flatMap_cons, List.flatMap_cons, List.append_assoc,
        List.append_assoc] at h
      obtain ⟨rfl, hrest⟩ := quoteChar_append_inj hmark h
      obtain ⟨rfl, hrs⟩ := ih hrest
      exact ⟨rfl, hrs⟩

theorem toNat_bounds_of_isAlpha {c : Char} (h : c.isAlpha) : 65 ≤ c.toNat ∧ c.toNat ≤ 122 := by
  have hletter : (65 ≤ c.toNat ∧ c.toNat ≤ 90) ∨ (97 ≤ c.toNat ∧ c.toNat ≤ 122) := by
    have halpha : c.isAlpha = (decide ('A' ≤ c ∧ c ≤ 'Z') || ('a' ≤ c && c ≤ 'z')) := rfl
    simpa [halpha, Char.le_def, UInt32.le_iff_toNat_le] using h
  omega

theorem isPrintable_of_isAlpha {c : Char} (h : c.isAlpha) : isPrintable c := by
  have hbounds := toNat_bounds_of_isAlpha h
  rw [isPrintable_of_ascii (by omega)]
  exact decide_eq_true (by omega)

/-- Letters are written as they are. -/
theorem quoteChars_of_isAlpha (hmark : ¬ mark.isAlpha) {cs : List Char}
    (h : ∀ c ∈ cs, c.isAlpha) : quoteChars mark cs = cs := by
  have hone : ∀ c ∈ cs, quoteChar mark c = [c] := by
    intro c hc
    have hne : ¬ ((decide (c = mark) || decide (c = '\\')) = true) := by
      simp only [Bool.or_eq_true_iff, decide_eq_true_eq, not_or]
      exact ⟨fun heq ↦ hmark (heq ▸ h c hc), fun heq ↦ absurd (heq ▸ h c hc) (by decide)⟩
    rw [quoteChar, if_neg hne, if_pos (isPrintable_of_isAlpha (h c hc))]
  rw [quoteChars, List.flatMap_congr hone, List.flatMap_singleton']

/-- **A quoted text** is found again, whatever follows it. -/
theorem quoted_append_inj {s t : String} {r r' : List Char}
    (h : (quoted s).toList ++ r = (quoted t).toList ++ r') : s = t ∧ r = r' := by
  rw [quoted, quoted, String.toList_ofList, String.toList_ofList, List.cons_append,
    List.cons_append, List.append_assoc, List.append_assoc] at h
  obtain ⟨hchars, hrest⟩ :=
    quoteChars_append_inj (by decide) (by decide) (List.cons.inj h).2
  exact ⟨String.toList_inj.1 hchars, hrest⟩

end Questionnaire.Text
