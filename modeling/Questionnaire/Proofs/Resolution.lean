import Mathlib.Data.List.Induction
import Questionnaire.Proofs.Declarations
import Questionnaire.Proofs.DocumentOrder

/-!
# What declarations are resolved to

A list of declarations is split by one question: has the id of a declaration occurred before it?
Where it has not, the declaration is a **first** one (`Question.firsts`), and where it has, it is a
**repeat**, and goes with the first declaration of its id (`Question.repeats`). The symbol table
holds the firsts and the findings are about the repeats. Both grow at their end, so that the two are
compared along the list from its beginning: `firsts_concat`, `repeats_concat` and
`declareAll_concat` say what one more declaration does to each of them.

`Resolves` is all that is to be said of a table and its findings against a list of declarations, and
`resolveSymbols_first_wins` says it of every form and its declarations in document order.
-/

namespace Questionnaire

namespace Question

/-! ### Firsts and repeats -/

/-- Each declaration of a list, with those before it. -/
def withEarlier (qs : List Question) : List (List Question × Question) :=
  qs.zipIdx.map fun d ↦ (qs.take d.2, d.1)

/-- The declarations whose id has not occurred before. -/
def firsts (qs : List Question) : List Question :=
  ((withEarlier qs).filter fun d ↦ d.2.id ∉ d.1.map id).map Prod.snd

/-- The declarations whose key has occurred before, each with the first declaration of its key. -/
def repeatsBy (key : Question → String) (qs : List Question) : List (Question × Question) :=
  (withEarlier qs).filterMap fun d ↦
    (d.1.find? fun q ↦ key q == key d.2).map fun first ↦ (d.2, first)

/-- The declarations whose id has occurred before, each with the first declaration of its id. -/
def repeats : List Question → List (Question × Question) :=
  repeatsBy id

theorem withEarlier_concat (qs : List Question) (q : Question) :
    withEarlier (qs ++ [q]) = withEarlier qs ++ [(qs, q)] := by
  have hold : ∀ d ∈ qs.zipIdx, ((qs ++ [q]).take d.2, d.1) = (qs.take d.2, d.1) := by
    intro d hd
    have hlt := List.snd_lt_of_mem_zipIdx hd
    rw [List.take_append_of_le_length (by omega)]
  rw [withEarlier, List.zipIdx_append, List.map_append, List.map_congr_left hold]
  simp [withEarlier]

theorem firsts_concat (qs : List Question) (q : Question) :
    firsts (qs ++ [q]) = firsts qs ++ if q.id ∈ qs.map id then [] else [q] := by
  rw [firsts, withEarlier_concat, List.filter_append, List.map_append, ← firsts,
    List.filter_singleton]
  by_cases h : q.id ∈ qs.map id
  · rw [if_pos h, decide_eq_false (not_not.2 h)]
    rfl
  · rw [if_neg h, decide_eq_true h]
    rfl

theorem repeatsBy_concat (key : Question → String) (qs : List Question) (q : Question) :
    repeatsBy key (qs ++ [q]) = repeatsBy key qs ++
      ((qs.find? fun r ↦ key r == key q).map fun first ↦ (q, first)).toList := by
  rw [repeatsBy, withEarlier_concat, List.filterMap_append, ← repeatsBy,
    List.filterMap_eq_flatMap_toList, List.flatMap_singleton]

theorem repeats_concat (qs : List Question) (q : Question) :
    repeats (qs ++ [q]) =
      repeats qs ++ ((qs.find? fun r ↦ r.id == q.id).map fun first ↦ (q, first)).toList :=
  repeatsBy_concat id qs q

/-- Nothing is repeated when the keys are distinct, and only then. -/
theorem repeatsBy_eq_nil_iff (key : Question → String) (qs : List Question) :
    repeatsBy key qs = [] ↔ (qs.map key).Nodup := by
  induction qs using List.reverseRecOn with
  | nil => exact iff_of_true rfl List.nodup_nil
  | append_singleton qs q ih =>
    have hfind : ((qs.find? fun r ↦ key r == key q).map fun first ↦ (q, first)).toList = [] ↔
        key q ∉ qs.map key := by
      simp [List.find?_eq_none]
    rw [repeatsBy_concat, List.append_eq_nil_iff, ih, hfind, List.map_append, List.map_singleton,
      ← List.concat_eq_append, List.nodup_concat, and_comm]

theorem mem_of_mem_firsts {qs : List Question} {q : Question} (h : q ∈ firsts qs) : q ∈ qs := by
  obtain ⟨d, hd, rfl⟩ := List.mem_map.1 h
  obtain ⟨⟨r, i⟩, hr, rfl⟩ := List.mem_map.1 (List.mem_of_mem_filter hd)
  exact List.mem_of_getElem? (List.mem_zipIdx_iff_getElem?.1 hr)

end Question

namespace SymbolTable

open Question (firsts repeats)

variable {file : String}

/-! ### One more declaration -/

theorem declareAll_concat (qs : List Question) (q : Question) :
    ∀ t : SymbolTable, t.declareAll file (qs ++ [q]) =
      (((t.declareAll file qs).1.declare file q).1,
        (t.declareAll file qs).2 ++ ((t.declareAll file qs).1.declare file q).2) := by
  induction qs with
  | nil =>
    intro t
    show t.declareAll file (q :: []) = _
    rw [declareAll_cons]
    simp [declareAll]
  | cons r rest ih =>
    intro t
    rw [List.cons_append, declareAll_cons, declareAll_cons, ih, List.append_assoc]

/-- A name is bound to the first declaration of it. -/
theorem signature_lookup_declareAll_empty (qs : List Question) (name : String) :
    ((declareAll file {} qs).1.lookup name).map Symbol.signature =
      (qs.find? fun r ↦ r.id == name).map Question.signature :=
  (signature_lookup_declareAll qs name {}).trans (Option.none_or ..)

/-- The symbol that a first declaration is recorded by, given its place among the firsts. -/
def symbolOf (d : Question × Nat) : Symbol :=
  ⟨d.1.id, d.1.type, d.2, d.1.pos⟩

/-- The finding on a repeat, given with the first declaration of its id. -/
def repeatFinding (file : String) (d : Question × Question) : Finding :=
  .duplicateDeclaration (.ofPosition file d.1.pos) d.1.id (.ofPosition file d.2.pos)

/-- **One more declaration** after others is reported with the first of them that has its id, and
recorded when there is none. -/
theorem declare_declareAll_cases (file : String) (qs : List Question) (q : Question) :
    (∃ first, (qs.find? fun r ↦ r.id == q.id) = some first ∧
      (declareAll file {} qs).1.declare file q =
        ((declareAll file {} qs).1, [repeatFinding file (q, first)])) ∨
    ((qs.find? fun r ↦ r.id == q.id) = none ∧
      (declareAll file {} qs).1.declare file q =
        ((declareAll file {} qs).1.append q, [])) := by
  have hbound : ((declareAll file {} qs).1.lookup q.id).map Symbol.signature = _ :=
    signature_lookup_declareAll_empty qs q.id
  rcases (declareAll file {} qs).1.declare_cases file q with ⟨s, hsome, heq⟩ | ⟨hnone, heq⟩
  · rw [hsome, Option.map_some, eq_comm, Option.map_eq_some_iff] at hbound
    obtain ⟨first, hfirst, hsignature⟩ := hbound
    have hpos : first.pos = s.pos := congrArg (fun d ↦ d.2.2) hsignature
    refine Or.inl ⟨first, hfirst, ?_⟩
    rw [heq, repeatFinding, hpos]
  · rw [hnone, Option.map_none, eq_comm, Option.map_eq_none_iff] at hbound
    exact Or.inr ⟨hbound, heq⟩

theorem mem_ids_of_find? {qs : List Question} {name : String} {first : Question}
    (h : (qs.find? fun r ↦ r.id == name) = some first) : name ∈ qs.map Question.id :=
  List.mem_map.2 ⟨first, List.mem_of_find?_eq_some h, by simpa using List.find?_some h⟩

theorem find?_eq_none_iff_not_mem_ids {qs : List Question} {name : String} :
    (qs.find? fun r ↦ r.id == name) = none ↔ name ∉ qs.map Question.id := by
  simp [List.find?_eq_none]

/-! ### All declarations -/

/-- **The table holds the firsts**, in order and numbered. -/
theorem symbols_declareAll (qs : List Question) :
    (declareAll file {} qs).1.symbols = (firsts qs).zipIdx.map symbolOf := by
  induction qs using List.reverseRecOn with
  | nil => rfl
  | append_singleton qs q ih =>
    rw [declareAll_concat, Question.firsts_concat]
    rcases declare_declareAll_cases file qs q with ⟨first, hfirst, heq⟩ | ⟨hnone, heq⟩
    · rw [heq, if_pos (mem_ids_of_find? hfirst), List.append_nil]
      exact ih
    · have hsymbols : ((declareAll file {} qs).1.append q).symbols =
          (declareAll file {} qs).1.symbols ++ [symbolOf (q, (declareAll file {} qs).1.size)] := rfl
      rw [heq, hsymbols, if_neg (find?_eq_none_iff_not_mem_ids.1 hnone), List.zipIdx_append,
        List.map_append, size, ih, List.length_map, List.length_zipIdx, Nat.zero_add]
      rfl

theorem getElem?_symbols_declareAll (qs : List Question) (i : Nat) :
    (declareAll file {} qs).1.symbols[i]? = (firsts qs)[i]?.map fun q ↦ symbolOf (q, i) := by
  rw [symbols_declareAll, List.getElem?_map, List.getElem?_zipIdx, Option.map_map, Nat.zero_add]
  rfl

/-- **The findings are about the repeats**, in order. -/
theorem findings_declareAll (qs : List Question) :
    (declareAll file {} qs).2 = (repeats qs).map (repeatFinding file) := by
  induction qs using List.reverseRecOn with
  | nil => rfl
  | append_singleton qs q ih =>
    rw [declareAll_concat, Question.repeats_concat, List.map_append, ih]
    rcases declare_declareAll_cases file qs q with ⟨first, hfirst, heq⟩ | ⟨hnone, heq⟩
    · rw [heq, hfirst]
      rfl
    · rw [heq, hnone]
      rfl

/-- Every declaration is recorded or reported. -/
theorem size_add_length_declareAll (qs : List Question) :
    (declareAll file {} qs).1.size + (declareAll file {} qs).2.length = qs.length := by
  induction qs using List.reverseRecOn with
  | nil => rfl
  | append_singleton qs q ih =>
    rw [declareAll_concat, List.length_append, List.length_append, List.length_singleton, ← ih]
    rcases declare_declareAll_cases file qs q with ⟨first, -, heq⟩ | ⟨-, heq⟩
    · rw [heq, List.length_singleton, Nat.add_assoc]
    · rw [heq, size, append, List.length_append, List.length_singleton, List.length_nil,
        Nat.add_zero, Nat.add_right_comm]
      rfl

/-! ### Looking names up -/

theorem lookup_declareAll_eq_none_iff {qs : List Question} {name : String} :
    (declareAll file {} qs).1.lookup name = none ↔ name ∉ qs.map Question.id := by
  rw [← find?_eq_none_iff_not_mem_ids, ← Option.map_eq_none_iff, signature_lookup_declareAll_empty,
    Option.map_eq_none_iff]

theorem numbered_declareAll_empty (qs : List Question) : (declareAll file {} qs).1.Numbered :=
  Numbered.declareAll qs fun _ _ hs ↦ absurd hs (by simp)

/-- **A declared name** is bound to the first of its declarations, at its place among the firsts. -/
theorem exists_lookup_declareAll (file : String) {qs : List Question} {name : String}
    (h : name ∈ qs.map Question.id) :
    ∃ i q, (firsts qs)[i]? = some q ∧ q.id = name ∧
      (declareAll file {} qs).1.lookup name = some (symbolOf (q, i)) := by
  obtain ⟨s, hs⟩ : ∃ s, (declareAll file {} qs).1.lookup name = some s :=
    Option.ne_none_iff_exists'.1 fun hnone ↦ lookup_declareAll_eq_none_iff.1 hnone h
  have hplace := (numbered_declareAll_empty qs).getElem?_of_lookup hs
  rw [getElem?_symbols_declareAll, Option.map_eq_some_iff] at hplace
  obtain ⟨q, hq, hsymbol⟩ := hplace
  refine ⟨s.index, q, hq, ?_, hsymbol ▸ hs⟩
  rw [← name_of_lookup hs]
  exact congrArg Symbol.name hsymbol

/-! ### All that is to be said -/

/-- What the symbol table of a list of declarations and the findings on them are to be. -/
structure Resolves (file : String) (qs : List Question) (t : SymbolTable)
    (findings : List Finding) : Prop where
  /-- The table lists the first declaration of each id, in order, with its place as index. -/
  symbols_eq : t.symbols = (firsts qs).zipIdx.map fun d ↦ ⟨d.1.id, d.1.type, d.2, d.1.pos⟩
  /-- A declared name is found as it is listed. -/
  declared : ∀ name ∈ qs.map Question.id, ∃ i q, (firsts qs)[i]? = some q ∧ q.id = name ∧
    t.lookup name = some ⟨q.id, q.type, i, q.pos⟩ ∧ t.typeOf name = q.type ∧
    t.index? name = some i
  /-- No other name is found, and it has neither type nor index. -/
  undeclared : ∀ name ∉ qs.map Question.id,
    t.lookup name = none ∧ t.typeOf name = .undefined ∧ t.index? name = none
  /-- Each later declaration of an id is reported, in order and with the first one. -/
  findings_eq : findings = (repeats qs).map fun d ↦
    .duplicateDeclaration (.ofPosition file d.1.pos) d.1.id (.ofPosition file d.2.pos)
  size_add_length : t.size + findings.length = qs.length
  findings_eq_nil_iff : findings = [] ↔ (qs.map Question.id).Nodup

theorem resolves_declareAll (file : String) (qs : List Question) :
    Resolves file qs (declareAll file {} qs).1 (declareAll file {} qs).2 where
  symbols_eq := symbols_declareAll qs
  declared name hname := by
    obtain ⟨i, q, hq, hid, hlookup⟩ := exists_lookup_declareAll file hname
    refine ⟨i, q, hq, hid, hlookup, ?_, ?_⟩
    · rw [typeOf, hlookup]
      rfl
    · rw [(numbered_declareAll_empty qs).index?_eq, hlookup]
      rfl
  undeclared name hname := by
    have hlookup : (declareAll file {} qs).1.lookup name = none :=
      lookup_declareAll_eq_none_iff.2 hname
    refine ⟨hlookup, ?_, ?_⟩
    · rw [typeOf, hlookup]
    · rw [(numbered_declareAll_empty qs).index?_eq, hlookup]
      rfl
  findings_eq := findings_declareAll qs
  size_add_length := size_add_length_declareAll qs
  findings_eq_nil_iff :=
    (declareAll_snd_eq_nil_iff qs {}).trans (and_iff_left fun _ _ ↦ rfl)

end SymbolTable

namespace Form

/-- **The first declaration of an id wins and each later one is reported.** The declarations of a
form in document order, at any depth, are what its symbol table and the findings on its declarations
come from. -/
theorem resolveSymbols_first_wins (f : Form) :
    ∃ entries, Statement.InDocumentOrder f.statements entries ∧
      SymbolTable.Resolves f.file (entries.map Prod.snd) f.resolveSymbols.1 f.resolveSymbols.2 := by
  obtain ⟨entries, horder, hquestions⟩ := Statement.exists_inDocumentOrder f.statements
  refine ⟨entries, horder, ?_⟩
  rw [hquestions]
  exact SymbolTable.resolves_declareAll f.file f.questions

/-- An id is declared again in a block, and both ids of the block again behind it. -/
def threefold : Form where
  file := "threefold.json"
  statements :=
    [.question { id := "price", type := .decimal, pos := ⟨1, 1⟩ },
      .condition ⟨2, 1⟩ (.literal ⟨2, 5⟩ (.boolean true))
        [.calculated { id := "price", type := .integer, pos := ⟨3, 3⟩ } .absent,
          .question { id := "sold", type := .boolean, pos := ⟨4, 3⟩ }],
      .question { id := "sold", type := .string, pos := ⟨5, 1⟩ },
      .question { id := "price", type := .decimal, pos := ⟨6, 1⟩ }]

example : (threefold.resolveSymbols.1.symbols, threefold.resolveSymbols.2) =
    ([⟨"price", .decimal, 0, ⟨1, 1⟩⟩, ⟨"sold", .boolean, 1, ⟨4, 3⟩⟩],
      [.duplicateDeclaration ⟨"threefold.json", "", 3, 3⟩ "price" ⟨"threefold.json", "", 1, 1⟩,
        .duplicateDeclaration ⟨"threefold.json", "", 5, 1⟩ "sold" ⟨"threefold.json", "", 4, 3⟩,
        .duplicateDeclaration ⟨"threefold.json", "", 6, 1⟩ "price"
          ⟨"threefold.json", "", 1, 1⟩]) := by
  decide

end Form

end Questionnaire
