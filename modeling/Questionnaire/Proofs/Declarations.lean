import Mathlib.Data.List.Nodup
import Questionnaire.Analysis.Symbols
import Questionnaire.Proofs.Lists
import Questionnaire.Proofs.Places

/-!
# Declarations and the symbol table

A name is looked up by its place in the table, and what is found there is the first symbol with that
name (`lookup_eq_find?`).

What the symbol table of a list of declarations holds, read through two views of it: the names it
binds, which are distinct, and what it binds a name to, which is the **first** declaration of the
name (`signature_lookup_declareAll`, and `type?_declareAll` for the type alone). Symbols stand in
the table at the places that their indices say (`Numbered`).

A list of declarations gives rise to no finding exactly when its ids are distinct
(`declareAll_snd_eq_nil_iff`); then *first* means *only*, and the type of a name no longer depends
on the order of the declarations (`type?_resolveSymbols_eq_some_iff`).
-/

namespace Questionnaire

/-- What a question declares, without its label. -/
def Question.signature (q : Question) : String × ValueType × Position :=
  (q.id, q.type, q.pos)

/-- The declaration that a symbol records. -/
def Symbol.signature (s : Symbol) : String × ValueType × Position :=
  (s.name, s.type, s.pos)

namespace SymbolTable

variable {t : SymbolTable} {file : String}

/-- The declared type of a name, if it is declared. -/
def type? (t : SymbolTable) (name : String) : Option ValueType :=
  (t.lookup name).map Symbol.type

/-- The place of a name is the first one with that name. -/
theorem index?_eq_idxOf? (t : SymbolTable) (name : String) :
    t.index? name = (t.symbols.map Symbol.name).idxOf? name := by
  rw [index?, t.indexed, lookup_zipIdx]
  exact Option.map_id'

/-- **A name is bound** to the first symbol with that name. -/
theorem lookup_eq_find? (t : SymbolTable) (name : String) :
    t.lookup name = t.symbols.find? fun s ↦ s.name == name := by
  rw [lookup, index?_eq_idxOf?, List.idxOf?, List.findIdx?_map,
    List.find?_eq_bind_findIdx?_getElem?]
  rfl

theorem lookup_eq_none_iff {name : String} :
    t.lookup name = none ↔ name ∉ t.symbols.map Symbol.name := by
  simp [lookup_eq_find?, List.find?_eq_none]

theorem mem_of_lookup {name : String} {s : Symbol} (h : t.lookup name = some s) :
    s ∈ t.symbols := by
  rw [lookup_eq_find?] at h
  exact List.mem_of_find?_eq_some h

theorem name_of_lookup {name : String} {s : Symbol} (h : t.lookup name = some s) :
    s.name = name := by
  rw [lookup_eq_find?] at h
  simpa using List.find?_some h

/-- What `declare` may come to: the id is bound already and the declaration is reported, or it is
bound behind the others. -/
theorem declare_cases (t : SymbolTable) (file : String) (q : Question) :
    (∃ first, t.lookup q.id = some first ∧
      t.declare file q = (t, [.duplicateDeclaration (.ofPosition file q.pos) q.id
        (.ofPosition file first.pos)])) ∨
      (t.lookup q.id = none ∧
        t.declare file q = (t.append q, [])) := by
  rw [declare]
  cases h : t.lookup q.id with
  | some first => exact Or.inl ⟨first, rfl, rfl⟩
  | none => exact Or.inr ⟨rfl, rfl⟩

theorem nodup_declare (h : (t.symbols.map Symbol.name).Nodup) (q : Question) :
    ((t.declare file q).1.symbols.map Symbol.name).Nodup := by
  rcases t.declare_cases file q with ⟨first, -, heq⟩ | ⟨hnone, heq⟩
  · rw [heq]
    exact h
  · rw [heq, append, List.map_append, List.map_singleton]
    refine h.append (List.nodup_singleton _) (List.disjoint_singleton.2 ?_)
    exact lookup_eq_none_iff.1 hnone

/-- The first declaration of a name decides what it is bound to. -/
theorem lookup_declare (t : SymbolTable) (file : String) (q : Question) (name : String) :
    (t.declare file q).1.lookup name =
      (t.lookup name).or (if q.id = name then some ⟨q.id, q.type, t.size, q.pos⟩ else none) := by
  rcases t.declare_cases file q with ⟨first, hsome, heq⟩ | ⟨hnone, heq⟩
  · rw [heq]
    by_cases hname : q.id = name
    · rw [← hname, hsome]
      rfl
    · rw [if_neg hname, Option.or_none]
  · rw [heq, lookup_eq_find?, append, List.find?_append, ← lookup_eq_find?]
    by_cases hname : q.id = name
    · simp [hname]
    · simp [hname]

/-! ### Many declarations -/

theorem declareAll_cons (t : SymbolTable) (file : String) (q : Question) (qs : List Question) :
    t.declareAll file (q :: qs) =
      (((t.declare file q).1.declareAll file qs).1,
        (t.declare file q).2 ++ ((t.declare file q).1.declareAll file qs).2) :=
  rfl

theorem nodup_declareAll (qs : List Question) :
    ∀ {t : SymbolTable}, (t.symbols.map Symbol.name).Nodup →
      ((t.declareAll file qs).1.symbols.map Symbol.name).Nodup := by
  induction qs with
  | nil => exact fun h ↦ h
  | cons q qs ih => exact fun h ↦ ih (nodup_declare h q)

/-- **The first declaration decides** what a name is bound to. -/
theorem signature_lookup_declareAll (qs : List Question) (name : String) :
    ∀ t : SymbolTable, ((t.declareAll file qs).1.lookup name).map Symbol.signature =
      ((t.lookup name).map Symbol.signature).or
        ((qs.find? fun q ↦ q.id == name).map Question.signature) := by
  induction qs with
  | nil =>
    intro t
    rw [List.find?_nil, Option.map_none, Option.or_none]
    rfl
  | cons q qs ih =>
    intro t
    have hdeclare : ((t.declare file q).1.lookup name).map Symbol.signature =
        ((t.lookup name).map Symbol.signature).or
          (if q.id = name then some q.signature else none) := by
      rw [lookup_declare, Option.map_or]
      split <;> rfl
    rw [declareAll_cons, ih, hdeclare, Option.or_assoc]
    by_cases hname : q.id = name
    · rw [if_pos hname, List.find?_cons_of_pos (by simpa using hname)]
      rfl
    · rw [if_neg hname, List.find?_cons_of_neg (by simpa using hname), Option.none_or]

/-- The type of a name is part of what it is bound to. -/
theorem type?_eq_map_signature (t : SymbolTable) (name : String) :
    t.type? name = ((t.lookup name).map Symbol.signature).map fun d ↦ d.2.1 := by
  rw [type?, Option.map_map]
  rfl

/-- **The first declaration decides the type.** -/
theorem type?_declareAll (qs : List Question) (name : String) (t : SymbolTable) :
    (t.declareAll file qs).1.type? name =
      (t.type? name).or ((qs.find? fun q ↦ q.id == name).map Question.type) := by
  rw [type?_eq_map_signature, signature_lookup_declareAll, Option.map_or, ← type?_eq_map_signature,
    Option.map_map]
  rfl

/-! ### Places in the table -/

/-- Every symbol has its place in the table as its index. -/
def Numbered (t : SymbolTable) : Prop :=
  ∀ (i : Nat) (s : Symbol), t.symbols[i]? = some s → s.index = i

/-- A symbol that is found stands at the place of its index. -/
theorem Numbered.getElem?_of_lookup (h : t.Numbered) {name : String} {s : Symbol}
    (hs : t.lookup name = some s) : t.symbols[s.index]? = some s := by
  obtain ⟨i, hi⟩ := List.mem_iff_getElem?.1 (mem_of_lookup hs)
  rwa [h i s hi]

/-- The place of a name is the index of its symbol. -/
theorem Numbered.index?_eq (h : t.Numbered) (name : String) :
    t.index? name = (t.lookup name).map Symbol.index := by
  rw [lookup]
  cases hindex : t.index? name with
  | none => rfl
  | some i =>
    have hi : i < t.symbols.length := by
      rw [index?_eq_idxOf?] at hindex
      simpa using (List.idxOf?_eq_some_iff.1 hindex).1
    rw [Option.bind_some, List.getElem?_eq_getElem hi, Option.map_some,
      h i _ (List.getElem?_eq_getElem hi)]

theorem Numbered.declare (h : t.Numbered) (q : Question) : (t.declare file q).1.Numbered := by
  rcases t.declare_cases file q with ⟨first, -, heq⟩ | ⟨-, heq⟩
  · rw [heq]
    exact h
  · rw [heq]
    intro i s hs
    replace hs : (t.symbols ++ [⟨q.id, q.type, t.size, q.pos⟩])[i]? = some s := hs
    rcases Nat.lt_or_ge i t.symbols.length with hi | hi
    · rw [List.getElem?_append_left hi] at hs
      exact h i s hs
    · -- the new symbol has the number of those before it
      rw [List.getElem?_append_right hi, List.getElem?_singleton] at hs
      obtain ⟨hi', hs⟩ := Option.ite_none_right_eq_some.1 hs
      obtain rfl := Option.some.inj hs
      exact (Nat.le_antisymm (Nat.sub_eq_zero_iff_le.1 hi') hi).symm

theorem Numbered.declareAll (qs : List Question) :
    ∀ {t : SymbolTable}, t.Numbered → (t.declareAll file qs).1.Numbered := by
  induction qs with
  | nil => exact fun h ↦ h
  | cons q qs ih => exact fun h ↦ ih (h.declare q)

/-- **Nothing is reported exactly when the ids are new and distinct.** -/
theorem declareAll_snd_eq_nil_iff (qs : List Question) :
    ∀ t : SymbolTable, (t.declareAll file qs).2 = [] ↔
      (qs.map Question.id).Nodup ∧ ∀ q ∈ qs, t.lookup q.id = none := by
  induction qs with
  | nil => exact fun t ↦ ⟨fun _ ↦ ⟨List.nodup_nil, by simp⟩, fun _ ↦ rfl⟩
  | cons q qs ih =>
    intro t
    rw [declareAll_cons, List.append_eq_nil_iff, ih, List.map_cons, List.nodup_cons,
      List.forall_mem_cons]
    have hrest : t.lookup q.id = none →
        ((∀ r ∈ qs, (t.declare file q).1.lookup r.id = none) ↔
          q.id ∉ qs.map Question.id ∧ ∀ r ∈ qs, t.lookup r.id = none) := by
      intro hnone
      simp only [lookup_declare, Option.or_eq_none_iff, List.mem_map, not_exists, not_and]
      constructor
      · intro h
        refine ⟨fun r hr hid ↦ ?_, fun r hr ↦ (h r hr).1⟩
        simpa [hid] using (h r hr).2
      · rintro ⟨hnew, hold⟩ r hr
        exact ⟨hold r hr, if_neg fun hid ↦ hnew r hr hid.symm⟩
    rcases t.declare_cases file q with ⟨first, hsome, heq⟩ | ⟨hnone, heq⟩
    · simp [heq, hsome]
    · rw [hrest hnone]
      simp only [heq, hnone, true_and]
      tauto

end SymbolTable

/-! ### The symbol table of a form -/

namespace Form

variable {f : Form}

theorem nodup_resolveSymbols (f : Form) :
    (f.resolveSymbols.1.symbols.map Symbol.name).Nodup :=
  SymbolTable.nodup_declareAll f.questions List.nodup_nil

theorem numbered_resolveSymbols (f : Form) : f.resolveSymbols.1.Numbered :=
  SymbolTable.Numbered.declareAll f.questions fun _ _ h ↦ absurd h (by simp)

/-- A name is bound to its first declaration in document order. -/
theorem signature_lookup_resolveSymbols (f : Form) (name : String) :
    (f.resolveSymbols.1.lookup name).map Symbol.signature =
      (f.questions.find? fun q ↦ q.id == name).map Question.signature :=
  (SymbolTable.signature_lookup_declareAll f.questions name {}).trans (Option.none_or ..)

theorem type?_resolveSymbols_eq (f : Form) (name : String) :
    f.resolveSymbols.1.type? name =
      (f.questions.find? fun q ↦ q.id == name).map Question.type :=
  (SymbolTable.type?_declareAll f.questions name {}).trans (Option.none_or ..)

/-- An id is declared at some place of a form. -/
def DeclaresId (f : Form) (id : String) : Prop :=
  ∃ path q, Statement.DeclaredAt f.statements path q ∧ q.id = id

/-- **A declared id** is bound, and its symbol is at the position of its first declaration. -/
theorem DeclaresId.exists_lookup {id : String} (h : f.DeclaresId id) :
    ∃ s first, f.resolveSymbols.1.lookup id = some s ∧
      (f.questions.find? fun q ↦ q.id == id) = some first ∧ s.pos = first.pos := by
  obtain ⟨q, hq, hid⟩ := List.mem_map.1 (Statement.mem_ids_iff.2 h)
  obtain ⟨first, hfirst⟩ : ∃ first, (f.questions.find? fun q ↦ q.id == id) = some first :=
    Option.isSome_iff_exists.1 (List.find?_isSome.2 ⟨q, hq, by simpa using hid⟩)
  have hbound := f.signature_lookup_resolveSymbols id
  rw [hfirst, Option.map_some, Option.map_eq_some_iff] at hbound
  obtain ⟨s, hs, hsignature⟩ := hbound
  exact ⟨s, first, hs, hfirst, congrArg (fun d ↦ d.2.2) hsignature⟩

/-- **What is bound is declared.** -/
theorem lookup_resolveSymbols_eq_none_iff {id : String} :
    f.resolveSymbols.1.lookup id = none ↔ ¬ f.DeclaresId id := by
  constructor
  · intro hnone hdeclares
    obtain ⟨s, -, hs, -⟩ := hdeclares.exists_lookup
    exact absurd (hs.symm.trans hnone) (by simp)
  · intro hnot
    have hbound := f.signature_lookup_resolveSymbols id
    have hfind : (f.questions.find? fun q ↦ q.id == id) = none := by
      refine List.find?_eq_none.2 fun q hq hid ↦ hnot (Statement.mem_ids_iff.1 ?_)
      exact List.mem_map.2 ⟨q, hq, by simpa using hid⟩
    rwa [hfind, Option.map_none, Option.map_eq_none_iff] at hbound

/-- **No declaration is reported exactly when the ids are distinct.** -/
theorem resolveSymbols_snd_eq_nil_iff :
    f.resolveSymbols.2 = [] ↔ (f.questions.map Question.id).Nodup := by
  refine (SymbolTable.declareAll_snd_eq_nil_iff f.questions {}).trans (and_iff_left ?_)
  exact fun q _ ↦ rfl

/-- With distinct ids, the type of a name is that of the one question with that id. -/
theorem type?_resolveSymbols_eq_some_iff (h : (f.questions.map Question.id).Nodup) {name : String}
    {type : ValueType} :
    f.resolveSymbols.1.type? name = some type ↔
      ∃ q ∈ f.questions, q.id = name ∧ q.type = type := by
  rw [type?_resolveSymbols_eq, Option.map_eq_some_iff]
  constructor
  · rintro ⟨q, hq, rfl⟩
    exact ⟨q, List.mem_of_find?_eq_some hq, by simpa using List.find?_some hq, rfl⟩
  · rintro ⟨q, hq, rfl, rfl⟩
    obtain ⟨r, hr⟩ : ∃ r, (f.questions.find? fun r ↦ r.id == q.id) = some r :=
      Option.isSome_iff_exists.1 (List.find?_isSome.2 ⟨q, hq, by simp⟩)
    refine ⟨r, hr, ?_⟩
    have hid : r.id = q.id := by simpa using List.find?_some hr
    rw [List.inj_on_of_nodup_map h (List.mem_of_find?_eq_some hr) hq hid]

end Form

end Questionnaire
