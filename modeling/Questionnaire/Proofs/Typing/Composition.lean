import Questionnaire.Proofs.Phases

/-!
# The type check of a form from that of its parts

The check of statements hands its findings on from one statement to the next, and the check of an
expression reads them again, by marks into the list. So what is found on a statement might depend on
what was found before it, by chance at the same position. It does not: findings in front of the list
stay in front of it (`checkStatements_findings_append`), whether the check comes to a result or
breaks down. The check of one list behind another is then the two results, one behind the other
(`checkStatements_nil_append`), and the check of a condition is put together from the checks of its
guard and of its block alone (`checkStatement_condition`).
-/

namespace Questionnaire

namespace Typing

variable {file : String} {table : SymbolTable}

/-! ### Statements one after another -/

/-- The check of two lists of statements hands the findings on the first over to the second. -/
theorem checkStatements_append (a b : List Statement) :
    ∀ findings, checkStatements file table findings (a ++ b) =
      (checkStatements file table findings a).bind fun after ↦
        checkStatements file table after b := by
  induction a with
  | nil =>
    intro findings
    rw [List.nil_append, checkStatements, Option.bind_some]
  | cons s rest ih =>
    intro findings
    rw [List.cons_append, checkStatements, checkStatements, Option.bind_eq_bind, Option.bind_assoc]
    exact congrArg _ (funext ih)

/-- **The check of statements does not depend on the findings before it.** -/
theorem checkStatements_findings_append (pre : List Finding) (l : List Statement) :
    ∀ findings, checkStatements file table (pre ++ findings) l =
      (checkStatements file table findings l).map (pre ++ ·) := by
  induction l using Statement.listInduction with
  | nil =>
    intro findings
    rw [checkStatements, checkStatements, Option.map_some]
  | question q rest ih =>
    intro findings
    rw [checkStatements, checkStatements, checkStatement, checkStatement]
    exact ih findings
  | calculated q value rest ih =>
    intro findings
    rw [checkStatements, checkStatements, checkStatement, checkStatement, check_append]
    cases check file table findings value with
    | none => rfl
    | some r =>
      show checkStatements file table (pre ++ r.2 ++ calculatedFindings file q r.1) rest = _
      rw [List.append_assoc]
      exact ih _
  | condition p guard body rest ihbody ihrest =>
    intro findings
    rw [checkStatements, checkStatements, checkStatement, checkStatement, check_append]
    cases check file table findings guard with
    | none => rfl
    | some r =>
      show (checkStatements file table (pre ++ r.2 ++ guardFindings file p r.1) body).bind _ =
        ((checkStatements file table (r.2 ++ guardFindings file p r.1) body).bind _).map _
      rw [List.append_assoc, ihbody]
      cases checkStatements file table (r.2 ++ guardFindings file p r.1) body with
      | none => rfl
      | some after => exact ihrest after

/-- What statements add is what is found on them alone. -/
theorem checkStatements_eq_map (l : List Statement) (findings : List Finding) :
    checkStatements file table findings l =
      (checkStatements file table [] l).map (findings ++ ·) := by
  have happend : checkStatements file table (findings ++ []) l = _ :=
    checkStatements_findings_append findings l []
  rwa [List.append_nil] at happend

/-- **The check of two lists of statements** is that of the first, and behind it that of the
second. -/
theorem checkStatements_nil_append (a b : List Statement) :
    checkStatements file table [] (a ++ b) =
      (checkStatements file table [] a).bind fun here ↦
        (checkStatements file table [] b).map (here ++ ·) := by
  rw [checkStatements_append]
  exact congrArg _ (funext fun here ↦ checkStatements_eq_map b here)

/-! ### Conditions -/

/-- **The check of a condition** adds what is found on its guard alone, then what is to be said of
the type of the guard, then what is found on its block alone. -/
theorem checkStatement_condition (p : Position) (guard : Expr) (body : List Statement)
    (findings : List Finding) :
    checkStatement file table findings (.condition p guard body) =
      (check file table [] guard).bind fun r ↦
        (checkStatements file table [] body).map fun inner ↦
          findings ++ (r.2 ++ guardFindings file p r.1 ++ inner) := by
  have happend : check file table (findings ++ []) guard = _ := check_append findings guard []
  rw [List.append_nil] at happend
  rw [checkStatement, happend]
  cases check file table [] guard with
  | none => rfl
  | some r =>
    show checkStatements file table (findings ++ r.2 ++ guardFindings file p r.1) body = _
    rw [checkStatements_eq_map, Option.bind_some]
    simp only [List.append_assoc]

/-- At most one finding is made on the type of a guard, and none on a Boolean one. -/
theorem guardFindings_cases (p : Position) (t : ValueType) :
    (t = .boolean ∧ guardFindings file p t = []) ∨
      (t ≠ .boolean ∧
        guardFindings file p t = [.invalidConditionType (.ofPosition file p) t.name]) := by
  rw [guardFindings]
  split
  · exact Or.inl ⟨‹_›, rfl⟩
  · exact Or.inr ⟨‹_›, rfl⟩

/-! ### All parts together -/

/-- **The type check is made of the checks of its parts.** For any symbol table, and where no
operator lacks an operand:

* the check of an expression gives its type and adds the same findings whatever was found before;
* the check of a form whose statements come in two parts finds what it finds on the first part, and
  then what it finds on the second;
* the check of a condition adds what is found on its guard, then one finding if the guard is not
  Boolean and none if it is, then what is found on its block, whatever was found before. -/
theorem check_compositional (table : SymbolTable) :
    (∀ (file : String) (e : Expr), e.OperandsPresent →
      ∃ t new, check file table [] e = some (t, new) ∧
        ∀ findings, check file table findings e = some (t, findings ++ new)) ∧
    (∀ (f : Form) (a b : List Statement), f.statements = a ++ b → f.OperandsPresent →
      ∃ here later, Form.checkTypes { f with statements := a } table = some here ∧
        Form.checkTypes { f with statements := b } table = some later ∧
        f.checkTypes table = some (here ++ later)) ∧
    ∀ (file : String) (p : Position) (guard : Expr) (body : List Statement),
      guard.OperandsPresent → (∀ s ∈ Statement.nestedAll body, s.OperandsPresent) →
      ∃ t own bad inner, check file table [] guard = some (t, own) ∧
        checkStatements file table [] body = some inner ∧
        (t = .boolean ∧ bad = [] ∨
          t ≠ .boolean ∧ bad = [.invalidConditionType (.ofPosition file p) t.name]) ∧
        ∀ findings, checkStatement file table findings (.condition p guard body) =
          some (findings ++ (own ++ bad ++ inner)) := by
  refine ⟨fun file e he ↦ ?_, fun f a b hf hpresent ↦ ?_, fun file p guard body hguard hbody ↦ ?_⟩
  · have hcheck : check file table [] e = _ := check_eq he []
    exact ⟨_, _, hcheck, check_of_check_nil hcheck⟩
  · obtain ⟨findings, hfindings⟩ : ∃ findings, f.checkTypes table = some findings :=
      ⟨_, Form.checkTypes_eq table hpresent⟩
    -- a part without a result would leave the whole without one
    have hparts := hfindings
    rw [Form.checkTypes, hf, checkStatements_nil_append, Option.bind_eq_some_iff] at hparts
    obtain ⟨here, hhere, hrest⟩ := hparts
    obtain ⟨later, hlater, rfl⟩ := Option.map_eq_some_iff.1 hrest
    exact ⟨here, later, hhere, hlater, hfindings⟩
  · have hcheck : check file table [] guard = _ := check_eq hguard []
    have hinner : checkStatements file table [] body = _ := checkStatements_eq hbody []
    refine ⟨_, _, guardFindings file p (outcome file table guard).1, _, hcheck, hinner,
      guardFindings_cases p _, fun findings ↦ ?_⟩
    rw [checkStatement_condition, hcheck, Option.bind_some, hinner, Option.map_some]

/-- A number negated twice as if it were a truth value. -/
def negatedTwice : Expr :=
  .unary ⟨1, 4⟩ .not (.unary ⟨1, 5⟩ .not (.literal ⟨1, 6⟩ (.integer 1)))

/-- What is found on it: the inner negation, and that the outer one has nothing to negate. -/
def negatedTwiceFindings : List Finding :=
  [.typeNotAllowed ⟨"echo.json", "", 1, 5⟩ "Integer" "Not",
    .undefinedReference ⟨"echo.json", "", 1, 5⟩ "!1"]

/-- The block of a condition that has the same expression, at the same positions, as its guard. -/
def echoedBody : List Statement :=
  [.calculated { id := "same", type := .boolean, pos := ⟨1, 1⟩ } negatedTwice]

/-- What is found on the condition. -/
def echoedFindings : List Finding :=
  negatedTwiceFindings ++ [.invalidConditionType ⟨"echo.json", "", 1, 1⟩ "Undefined"] ++
    negatedTwiceFindings

/-- The condition twice over. -/
def echoedForm : Form where
  file := "echo.json"
  statements := [.condition ⟨1, 1⟩ negatedTwice echoedBody] ++
    [.condition ⟨1, 1⟩ negatedTwice echoedBody]

/-- What is found on the guard is found again on the block, and all of it again on the second
condition, although the same was found at the same positions before. -/
theorem check_compositional_echoed :
    echoedForm.OperandsPresent ∧
      (∀ findings, check "echo.json" {} findings negatedTwice =
        some (.undefined, findings ++ negatedTwiceFindings)) ∧
      echoedForm.checkTypes {} = some (echoedFindings ++ echoedFindings) ∧
      ∀ findings, checkStatement "echo.json" {} findings
        (.condition ⟨1, 1⟩ negatedTwice echoedBody) = some (findings ++ echoedFindings) := by
  obtain ⟨hexpr, hform, hcondition⟩ := check_compositional {}
  have hpresent : echoedForm.OperandsPresent := by decide
  have hown : check "echo.json" {} [] negatedTwice = some (.undefined, negatedTwiceFindings) := by
    decide
  refine ⟨hpresent, ?_, ?_, ?_⟩
  · obtain ⟨t, own, hcheck, hadds⟩ := hexpr "echo.json" negatedTwice (by decide)
    obtain ⟨rfl, rfl⟩ := Prod.mk.inj (Option.some.inj (hown.symm.trans hcheck))
    exact hadds
  · obtain ⟨here, later, hhere, hlater, hwhole⟩ := hform echoedForm _ _ rfl hpresent
    have hpart : Form.checkTypes { echoedForm with
        statements := [.condition ⟨1, 1⟩ negatedTwice echoedBody] } {} = some echoedFindings := by
      decide
    obtain rfl := Option.some.inj (hpart.symm.trans hhere)
    obtain rfl := Option.some.inj (hpart.symm.trans hlater)
    exact hwhole
  · obtain ⟨t, own, bad, inner, hguard, hbody, hbad, hadds⟩ :=
      hcondition "echo.json" ⟨1, 1⟩ negatedTwice echoedBody (by decide) (by decide)
    have hinner : checkStatements "echo.json" {} [] echoedBody = some negatedTwiceFindings := by
      decide
    obtain ⟨rfl, rfl⟩ := Prod.mk.inj (Option.some.inj (hown.symm.trans hguard))
    obtain rfl := Option.some.inj (hinner.symm.trans hbody)
    obtain ⟨hboolean, -⟩ | ⟨-, rfl⟩ := hbad
    · exact absurd hboolean (by decide)
    · exact hadds

end Typing

end Questionnaire
