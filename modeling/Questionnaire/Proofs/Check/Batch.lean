import Mathlib.Algebra.GroupWithZero.Nat
import Mathlib.Data.List.Nodup
import Mathlib.Logic.Relation
import Questionnaire.Check
import Questionnaire.Toolkit.Standard

/-!
# Checking several documents at once

`Disk.checkedAll` says what comes of several documents. They are checked by **workers**, several at
a time, while whoever asked for the checks may cancel them at any moment. `Batch.Step` gives the
rules by which this goes on: a loop launches a worker for each document in order, waits for room
before each, and leaves off once the group of workers is told to end; each worker either sees that
the group has ended and fails, or puts a report into the slot of its document; workers take their
steps in any order. The group is told to end when the cancellation gets through to it, which takes
a step of its own, and when a worker fails.

`Batch.every_schedule` is what holds of every schedule: all reports in order, or none.
-/

namespace Questionnaire

/-- Several documents to check, with what and how. -/
structure Batch where
  disk : Disk
  kit : Toolkit
  passes : List LintPass
  options : CheckOptions
  paths : List String

namespace Batch

/-- How many workers may run at a time. One always may. -/
def limit (b : Batch) : Nat :=
  (max b.options.jobs.toInt 1).toNat

/-- The report on a document of the batch. -/
def report (b : Batch) (path : String) : Report :=
  b.disk.check b.kit b.passes b.options path

/-! ### States -/

/-- How far a worker is. -/
inductive Stage where
  | started
  | checking
  | leaving
  deriving DecidableEq

/-- A worker on a document, which is given by its path and its place. -/
structure Worker where
  task : String × Nat
  stage : Stage

/-- Where the loop is that launches the workers. -/
inductive Main where
  /-- It looks at what is left to do. -/
  | looping (rest : List (String × Nat))
  /-- It waits for room for a worker. -/
  | launching (task : String × Nat) (rest : List (String × Nat))
  /-- It waits for all workers. -/
  | waiting
  /-- It looks a last time whether the checks were cancelled. -/
  | confirming
  | returned (result : Except BatchError (List (Option Report)))

/-- A moment in the work on a batch. -/
structure State where
  main : Main
  /-- The tasks that workers were launched for. -/
  launched : List (String × Nat) := []
  /-- The workers that run. -/
  workers : List Worker := []
  /-- The reports so far, by place. -/
  slots : List (Option Report)
  /-- The error of the first worker that failed. -/
  failure : Option BatchError := none
  /-- Whether the group of workers is told to end. -/
  groupDone : Bool := false
  /-- Whether the checks were cancelled. -/
  cancelled : Bool := false

/-- The first moment. -/
def start (b : Batch) : State where
  main := .looping b.paths.zipIdx
  slots := List.replicate b.paths.length none

/-! ### Steps -/

/-- What can happen next. -/
inductive Step (b : Batch) : State → State → Prop
  | cancel {s : State} (running : s.cancelled = false) : Step b s { s with cancelled := true }
  | propagate {s : State} (asked : s.cancelled = true) (running : s.groupDone = false) :
      Step b s { s with groupDone := true }
  | stop {s : State} {task : String × Nat} {rest : List (String × Nat)}
      (left : s.main = .looping (task :: rest)) (done : s.groupDone = true) :
      Step b s { s with main := .waiting }
  | proceed {s : State} {task : String × Nat} {rest : List (String × Nat)}
      (left : s.main = .looping (task :: rest)) (running : s.groupDone = false) :
      Step b s { s with main := .launching task rest }
  | exhausted {s : State} (none_left : s.main = .looping []) : Step b s { s with main := .waiting }
  | launch {s : State} {task : String × Nat} {rest : List (String × Nat)}
      (due : s.main = .launching task rest) (room : s.workers.length < b.limit) :
      Step b s { s with
        main := .looping rest
        launched := s.launched ++ [task]
        workers := s.workers ++ [⟨task, .started⟩] }
  | fail {s : State} {task : String × Nat} {before after : List Worker}
      (runs : s.workers = before ++ ⟨task, .started⟩ :: after) (done : s.groupDone = true) :
      Step b s { s with
        workers := before ++ ⟨task, .leaving⟩ :: after
        failure := s.failure <|> some .cancelled
        groupDone := true }
  | begin {s : State} {task : String × Nat} {before after : List Worker}
      (runs : s.workers = before ++ ⟨task, .started⟩ :: after) (running : s.groupDone = false) :
      Step b s { s with workers := before ++ ⟨task, .checking⟩ :: after }
  | store {s : State} {task : String × Nat} {before after : List Worker}
      (runs : s.workers = before ++ ⟨task, .checking⟩ :: after) :
      Step b s { s with
        workers := before ++ ⟨task, .leaving⟩ :: after
        slots := s.slots.set task.2 (some (b.report task.1)) }
  | leave {s : State} {task : String × Nat} {before after : List Worker}
      (runs : s.workers = before ++ ⟨task, .leaving⟩ :: after) :
      Step b s { s with workers := before ++ after }
  | joinFailed {s : State} {e : BatchError} (waits : s.main = .waiting) (idle : s.workers = [])
      (failed : s.failure = some e) : Step b s { s with main := .returned (.error e) }
  | join {s : State} (waits : s.main = .waiting) (idle : s.workers = [])
      (sound : s.failure = none) : Step b s { s with main := .confirming }
  | refuse {s : State} (confirms : s.main = .confirming) (asked : s.cancelled = true) :
      Step b s { s with main := .returned (.error .cancelled) }
  | deliver {s : State} (confirms : s.main = .confirming) (running : s.cancelled = false) :
      Step b s { s with main := .returned (.ok s.slots) }

/-- The states that some schedule leads to. -/
inductive Reachable (b : Batch) : State → Prop
  | start : Reachable b b.start
  | step {s s' : State} (before : Reachable b s) (next : b.Step s s') : Reachable b s'

variable {b : Batch} {s s' : State}

/-! ### Cancellation -/

namespace Reachable

/-- The group is told to end only because the checks were cancelled. -/
theorem cancelled_of_groupDone (h : b.Reachable s) : s.groupDone = true → s.cancelled = true := by
  induction h with
  | start => exact fun hdone ↦ absurd hdone Bool.false_ne_true
  | step _ next ih =>
    cases next with
    | cancel => exact fun _ ↦ rfl
    | propagate asked => exact fun _ ↦ asked
    | fail _ done => exact fun _ ↦ ih done
    | _ => exact ih

/-- Workers fail only because the checks were cancelled. -/
theorem cancelled_of_failure (h : b.Reachable s) : s.failure ≠ none → s.cancelled = true := by
  induction h with
  | start => exact fun hfailed ↦ absurd rfl hfailed
  | step before next ih =>
    cases next with
    | cancel => exact fun _ ↦ rfl
    | fail _ done => exact fun _ ↦ before.cancelled_of_groupDone done
    | _ => exact ih

/-! ### Workers -/

theorem length_workers_le (h : b.Reachable s) : s.workers.length ≤ b.limit := by
  induction h with
  | start => exact Nat.zero_le _
  | step _ next ih =>
    cases next with
    | launch _ room =>
      rw [List.length_append]
      exact room
    | fail runs | begin runs | store runs =>
      rw [runs, List.length_append] at ih
      rw [List.length_append]
      exact ih
    | leave runs =>
      rw [runs, List.length_append, List.length_cons] at ih
      rw [List.length_append]
      omega
    | _ => exact ih

/-- Whoever works does so on a task that was launched. -/
theorem task_mem_launched (h : b.Reachable s) : ∀ w ∈ s.workers, w.task ∈ s.launched := by
  induction h with
  | start => exact fun w hw ↦ absurd hw List.not_mem_nil
  | step _ next ih =>
    cases next with
    | launch =>
      intro w hw
      rcases List.mem_append.1 hw with hw | hw
      · exact List.mem_append_left _ (ih w hw)
      · rw [List.mem_singleton.1 hw]
        exact List.mem_append_right _ (List.mem_singleton.2 rfl)
    | fail runs | begin runs | store runs =>
      rw [runs, List.forall_mem_append, List.forall_mem_cons] at ih
      rw [List.forall_mem_append, List.forall_mem_cons]
      exact ih
    | leave runs =>
      rw [runs, List.forall_mem_append, List.forall_mem_cons] at ih
      exact List.forall_mem_append.2 ⟨ih.1, ih.2.2⟩
    | _ => exact ih

end Reachable

/-! ### Tasks -/

/-- What the loop has left to launch. Once it is over, that is nothing unless the checks were
cancelled. -/
def Main.Leaves (cancelled : Bool) (rest : List (String × Nat)) : Main → Prop
  | looping ahead => rest = ahead
  | launching task ahead => rest = task :: ahead
  | waiting | confirming | returned _ => cancelled = false → rest = []

/-- A cancellation can only make the loop leave more. -/
theorem Main.Leaves.cancel {cancelled : Bool} {rest : List (String × Nat)} {m : Main}
    (h : m.Leaves cancelled rest) : m.Leaves true rest := by
  cases m with
  | looping | launching => exact h
  | waiting | confirming | returned => exact fun hfalse ↦ absurd hfalse.symm Bool.false_ne_true

namespace Reachable

/-- **Tasks are launched in order**: those launched so far and those left are all of them. -/
theorem exists_left (h : b.Reachable s) :
    ∃ rest, s.launched ++ rest = b.paths.zipIdx ∧ s.main.Leaves s.cancelled rest := by
  induction h with
  | start => exact ⟨_, List.nil_append _, rfl⟩
  | @step s _ before next ih =>
    obtain ⟨rest, hall, hleft⟩ := ih
    cases next with
    | cancel => exact ⟨rest, hall, hleft.cancel⟩
    | stop _ done =>
      have hasked := before.cancelled_of_groupDone done
      exact ⟨rest, hall, fun hrunning ↦ absurd (hrunning.symm.trans hasked) Bool.false_ne_true⟩
    | exhausted none_left =>
      rw [none_left] at hleft
      exact ⟨rest, hall, fun _ ↦ hleft⟩
    | proceed left =>
      rw [left] at hleft
      exact ⟨rest, hall, hleft⟩
    | launch due =>
      rw [due] at hleft
      rw [show rest = _ from hleft, List.append_cons] at hall
      exact ⟨_, hall, rfl⟩
    | joinFailed waits | join waits | refuse waits | deliver waits =>
      rw [waits] at hleft
      exact ⟨rest, hall, hleft⟩
    | _ => exact ⟨rest, hall, hleft⟩

theorem launched_isPrefix (h : b.Reachable s) : s.launched <+: b.paths.zipIdx := by
  obtain ⟨rest, hall, -⟩ := h.exists_left
  exact ⟨rest, hall⟩

/-- A place stands for one path. -/
theorem eq_of_mem_launched (h : b.Reachable s) {path path' : String} {i : Nat}
    (hp : (path, i) ∈ s.launched) (hp' : (path', i) ∈ s.launched) : path = path' := by
  have hget := List.mem_zipIdx_iff_getElem?.1 (h.launched_isPrefix.subset hp)
  have hget' := List.mem_zipIdx_iff_getElem?.1 (h.launched_isPrefix.subset hp')
  exact Option.some.inj (hget.symm.trans hget')

theorem nodup_launched (h : b.Reachable s) : (s.launched.map Prod.snd).Nodup := by
  obtain ⟨rest, hall, -⟩ := h.exists_left
  have hrange : b.paths.zipIdx.map Prod.snd = List.range b.paths.length := by
    rw [List.zipIdx_map_snd, List.range_eq_range']
  have hnodup : (b.paths.zipIdx.map Prod.snd).Nodup := hrange ▸ List.nodup_range
  rw [← hall, List.map_append] at hnodup
  exact (List.nodup_append.1 hnodup).1

/-! ### Reports -/

theorem length_slots (h : b.Reachable s) : s.slots.length = b.paths.length := by
  induction h with
  | start => exact List.length_replicate
  | step _ next ih =>
    cases next with
    | store => exact List.length_set.trans ih
    | _ => exact ih

end Reachable

/-- A task that has its report, that is being worked on, or that a failure has made needless. -/
def State.Settled (b : Batch) (s : State) (task : String × Nat) : Prop :=
  s.failure ≠ none ∨ s.slots[task.2]? = some (some (b.report task.1)) ∨
    ∃ w ∈ s.workers, w.task = task ∧ w.stage ≠ .leaving

/-- Whoever is not the one that moves stays where it is. -/
theorem mem_append_of_ne {before after : List Worker} {v w : Worker}
    (hv : v ∈ before ++ w :: after) (hne : v ≠ w) : v ∈ before ++ after := by
  rw [List.mem_append, List.mem_cons] at hv
  rw [List.mem_append]
  rcases hv with hv | hv | hv
  · exact Or.inl hv
  · exact absurd hv hne
  · exact Or.inr hv

theorem mem_append_cons_of_ne {before after : List Worker} {v w w' : Worker}
    (hv : v ∈ before ++ w :: after) (hne : v ≠ w) : v ∈ before ++ w' :: after :=
  ((List.Sublist.refl before).append (List.sublist_cons_self w' after)).subset
    (mem_append_of_ne hv hne)

/-- A step that keeps slots and failures, and in which nobody gives up work, settles no less. -/
theorem State.Settled.mono {task : String × Nat} (h : s.Settled b task)
    (hfailure : s'.failure = s.failure) (hslots : s'.slots = s.slots)
    (hworks : ∀ w ∈ s.workers, w.stage ≠ .leaving →
      ∃ w' ∈ s'.workers, w'.task = w.task ∧ w'.stage ≠ .leaving) : s'.Settled b task := by
  rw [State.Settled, hfailure, hslots]
  rcases h with hfailed | hstored | ⟨w, hw, rfl, hstage⟩
  · exact Or.inl hfailed
  · exact Or.inr (Or.inl hstored)
  · exact Or.inr (Or.inr (hworks w hw hstage))

namespace Reachable

/-- A report that is put into its slot settles its task, and no other. -/
theorem settled_store (h : b.Reachable s) {task done : String × Nat} {before after : List Worker}
    (hsettled : s.Settled b task) (ht : task ∈ s.launched)
    (runs : s.workers = before ++ ⟨done, .checking⟩ :: after) :
    State.Settled b { s with
      workers := before ++ ⟨done, .leaving⟩ :: after
      slots := s.slots.set done.2 (some (b.report done.1)) } task := by
  have hdone : done ∈ s.launched := h.task_mem_launched ⟨done, .checking⟩ (by simp [runs])
  -- no place is launched for two paths, so what is put into the slot of `task` is its own report
  by_cases hplace : done.2 = task.2
  · have hpath : done.1 = task.1 := h.eq_of_mem_launched hdone (hplace ▸ ht)
    have hlt : task.2 < s.slots.length := by
      rw [h.length_slots]
      exact (List.getElem?_eq_some_iff.1
        (List.mem_zipIdx_iff_getElem?.1 (h.launched_isPrefix.subset ht))).1
    refine Or.inr (Or.inl ?_)
    rw [← hpath, ← hplace]
    exact List.getElem?_set_self (hplace ▸ hlt)
  · rcases hsettled with hfailed | hstored | ⟨w, hw, rfl, hstage⟩
    · exact Or.inl hfailed
    · exact Or.inr (Or.inl ((List.getElem?_set_ne hplace).trans hstored))
    · have hother : w ≠ ⟨done, .checking⟩ := fun heq ↦ hplace (heq ▸ rfl)
      exact Or.inr (Or.inr ⟨w, mem_append_cons_of_ne (runs ▸ hw) hother, rfl, hstage⟩)

/-- **Nothing is lost**: every task that was launched is settled. -/
theorem settled (h : b.Reachable s) : ∀ task ∈ s.launched, s.Settled b task := by
  induction h with
  | start => exact fun task ht ↦ absurd ht List.not_mem_nil
  | @step s _ before next ih =>
    intro task ht
    cases next with
    | launch =>
      rcases List.mem_append.1 ht with ht | ht
      · exact (ih task ht).mono rfl rfl fun w hw hstage ↦
          ⟨w, List.mem_append_left _ hw, rfl, hstage⟩
      · refine Or.inr (Or.inr ⟨_, List.mem_append_right _ (List.mem_singleton.2 rfl), ?_⟩)
        exact ⟨(List.mem_singleton.1 ht).symm, Stage.noConfusion⟩
    | fail => exact Or.inl (by cases s.failure <;> simp)
    | @begin task' _ _ runs =>
      refine (ih task ht).mono rfl rfl fun w hw hstage ↦ ?_
      by_cases hmoves : w = ⟨task', .started⟩
      · exact ⟨⟨task', .checking⟩, by simp, by rw [hmoves], Stage.noConfusion⟩
      · exact ⟨w, mem_append_cons_of_ne (runs ▸ hw) hmoves, rfl, hstage⟩
    | store runs => exact before.settled_store (ih task ht) ht runs
    | leave runs =>
      refine (ih task ht).mono rfl rfl fun w hw hstage ↦ ?_
      exact ⟨w, mem_append_of_ne (runs ▸ hw) fun heq ↦ hstage (heq ▸ rfl), rfl, hstage⟩
    | _ => exact ih task ht

/-- At the last look all workers are gone and none has failed. -/
theorem idle_of_confirming (h : b.Reachable s) :
    s.main = .confirming → s.workers = [] ∧ s.failure = none := by
  induction h with
  | start => rintro ⟨⟩
  | step _ next ih =>
    intro hmain
    cases next with
    | join _ idle sound => exact ⟨idle, sound⟩
    | fail runs | begin runs | store runs | leave runs =>
      have hidle := (ih hmain).1
      rw [runs] at hidle
      exact absurd hidle (by simp)
    | cancel | propagate => exact ih hmain
    | _ => cases hmain

/-- Unless the checks were cancelled, all slots are then filled. -/
theorem slots_eq_of_confirming (h : b.Reachable s) (hmain : s.main = .confirming)
    (hrunning : s.cancelled = false) : s.slots = b.paths.map (some ∘ b.report) := by
  obtain ⟨hidle, hsound⟩ := h.idle_of_confirming hmain
  obtain ⟨rest, hall, hleft⟩ := h.exists_left
  rw [hmain] at hleft
  rw [hleft hrunning, List.append_nil] at hall
  refine List.ext_getElem? fun i ↦ ?_
  rw [List.getElem?_map]
  cases hpath : b.paths[i]? with
  | none =>
    rw [List.getElem?_eq_none_iff, ← h.length_slots] at hpath
    exact List.getElem?_eq_none hpath
  | some path =>
    have htask : (path, i) ∈ s.launched := hall ▸ List.mem_zipIdx_iff_getElem?.2 hpath
    rcases h.settled _ htask with hfailed | hstored | ⟨w, hw, -⟩
    · exact absurd hsound hfailed
    · exact hstored
    · exact absurd (hidle ▸ hw) List.not_mem_nil

/-- **What is returned** is all reports, or an error once the checks were cancelled. -/
theorem returned_cases (h : b.Reachable s) : ∀ result, s.main = .returned result →
    result = .ok (b.paths.map (some ∘ b.report)) ∨
      result = .error .cancelled ∧ s.cancelled = true := by
  -- a result is judged by the state before the step that returns it
  induction h with
  | start => rintro result ⟨⟩
  | step before next ih =>
    intro result hmain
    cases next with
    | @joinFailed e waits idle failed =>
      cases hmain
      have hasked := before.cancelled_of_failure (by simp [failed])
      cases e
      exact Or.inr ⟨rfl, hasked⟩
    | refuse confirms asked =>
      cases hmain
      exact Or.inr ⟨rfl, asked⟩
    | deliver confirms running =>
      cases hmain
      exact Or.inl (congrArg _ (before.slots_eq_of_confirming confirms running))
    | cancel =>
      rcases ih result hmain with hall | ⟨hnone, -⟩
      · exact Or.inl hall
      · exact Or.inr ⟨hnone, rfl⟩
    | propagate | fail | begin | store | leave => exact ih result hmain
    | _ => cases hmain

theorem of_run (h : b.Reachable s) (hrun : Relation.ReflTransGen b.Step s s') : b.Reachable s' := by
  induction hrun with
  | refl => exact h
  | tail _ next ih => exact ih.step next

end Reachable

/-- Once the checks are cancelled, no step brings the reports any more. -/
theorem Step.refuses (h : b.Step s s') (hasked : s.cancelled = true)
    (hnone : ∀ reports, s.main ≠ .returned (.ok reports)) :
    s'.cancelled = true ∧ ∀ reports, s'.main ≠ .returned (.ok reports) := by
  cases h with
  | cancel => exact ⟨rfl, hnone⟩
  | propagate | fail | begin | store | leave => exact ⟨hasked, hnone⟩
  | deliver _ running => exact absurd (running.symm.trans hasked) Bool.false_ne_true
  | stop | proceed | exhausted | launch | joinFailed | join | refuse =>
    exact ⟨hasked, fun reports hmain ↦ by cases hmain⟩

/-- Checks that are cancelled before they have a result have none but an error. -/
theorem Reachable.refused (h : b.Reachable s) (hasked : s.cancelled = true)
    (hpending : ∀ result, s.main ≠ .returned result) (hrun : Relation.ReflTransGen b.Step s s')
    {result : Except BatchError (List (Option Report))} (hmain : s'.main = .returned result) :
    result = .error .cancelled := by
  have hnone : s'.cancelled = true ∧ ∀ reports, s'.main ≠ .returned (.ok reports) := by
    clear hmain
    induction hrun with
    | refl => exact ⟨hasked, fun reports ↦ hpending _⟩
    | tail _ next ih => exact next.refuses ih.1 ih.2
  rcases (h.of_run hrun).returned_cases result hmain with hall | ⟨herror, -⟩
  · exact absurd (hall ▸ hmain) (hnone.2 _)
  · exact herror

/-! ### Progress -/

theorem limit_pos (b : Batch) : 0 < b.limit := by
  rw [limit]
  omega

/-- Until there is a result, something can happen without a cancellation. -/
theorem exists_step (b : Batch) (s : State) (hpending : ∀ result, s.main ≠ .returned result) :
    ∃ s', b.Step s s' ∧ s'.cancelled = s.cancelled := by
  cases hworkers : s.workers with
  | cons w rest =>
    -- the first worker can take its next step, whatever the loop does
    obtain ⟨task, stage⟩ := w
    have runs : s.workers = [] ++ ⟨task, stage⟩ :: rest := hworkers
    cases stage with
    | started =>
      cases hdone : s.groupDone with
      | true => exact ⟨_, .fail runs hdone, rfl⟩
      | false => exact ⟨_, .begin runs hdone, rfl⟩
    | checking => exact ⟨_, .store runs, rfl⟩
    | leaving => exact ⟨_, .leave runs, rfl⟩
  | nil =>
    cases hmain : s.main with
    | looping rest =>
      cases rest with
      | nil => exact ⟨_, .exhausted hmain, rfl⟩
      | cons task rest =>
        cases hdone : s.groupDone with
        | true => exact ⟨_, .stop hmain hdone, rfl⟩
        | false => exact ⟨_, .proceed hmain hdone, rfl⟩
    | launching task rest => exact ⟨_, .launch hmain (hworkers ▸ b.limit_pos), rfl⟩
    | waiting =>
      cases hfailure : s.failure with
      | some e => exact ⟨_, .joinFailed hmain hworkers hfailure, rfl⟩
      | none => exact ⟨_, .join hmain hworkers hfailure, rfl⟩
    | confirming =>
      cases hasked : s.cancelled with
      | true => exact ⟨_, .refuse hmain hasked, hasked⟩
      | false => exact ⟨_, .deliver hmain hasked, hasked⟩
    | returned result => exact absurd hmain (hpending result)

/-- How many steps a worker can take. -/
def Stage.weight : Stage → Nat
  | started => 3
  | checking => 2
  | leaving => 1

/-- How many steps the loop and the workers it will launch can take. -/
def Main.weight : Main → Nat
  | looping rest => 6 * rest.length + 3
  | launching _ rest => 6 * rest.length + 8
  | waiting => 2
  | confirming => 1
  | returned _ => 0

/-- A bound on how many steps can follow. -/
def State.weight (s : State) : Nat :=
  s.main.weight + (s.workers.map (·.stage.weight)).sum +
    (if s.groupDone then 0 else 1) + if s.cancelled then 0 else 1

theorem Step.weight_lt (h : b.Step s s') : s'.weight < s.weight := by
  unfold State.weight
  cases h with
  | cancel running | propagate _ running => simp [running]
  | proceed left =>
    simp [left, Main.weight]
    omega
  | launch due =>
    simp [due, Main.weight, Stage.weight]
    omega
  | stop at_ | exhausted at_ | joinFailed at_ | join at_ | refuse at_ | deliver at_ =>
    simp [at_, Main.weight]
  | fail runs done => simp [runs, done, Stage.weight]
  | begin runs | store runs | leave runs => simp [runs, Stage.weight]

/-- No schedule goes on for ever. -/
theorem wellFounded_step (b : Batch) : WellFounded fun s' s ↦ b.Step s s' :=
  Subrelation.wf (fun h ↦ h.weight_lt) (measure State.weight).wf

/-! ### Every schedule -/

/-- What holds of a batch at a moment. -/
structure Upholds (b : Batch) (s : State) : Prop where
  /-- Until there is a result, something happens even if nobody cancels. -/
  goesOn : (∀ result, s.main ≠ .returned result) → ∃ s', b.Step s s' ∧ s'.cancelled = s.cancelled
  /-- Workers are launched in the order of the documents. -/
  inOrder : s.launched <+: b.paths.zipIdx
  /-- No place is launched twice. -/
  once : (s.launched.map Prod.snd).Nodup
  limited : s.workers.length ≤ b.limit
  /-- Reports come all together and in order; no slot is left empty. -/
  complete : ∀ reports, s.main = .returned (.ok reports) →
    reports.length = b.paths.length ∧
      ∀ (i : Nat) (path : String), b.paths[i]? = some path →
        reports[i]? = some (some (b.disk.check b.kit b.passes b.options path))
  /-- A cancellation before the result allows no result but an error. -/
  refused : s.cancelled = true → (∀ result, s.main ≠ .returned result) →
    ∀ s', Relation.ReflTransGen b.Step s s' →
      ∀ result, s'.main = .returned result → result = .error .cancelled
  /-- The result is the one that `Disk.checkedAll` gives, for checks that were cancelled only if
  they were. -/
  agrees : ∀ result, s.main = .returned result →
    ∃ asked, (asked = true → s.cancelled = true) ∧
      result = (b.disk.checkedAll b.kit b.passes b.options asked b.paths).map
        (List.map fun c ↦ some c.report)

/-- **Every schedule brings all reports in order, or none.** None goes on for ever, and at each
moment of it the batch upholds what is asked of it. -/
theorem every_schedule (b : Batch) :
    (WellFounded fun s' s ↦ b.Step s s') ∧ ∀ s, b.Reachable s → b.Upholds s := by
  refine ⟨b.wellFounded_step, fun s h ↦ ?_⟩
  exact {
    goesOn := b.exists_step s
    inOrder := h.launched_isPrefix
    once := h.nodup_launched
    limited := h.length_workers_le
    complete := by
      intro reports hmain
      rcases h.returned_cases _ hmain with hall | ⟨herror, -⟩
      · cases hall
        refine ⟨List.length_map _, fun i path hpath ↦ ?_⟩
        rw [List.getElem?_map, hpath]
        rfl
      · cases herror
    refused := fun hasked hpending s' hrun result ↦ h.refused hasked hpending hrun
    agrees := by
      intro result hmain
      rcases h.returned_cases _ hmain with rfl | ⟨rfl, hasked⟩
      · refine ⟨false, fun hfalse ↦ absurd hfalse Bool.false_ne_true, ?_⟩
        rw [Disk.checkedAll, if_neg Bool.false_ne_true, Except.map, List.map_map]
        rfl
      · exact ⟨true, fun _ ↦ hasked, rfl⟩ }

/-- Two documents that are not there, and two workers. -/
def absentPair : Batch where
  disk := { entry := fun _ ↦ .refused .absent }
  kit := .standard
  passes := LintPass.builtin
  options := { jobs := 2 }
  paths := ["first.json", "second.json"]

/-- Two workers at once, of which the second is done first. -/
theorem every_schedule_absentPair :
    ∃ s, absentPair.Reachable s ∧ absentPair.Upholds s ∧
      s.main = .returned (.ok [some (absentPair.report "first.json"),
        some (absentPair.report "second.json")]) := by
  have launched : absentPair.Reachable _ :=
    .step (.step (.step (.step (.step .start (.proceed rfl rfl)) (.launch rfl (by decide)))
      (.proceed rfl rfl)) (.launch rfl (by decide))) (.exhausted rfl)
  have first := launched.step (@Step.begin _ _ _ [] [_] rfl rfl)
  have second := first.step (@Step.begin _ _ _ [_] [] rfl rfl)
  have stored := second.step (@Step.store _ _ _ [_] [] rfl)
  have left := stored.step (@Step.leave _ _ _ [_] [] rfl)
  have stored' := left.step (@Step.store _ _ _ [] [] rfl)
  have left' := stored'.step (@Step.leave _ _ _ [] [] rfl)
  have joined := left'.step (.join rfl rfl rfl)
  have delivered := joined.step (.deliver rfl rfl)
  exact ⟨_, delivered, absentPair.every_schedule.2 _ delivered, rfl⟩

end Batch

end Questionnaire
