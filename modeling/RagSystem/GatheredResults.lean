import Mathlib.Data.List.Forall2
import Mathlib.Data.List.Nodup
import Mathlib.Tactic.Common

/-!
# Results of fallible tasks

Tasks are done one after another, and their results listed in that order; or they
are done in a pool, and their results are kept by key as the tasks are complete.
Either fails where some task does. Where none does, what is kept under a key does
not depend on the order.
-/

namespace RagSystem.GatheredResults

set_option autoImplicit false

variable {T K V ε : Type}

section InOrder

variable {run : T → Except ε V} {tasks : List T} {results : List V}

/-- The results are those of the tasks, in their order. -/
theorem mapM_eq_ok_iff : tasks.mapM run = .ok results ↔ List.Forall₂ (fun task result => run task = .ok result) tasks results := by
  induction tasks generalizing results with
  | nil =>
    rw [List.mapM_nil, List.forall₂_nil_left_iff]
    exact ⟨fun h => (Except.ok.inj h).symm, fun h => h ▸ rfl⟩
  | cons task tasks ih =>
    rw [List.mapM_cons, List.forall₂_cons_left_iff]
    cases htask : run task with
    | error error =>
      refine iff_of_false (fun h => by cases h) ?_
      rintro ⟨result, later, hresult, -⟩
      cases hresult
    | ok result =>
      cases hlater : tasks.mapM run with
      | error error =>
        refine iff_of_false (fun h => by cases h) ?_
        rintro ⟨other, later, -, hrest, -⟩
        rw [ih.mpr hrest] at hlater
        cases hlater
      | ok later =>
        constructor
        · intro h
          cases h
          exact ⟨result, later, rfl, ih.mp hlater, rfl⟩
        · rintro ⟨other, rest, hother, hrest, rfl⟩
          cases hother
          have hsame := ih.mpr hrest
          rw [hlater] at hsame
          cases hsame
          rfl

/-- Each task has one. -/
theorem length_of_mapM (h : tasks.mapM run = .ok results) : results.length = tasks.length :=
  (mapM_eq_ok_iff.mp h).length_eq.symm

/-- There are results where no task fails. -/
theorem mapM_ok_iff : (∃ results, tasks.mapM run = .ok results) ↔ ∀ task ∈ tasks, ∃ result, run task = .ok result := by
  simp only [mapM_eq_ok_iff]
  induction tasks with
  | nil => simp
  | cons task tasks ih =>
    rw [List.forall_mem_cons, ← ih]
    simp only [List.forall₂_cons_left_iff]
    constructor
    · rintro ⟨_, result, later, hresult, hlater, rfl⟩
      exact ⟨⟨result, hresult⟩, later, hlater⟩
    · rintro ⟨⟨result, hresult⟩, later, hlater⟩
      exact ⟨result :: later, result, later, hresult, hlater, rfl⟩

/-- Each result is of a task. -/
theorem exists_task_of_mapM (h : tasks.mapM run = .ok results) {result : V} (hin : result ∈ results) :
    ∃ task ∈ tasks, run task = .ok result := by
  have hpairs := mapM_eq_ok_iff.mp h
  clear h
  induction hpairs with
  | nil => cases hin
  | @cons task first tasks results hfirst _ ih =>
    cases List.mem_cons.mp hin with
    | inl hsame => exact ⟨task, List.mem_cons_self, hsame ▸ hfirst⟩
    | inr hlater =>
      obtain ⟨other, hother, hresult⟩ := ih hlater
      exact ⟨other, List.mem_cons_of_mem _ hother, hresult⟩

/-- What each result has of its task is listed in the order of the tasks. -/
theorem map_of_mapM {α : Type} (of : T → α) (has : V → α) (h : tasks.mapM run = .ok results)
    (hhas : ∀ task result, run task = .ok result → has result = of task) : results.map has = tasks.map of := by
  have hpairs := mapM_eq_ok_iff.mp h
  clear h
  induction hpairs with
  | nil => rfl
  | @cons task first tasks results hfirst _ ih => rw [List.map_cons, List.map_cons, hhas task first hfirst, ih]

/-- Tasks that do the same have the same results. -/
theorem mapM_congr {other : T → Except ε V} (h : ∀ task ∈ tasks, run task = other task) : tasks.mapM run = tasks.mapM other := by
  induction tasks with
  | nil => rfl
  | cons task tasks ih =>
    obtain ⟨htask, hrest⟩ := List.forall_mem_cons.mp h
    rw [List.mapM_cons, List.mapM_cons, htask, ih hrest]

end InOrder

section AsCompleted

variable (key : T → K) (run : T → Except ε V)

/-- The results by key, of the tasks as they are complete. -/
def gather (gathered : List (K × V)) : List T → Except ε (List (K × V))
  | [] => .ok gathered
  | task :: tasks =>
    match run task with
    | .ok result => gather ((key task, result) :: gathered) tasks
    | .error error => .error error

variable {key run} {gathered results : List (K × V)} {tasks : List T}

/-- They are gathered where no task fails. -/
theorem gather_ok_iff : (∃ results, gather key run gathered tasks = .ok results) ↔
    ∀ task ∈ tasks, ∃ result, run task = .ok result := by
  induction tasks generalizing gathered with
  | nil => simp [gather]
  | cons task tasks ih =>
    rw [List.forall_mem_cons, gather]
    cases htask : run task with
    | error error => simp
    | ok result =>
      dsimp only
      rw [ih]
      exact (and_iff_right ⟨result, rfl⟩).symm

variable [BEq K] [LawfulBEq K]

/-- A key of none of them has what it had. -/
theorem lookup_gather_of_notMem (h : gather key run gathered tasks = .ok results) {k : K} (hk : k ∉ tasks.map key) :
    results.lookup k = gathered.lookup k := by
  induction tasks generalizing gathered with
  | nil =>
    cases h
    rfl
  | cons task tasks ih =>
    rw [List.map_cons, List.mem_cons, not_or] at hk
    rw [gather] at h
    cases htask : run task with
    | error error =>
      rw [htask] at h
      cases h
    | ok result =>
      rw [htask] at h
      have hne : (k == key task) = false := beq_eq_false_iff_ne.mpr hk.1
      rw [ih h hk.2, List.lookup_cons, hne]

/-- The key of each has its result, whatever the order is. -/
theorem lookup_gather (h : gather key run gathered tasks = .ok results) (hnodup : (tasks.map key).Nodup) {task : T}
    (hin : task ∈ tasks) : ∃ result, run task = .ok result ∧ results.lookup (key task) = some result := by
  induction tasks generalizing gathered with
  | nil => cases hin
  | cons first tasks ih =>
    rw [List.map_cons, List.nodup_cons] at hnodup
    rw [gather] at h
    cases hfirst : run first with
    | error error =>
      rw [hfirst] at h
      cases h
    | ok result =>
      rw [hfirst] at h
      cases List.mem_cons.mp hin with
      | inl hsame =>
        subst hsame
        refine ⟨result, hfirst, ?_⟩
        rw [lookup_gather_of_notMem h hnodup.1, List.lookup_cons, beq_self_eq_true]
      | inr hlater => exact ih h hnodup.2 hlater

end AsCompleted

end RagSystem.GatheredResults
