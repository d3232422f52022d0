import Mathlib.Data.List.Nodup
import Mathlib.Data.List.Perm.Subperm
import Mathlib.Data.List.Range
import Mathlib.Logic.Relation
import Mathlib.Order.Lattice

/-!
# Groups of tasks under a semaphore

So many tasks are started together and awaited together; a semaphore lets a few
run at a time, in the order in which they came. The one who waits for the group
is resumed when all tasks are over, or after a first one failed: the others then
go on, but nobody waits for them. It is not resumed before every task that may
begin has begun.
-/

namespace RagSystem.TaskGroups

set_option autoImplicit false

/-- A group: the tasks before the semaphore, the tasks behind it, the tasks that have begun, in order, and whether one
failed. -/
structure Group where
  /-- Before the semaphore. -/
  waiting : List ℕ
  /-- Behind it, not over yet. -/
  running : List ℕ
  /-- Begun so far. -/
  begun : List ℕ
  /-- Whether a task raised. -/
  failed : Bool

/-- So many tasks, none of which has begun. -/
def Group.start (n : ℕ) : Group := ⟨List.range n, [], [], false⟩

/-- A step of a task. -/
inductive Step (limit : ℕ) (fails : ℕ → Bool) : Group → Group → Prop where
  /-- The first that waits begins. -/
  | begin {g : Group} {i : ℕ} {rest : List ℕ} (hfirst : g.waiting = i :: rest) (hroom : g.running.length < limit) :
      Step limit fails g ⟨rest, g.running ++ [i], g.begun ++ [i], g.failed⟩
  /-- One that runs is over. -/
  | finish {g : Group} {i : ℕ} (hruns : i ∈ g.running) :
      Step limit fails g ⟨g.waiting, g.running.erase i, g.begun, g.failed || fails i⟩

/-- The steps of a group, from its start. -/
def Reaches (limit : ℕ) (fails : ℕ → Bool) (n : ℕ) (g : Group) : Prop :=
  Relation.ReflTransGen (Step limit fails) (Group.start n) g

/-- The one who waits may be resumed. -/
def MayLeave (limit : ℕ) (g : Group) : Prop :=
  (g.failed = true ∨ g.waiting = [] ∧ g.running = []) ∧ (g.waiting = [] ∨ g.running.length = limit)

section Order

variable {limit n : ℕ} {fails : ℕ → Bool} {g g' : Group}

/-- What holds of a group: tasks begin in order, no more run than may, the last to begin runs where as many run as may,
and who failed has begun and runs no more. -/
structure Ordered (limit : ℕ) (fails : ℕ → Bool) (n : ℕ) (g : Group) : Prop where
  /-- Those that begin are the first. -/
  split : g.begun ++ g.waiting = List.range n
  /-- Those that run have begun. -/
  within : ∀ i ∈ g.running, i < g.begun.length
  /-- Each runs once. -/
  distinct : g.running.Nodup
  /-- The semaphore. -/
  bounded : g.running.length ≤ limit
  /-- The last to begin. -/
  latest : g.running.length = limit → limit ≠ 0 → g.begun.length - 1 ∈ g.running
  /-- Who failed. -/
  failure : g.failed = true → ∃ i < g.begun.length, i ∉ g.running ∧ fails i = true

/-- The tasks that have begun, by their number. -/
theorem Ordered.begun_eq (h : Ordered limit fails n g) : g.begun = List.range g.begun.length := by
  have htake : g.begun = (List.range n).take g.begun.length := by rw [← h.split, List.take_left]
  have hle : g.begun.length ≤ n := by
    have hlength := congrArg List.length h.split
    rw [List.length_append, List.length_range] at hlength
    omega
  rw [htake, List.take_range, Nat.min_eq_left hle, List.length_range]

theorem Ordered.begun_le (h : Ordered limit fails n g) : g.begun.length ≤ n := by
  have hlength := congrArg List.length h.split
  rw [List.length_append, List.length_range] at hlength
  omega

/-- The next to begin. -/
theorem Ordered.next (h : Ordered limit fails n g) {i : ℕ} {rest : List ℕ} (hfirst : g.waiting = i :: rest) :
    i = g.begun.length := by
  have hsplit := h.split
  rw [hfirst] at hsplit
  have hread : (List.range n)[g.begun.length]? = some i := by
    rw [← hsplit, List.getElem?_append_right (Nat.le_refl _), Nat.sub_self]
    rfl
  have hrange := List.getElem?_eq_some_iff.mp hread
  obtain ⟨hlt, hvalue⟩ := hrange
  rw [List.getElem_range] at hvalue
  exact hvalue.symm

theorem ordered_start (limit : ℕ) (fails : ℕ → Bool) (n : ℕ) : Ordered limit fails n (Group.start n) where
  split := rfl
  within := fun _ hi => absurd hi List.not_mem_nil
  distinct := List.nodup_nil
  bounded := Nat.zero_le _
  latest := fun hzero hne => absurd hzero.symm hne
  failure := fun h => absurd h Bool.false_ne_true

/-- A step keeps it. -/
theorem Ordered.step (h : Ordered limit fails n g) (hstep : Step limit fails g g') : Ordered limit fails n g' := by
  cases hstep with
  | @begin i rest hfirst hroom =>
    have hnext := h.next hfirst
    refine ⟨?_, ?_, ?_, ?_, ?_, ?_⟩
    · have hsplit := h.split
      rw [hfirst] at hsplit
      simpa using hsplit
    · intro j hj
      rw [List.length_append, List.length_singleton]
      rcases List.mem_append.mp hj with hold | hnew
      · have hlt := h.within j hold
        omega
      · rw [List.mem_singleton] at hnew
        omega
    · rw [List.nodup_append]
      refine ⟨h.distinct, List.nodup_singleton i, ?_⟩
      intro j hj k hk hsame
      rw [List.mem_singleton] at hk
      have hlt := h.within j hj
      omega
    · rw [List.length_append, List.length_singleton]
      omega
    · intro _ _
      rw [List.length_append, List.length_singleton, Nat.add_sub_cancel, ← hnext]
      exact List.mem_append_right _ (List.mem_singleton.mpr rfl)
    · intro hfailed
      obtain ⟨j, hj, hover, hfails⟩ := h.failure hfailed
      refine ⟨j, ?_, ?_, hfails⟩
      · rw [List.length_append, List.length_singleton]
        omega
      · rw [List.mem_append, List.mem_singleton, not_or]
        exact ⟨hover, by omega⟩
  | @finish i hruns =>
    have hshorter : (g.running.erase i).length + 1 = g.running.length := by
      have hpos := List.length_pos_of_mem hruns
      rw [List.length_erase_of_mem hruns]
      omega
    refine ⟨h.split, ?_, h.distinct.erase i, ?_, ?_, ?_⟩
    · exact fun j hj => h.within j (List.mem_of_mem_erase hj)
    · have hle := h.bounded
      dsimp only
      omega
    · intro hfull _
      have hle := h.bounded
      dsimp only at hfull
      omega
    · intro hfailed
      rcases Bool.or_eq_true_iff.mp hfailed with hbefore | hnow
      · obtain ⟨j, hj, hover, hfails⟩ := h.failure hbefore
        exact ⟨j, hj, fun hin => hover (List.mem_of_mem_erase hin), hfails⟩
      · exact ⟨i, h.within i hruns, h.distinct.not_mem_erase, hnow⟩

/-- Every group that is reached is in order. -/
theorem Reaches.ordered (h : Reaches limit fails n g) : Ordered limit fails n g := by
  induction h with
  | refl => exact ordered_start limit fails n
  | tail _ hstep ih => exact ih.step hstep

/-- Where the one who waits is resumed, all tasks have begun, if none that fails leaves too many behind it. -/
theorem Ordered.all_begun (h : Ordered limit fails n g) (hleave : MayLeave limit g) (hlimit : limit ≠ 0)
    (hfew : ∀ i < n, fails i = true → n ≤ max (i + 1) limit + 1) : g.begun = List.range n := by
  have hall : g.waiting = [] → g.begun = List.range n := by
    intro hnone
    have hsplit := h.split
    rwa [hnone, List.append_nil] at hsplit
  rcases hleave with ⟨hfailed | ⟨hnone, -⟩, hnone | hfull⟩
  · exact hall hnone
  · obtain ⟨i, hi, hover, hfails⟩ := h.failure hfailed
    have hle := h.begun_le
    have hlatest := h.latest hfull hlimit
    -- the last to begin runs, so that it is another than the one that failed
    have hother : i ≠ g.begun.length - 1 := fun hsame => hover (hsame ▸ hlatest)
    have hmany : limit + 1 ≤ g.begun.length := by
      have hdistinct : (i :: g.running).Nodup := List.nodup_cons.mpr ⟨hover, h.distinct⟩
      have hsubset : i :: g.running ⊆ List.range g.begun.length := by
        intro j hj
        rw [List.mem_range]
        rcases List.mem_cons.mp hj with rfl | hin
        · exact hi
        · exact h.within j hin
      have hlength := (List.Nodup.subperm hdistinct hsubset).length_le
      rwa [List.length_cons, List.length_range, hfull] at hlength
    have hbound := hfew i (Nat.lt_of_lt_of_le hi hle) hfails
    have heq : g.begun.length = n := by omega
    rw [h.begun_eq, heq]
  · exact hall hnone
  · exact hall hnone

end Order

section Schedules

variable {limit n : ℕ} {fails : ℕ → Bool} {g : Group}

/-- The first that waits begins. -/
theorem Reaches.begin (h : Reaches limit fails n g) {i : ℕ} {rest : List ℕ} (hfirst : g.waiting = i :: rest)
    (hroom : g.running.length < limit) :
    Reaches limit fails n ⟨rest, g.running ++ [i], g.begun ++ [i], g.failed⟩ :=
  h.tail (.begin hfirst hroom)

/-- One that runs is over. -/
theorem Reaches.finish (h : Reaches limit fails n g) {i : ℕ} (hruns : i ∈ g.running) :
    Reaches limit fails n ⟨g.waiting, g.running.erase i, g.begun, g.failed || fails i⟩ :=
  h.tail (.finish hruns)

/-- As many tasks as may run. -/
theorem reaches_filled {m : ℕ} (hm : m ≤ limit) (hn : m ≤ n) :
    Reaches limit fails n ⟨List.range' m (n - m), List.range m, List.range m, false⟩ := by
  induction m with
  | zero =>
    have hstart : Group.start n = ⟨List.range' 0 (n - 0), List.range 0, List.range 0, false⟩ := by
      rw [Group.start, List.range_eq_range', Nat.sub_zero]
      rfl
    rw [← hstart]
    exact Relation.ReflTransGen.refl
  | succ m ih =>
    have hreached := ih (by omega) (by omega)
    have hfirst : List.range' m (n - m) = m :: List.range' (m + 1) (n - (m + 1)) := by
      have hpos : n - m = n - (m + 1) + 1 := by omega
      rw [hpos, List.range'_succ]
    have hbegun := hreached.begin hfirst (by rw [List.length_range]; omega)
    simpa [List.range_succ] using hbegun

/-- Every task in its turn, where the one that began first is over first. -/
theorem reaches_turn {m : ℕ} (hm : m + limit ≤ n) (hlimit : limit ≠ 0) :
    ∃ failed, Reaches limit fails n
      ⟨List.range' (m + limit) (n - (m + limit)), List.range' m limit, List.range (m + limit), failed⟩ := by
  induction m with
  | zero =>
    have hfilled : Reaches limit fails n ⟨List.range' limit (n - limit), List.range limit, List.range limit, false⟩ :=
      reaches_filled (Nat.le_refl limit) (by omega)
    refine ⟨false, ?_⟩
    rw [Nat.zero_add, ← List.range_eq_range']
    exact hfilled
  | succ m ih =>
    obtain ⟨failed, hreached⟩ := ih (by omega)
    obtain ⟨fewer, rfl⟩ : ∃ fewer, limit = fewer + 1 := ⟨limit - 1, by omega⟩
    have hruns : List.range' m (fewer + 1) = m :: List.range' (m + 1) fewer := List.range'_succ
    have hover := hreached.finish (i := m) (by rw [hruns]; exact List.mem_cons_self)
    have hfirst : List.range' (m + (fewer + 1)) (n - (m + (fewer + 1))) =
        (m + (fewer + 1)) :: List.range' (m + 1 + (fewer + 1)) (n - (m + 1 + (fewer + 1))) := by
      have hpos : n - (m + (fewer + 1)) = n - (m + 1 + (fewer + 1)) + 1 := by omega
      rw [hpos, List.range'_succ]
      congr 2
      omega
    rw [hruns, List.erase_cons_head] at hover
    have hbegun := hover.begin hfirst (by rw [List.length_range']; omega)
    refine ⟨failed || fails m, ?_⟩
    have hlast : List.range' (m + 1) fewer ++ [m + (fewer + 1)] = List.range' (m + 1) (fewer + 1) := by
      rw [List.range'_concat]
      congr 2
      omega
    have hrange : List.range (m + (fewer + 1)) ++ [m + (fewer + 1)] = List.range (m + 1 + (fewer + 1)) := by
      rw [← List.range_succ]
      congr 1
      omega
    dsimp only at hbegun
    rw [hlast, hrange] at hbegun
    exact hbegun

/-- A task that fails and leaves too many behind it: the one who waits is resumed before all have begun. -/
theorem exists_left_behind {i : ℕ} (hi : fails i = true) (hlimit : limit ≠ 0) (hmany : max (i + 1) limit + 1 < n) :
    ∃ g, Reaches limit fails n g ∧ MayLeave limit g ∧ g.begun.length < n := by
  have hturn : max (i + 1) limit - limit + limit = max (i + 1) limit := by omega
  obtain ⟨failed, hreached⟩ : ∃ failed, Reaches limit fails n ⟨List.range' (max (i + 1) limit - limit + limit)
      (n - (max (i + 1) limit - limit + limit)), List.range' (max (i + 1) limit - limit) limit,
        List.range (max (i + 1) limit - limit + limit), failed⟩ := reaches_turn (by omega) hlimit
  rw [hturn] at hreached
  have hruns : i ∈ List.range' (max (i + 1) limit - limit) limit := by
    rw [List.mem_range'_1]
    omega
  have hover := hreached.finish hruns
  have hlength : ((List.range' (max (i + 1) limit - limit) limit).erase i).length + 1 = limit := by
    rw [List.length_erase_of_mem hruns, List.length_range']
    omega
  have hfirst : List.range' (max (i + 1) limit) (n - max (i + 1) limit) =
      max (i + 1) limit :: List.range' (max (i + 1) limit + 1) (n - max (i + 1) limit - 1) := by
    have hpos : n - max (i + 1) limit = n - max (i + 1) limit - 1 + 1 := by omega
    rw [hpos, List.range'_succ, Nat.add_sub_cancel]
  have hbegun := hover.begin hfirst (by dsimp only; omega)
  refine ⟨_, hbegun, ⟨Or.inl ?_, Or.inr ?_⟩, ?_⟩
  · rw [hi, Bool.or_true]
  · rw [List.length_append, List.length_singleton]
    exact hlength
  · rw [List.length_append, List.length_singleton, List.length_range]
    exact hmany

/-- From wherever a group is, it can come to the one who waits. -/
theorem exists_leave (h : Reaches limit fails n g) (hlimit : limit ≠ 0) :
    ∃ g', Reaches limit fails n g' ∧ MayLeave limit g' := by
  induction hsize : 2 * g.waiting.length + g.running.length using Nat.strong_induction_on generalizing g with
  | _ size ih =>
    subst hsize
    cases hruns : g.running with
    | cons i rest =>
      have hin : i ∈ g.running := hruns ▸ List.mem_cons_self
      have hlength : (g.running.erase i).length < g.running.length := by
        rw [List.length_erase_of_mem hin]
        have hpos := List.length_pos_of_mem hin
        omega
      exact ih _ (by dsimp only; omega) (h.finish hin) rfl
    | nil =>
      cases hfirst : g.waiting with
      | nil => exact ⟨g, h, Or.inr ⟨hfirst, hruns⟩, Or.inl hfirst⟩
      | cons i rest =>
        have hroom : g.running.length < limit := by
          rw [hruns, List.length_nil]
          omega
        refine ih _ ?_ (h.begin hfirst hroom) rfl
        rw [hfirst, hruns]
        simp only [List.nil_append, List.length_cons, List.length_nil]
        omega

/-- The one who waits is resumed after all tasks have begun, in every order of steps, exactly where no task that fails
leaves more behind it than the one that begins next. -/
theorem all_begun_iff (hlimit : limit ≠ 0) :
    (∀ g, Reaches limit fails n g → MayLeave limit g → g.begun = List.range n) ↔
      ∀ i < n, fails i = true → n ≤ max (i + 1) limit + 1 := by
  constructor
  · intro h i _ hfails
    by_contra hmany
    obtain ⟨g, hreached, hleave, hfewer⟩ := exists_left_behind hfails hlimit (Nat.lt_of_not_le hmany)
    rw [h g hreached hleave, List.length_range] at hfewer
    omega
  · intro h g hreached hleave
    exact hreached.ordered.all_begun hleave hlimit h

end Schedules

end RagSystem.TaskGroups
