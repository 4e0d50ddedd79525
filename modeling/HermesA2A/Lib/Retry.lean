import Mathlib.Data.List.Basic
import Mathlib.Data.List.Range
import Mathlib.Order.Lattice

/-!
# Attempts and pauses

An action is tried until it succeeds, a limited number of times, with a pause after each failure
but the last.  A pause can fail as well, and then the run is over.

* `run_events`: the whole run.  There are as many attempts as up to the first one that succeeds
  or whose pause fails, or as many as allowed, and a pause between any two.
* `made_run`, `mem_made_run`: the attempts that come to be made.
* `succeeded_iff`, `stopped_iff`, `failed_of_exhausted`: how a run ends.
-/

namespace Retry

/-- How a run ends. -/
inductive Ending (ε : Type)
  | succeeded
  | exhausted
  | stopped (e : ε)

/-- What is done in a run. -/
inductive Event (δ : Type)
  | attempt (i : ℕ)
  | pause (d : δ)

/-- The number of an attempt. -/
def Event.index? {δ : Type} : Event δ → Option ℕ
  | attempt i => some i
  | pause _ => none

/-- A run: what is done, and how it ends. -/
structure Run (δ ε : Type) where
  events : List (Event δ)
  ending : Ending ε

/-- The attempts that are made. -/
def Run.made {δ ε : Type} (r : Run δ ε) : List ℕ := r.events.filterMap Event.index?

section Run

variable {δ ε : Type} (succeeds : ℕ → Bool) (pause : ℕ → Except ε δ) (delay : ℕ → δ)

/-- The run from the attempt `i` on, with this many attempts left. -/
def runFrom : ℕ → ℕ → Run δ ε
  | 0, _ => ⟨[], .exhausted⟩
  | left + 1, i =>
      if succeeds i then ⟨[.attempt i], .succeeded⟩
      else if left = 0 then ⟨[.attempt i], .exhausted⟩
      else
        match pause i with
        | .error e => ⟨[.attempt i], .stopped e⟩
        | .ok d =>
            let later := runFrom left (i + 1)
            ⟨.attempt i :: .pause d :: later.events, later.ending⟩

/-- At most `n` attempts. -/
def run (n : ℕ) : Run δ ε := runFrom succeeds pause n 0

/-- An attempt after which there is no other: it succeeds, or the pause after it fails. -/
def endsWith (i : ℕ) : Bool := succeeds i || !(pause i).toBool

/-- **A pause is needed and fails**. -/
def Blocked (n : ℕ) : Prop :=
  ∃ i, i + 1 < n ∧ (∀ j ≤ i, succeeds j = false) ∧ ∃ e, pause i = .error e

/-- `k` attempts from `i` on, with a pause between any two. -/
def script : ℕ → ℕ → List (Event δ)
  | 0, _ => []
  | k + 1, i => .attempt i :: if k = 0 then [] else .pause (delay i) :: script k (i + 1)

/-- How many attempts are made of `n`, if these are the last ones: up to the first of them. -/
def attempts (last : ℕ → Bool) (n : ℕ) : ℕ := min n ((List.range n).findIdx last + 1)

variable {succeeds pause delay} {n left i k : ℕ}

/-- **One attempt**: the run ends with it, or a pause follows and then the rest. -/
theorem runFrom_succ (succeeds : ℕ → Bool) (pause : ℕ → Except ε δ) (left i : ℕ) :
    (succeeds i = true ∧ runFrom succeeds pause (left + 1) i = ⟨[.attempt i], .succeeded⟩) ∨
    (succeeds i = false ∧ left = 0 ∧
      runFrom succeeds pause (left + 1) i = ⟨[.attempt i], .exhausted⟩) ∨
    (∃ e, succeeds i = false ∧ left ≠ 0 ∧ pause i = .error e ∧
      runFrom succeeds pause (left + 1) i = ⟨[.attempt i], .stopped e⟩) ∨
    (∃ d, succeeds i = false ∧ left ≠ 0 ∧ pause i = .ok d ∧
      runFrom succeeds pause (left + 1) i =
        ⟨.attempt i :: .pause d :: (runFrom succeeds pause left (i + 1)).events,
          (runFrom succeeds pause left (i + 1)).ending⟩) := by
  rw [runFrom]
  cases succeeds i with
  | true => exact Or.inl ⟨rfl, if_pos rfl⟩
  | false =>
      rw [if_neg Bool.false_ne_true]
      by_cases hlast : left = 0
      · exact Or.inr (Or.inl ⟨rfl, hlast, if_pos hlast⟩)
      · rw [if_neg hlast]
        cases pause i with
        | error e => exact Or.inr (Or.inr (Or.inl ⟨e, rfl, hlast, rfl, rfl⟩))
        | ok d => exact Or.inr (Or.inr (Or.inr ⟨d, rfl, hlast, rfl, rfl⟩))

private theorem findIdx_range'_succ (last : ℕ → Bool) (left i : ℕ) :
    (List.range' i (left + 1)).findIdx last =
      if last i then 0 else (List.range' (i + 1) left).findIdx last + 1 := by
  rw [List.range'_succ, List.findIdx_cons]
  cases last i <;> rfl

theorem runFrom_events (hdelay : ∀ i d, pause i = .ok d → d = delay i) (left i : ℕ) :
    (runFrom succeeds pause left i).events =
      script delay (min left ((List.range' i left).findIdx (endsWith succeeds pause) + 1)) i := by
  induction left generalizing i with
  | zero => rfl
  | succ left ih =>
      rw [findIdx_range'_succ]
      rcases runFrom_succ succeeds pause left i with ⟨hi, hrun⟩ | ⟨hi, hlast, hrun⟩ |
        ⟨e, hi, -, hpause, hrun⟩ | ⟨d, hi, hlast, hpause, hrun⟩
      · have hends : endsWith succeeds pause i = true := by simp [endsWith, hi]
        rw [hrun, if_pos hends, Nat.zero_add, Nat.min_eq_right (Nat.le_add_left 1 left)]
        rfl
      · rw [hrun, hlast, Nat.zero_add, Nat.min_eq_left (Nat.le_add_left 1 _)]
        rfl
      · have hends : endsWith succeeds pause i = true := by
          simp [endsWith, hpause, Except.toBool]
        rw [hrun, if_pos hends, Nat.zero_add, Nat.min_eq_right (Nat.le_add_left 1 left)]
        rfl
      · have hends : endsWith succeeds pause i = false := by
          simp [endsWith, hi, hpause, Except.toBool]
        rw [hrun, if_neg (Bool.eq_false_iff.mp hends), ih, hdelay i d hpause,
          Nat.add_min_add_right, script, if_neg (by omega)]

/-- **The whole run.** -/
theorem run_events (hdelay : ∀ i d, pause i = .ok d → d = delay i) (n : ℕ) :
    (run succeeds pause n).events =
      script delay (attempts (endsWith succeeds pause) n) 0 := by
  rw [run, runFrom_events hdelay, attempts, List.range_eq_range']

/-! ### The attempts -/

theorem made_script (delay : ℕ → δ) (ending : Ending ε) (k i : ℕ) :
    (Run.mk (script delay k i) ending).made = List.range' i k := by
  induction k generalizing i with
  | zero => rfl
  | succ k ih =>
      have hlater : (script delay k (i + 1)).filterMap Event.index? = List.range' (i + 1) k := ih _
      rw [script, List.range'_succ]
      by_cases hlast : k = 0
      · rw [if_pos hlast, hlast]
        rfl
      · rw [if_neg hlast, ← hlater]
        rfl

/-- **An attempt is made** exactly if none before it is the last one. -/
theorem mem_range_attempts {last : ℕ → Bool} :
    i < attempts last n ↔ i < n ∧ ∀ j < i, last j = false := by
  rw [attempts, Nat.lt_min, Nat.lt_succ_iff]
  refine and_congr_right fun hi => ⟨fun hle j hj => ?_, fun hnone => ?_⟩
  · have hnot := List.not_of_lt_findIdx (hj.trans_le hle)
    rwa [List.getElem_range] at hnot
  · by_contra hlt
    rw [not_le] at hlt
    have hlength : (List.range n).findIdx last < (List.range n).length := by
      rw [List.length_range]
      omega
    have hlast := List.findIdx_getElem (w := hlength)
    rw [List.getElem_range, hnone _ hlt] at hlast
    cases hlast

theorem endsWith_eq_false :
    endsWith succeeds pause i = false ↔ succeeds i = false ∧ ∃ d, pause i = .ok d := by
  unfold endsWith
  cases succeeds i with
  | true => simp
  | false => cases pause i <;> simp [Except.toBool]

/-- The attempts of a run. -/
theorem made_run [Inhabited δ] (succeeds : ℕ → Bool) (pause : ℕ → Except ε δ) (n : ℕ) :
    (run succeeds pause n).made = List.range (attempts (endsWith succeeds pause) n) := by
  have hdelay : ∀ i d, pause i = .ok d → d = (pause i).toOption.getD default := by
    intro i d hpause
    rw [hpause]
    rfl
  rw [List.range_eq_range', ← made_script _ (run succeeds pause n).ending, ← run_events hdelay]

theorem mem_made_run [Inhabited δ] :
    i ∈ (run succeeds pause n).made ↔
      i < n ∧ ∀ j < i, succeeds j = false ∧ ∃ d, pause j = .ok d := by
  rw [made_run, List.mem_range, mem_range_attempts]
  simp only [endsWith_eq_false]

/-- Where no pause fails, it is the first success that counts. -/
theorem attempts_of_not_blocked (h : ¬ Blocked succeeds pause n) :
    attempts (endsWith succeeds pause) n = attempts succeeds n := by
  refine eq_of_forall_lt_iff fun i => ?_
  rw [mem_range_attempts, mem_range_attempts]
  refine and_congr_right fun hi => ⟨fun hgoes j hj => (endsWith_eq_false.mp (hgoes j hj)).1, ?_⟩
  intro hfail j hj
  refine endsWith_eq_false.mpr ⟨hfail j hj, ?_⟩
  cases hpause : pause j with
  | ok d => exact ⟨d, rfl⟩
  | error e => exact absurd ⟨j, by omega, fun m hm => hfail m (by omega), e, hpause⟩ h

/-! ### The end -/

theorem runFrom_succeeded_iff (left i : ℕ) :
    (runFrom succeeds pause left i).ending = .succeeded ↔
      ∃ j ∈ (runFrom succeeds pause left i).made, succeeds j = true := by
  induction left generalizing i with
  | zero => simp [runFrom, Run.made]
  | succ left ih =>
      rcases runFrom_succ succeeds pause left i with ⟨hi, hrun⟩ | ⟨hi, -, hrun⟩ |
        ⟨e, hi, -, -, hrun⟩ | ⟨d, hi, -, -, hrun⟩
      · rw [hrun]
        exact iff_of_true rfl ⟨i, List.mem_singleton_self i, hi⟩
      · rw [hrun]
        simp [Run.made, Event.index?, hi]
      · rw [hrun]
        simp [Run.made, Event.index?, hi]
      · have hmade : (runFrom succeeds pause (left + 1) i).made =
            i :: (runFrom succeeds pause left (i + 1)).made := by
          rw [hrun]
          rfl
        rw [hmade, hrun]
        simp only [List.mem_cons, exists_eq_or_imp, hi, Bool.false_eq_true, false_or]
        exact ih (i + 1)

/-- **A run succeeds** with an attempt. -/
theorem succeeded_iff :
    (run succeeds pause n).ending = .succeeded ↔
      ∃ i ∈ (run succeeds pause n).made, succeeds i = true :=
  runFrom_succeeded_iff n 0

theorem runFrom_exhausted_iff (left i : ℕ) :
    (runFrom succeeds pause left i).ending = .exhausted ↔
      (∀ j, i ≤ j → j < i + left → succeeds j = false) ∧
        ∀ j, i ≤ j → j + 1 < i + left → ∃ d, pause j = .ok d := by
  induction left generalizing i with
  | zero =>
      refine iff_of_true rfl ⟨fun j _ _ => ?_, fun j _ _ => ?_⟩ <;> omega
  | succ left ih =>
      rcases runFrom_succ succeeds pause left i with ⟨hi, hrun⟩ | ⟨hi, hlast, hrun⟩ |
        ⟨e, hi, hmore, hpause, hrun⟩ | ⟨d, hi, hmore, hpause, hrun⟩
      · rw [hrun]
        refine iff_of_false nofun fun h => ?_
        rw [h.1 i le_rfl (by omega)] at hi
        cases hi
      · rw [hrun]
        refine iff_of_true rfl ⟨fun j hle hlt => ?_, fun j hle hlt => ?_⟩
        · obtain rfl : j = i := by omega
          exact hi
        · omega
      · rw [hrun]
        refine iff_of_false nofun fun h => ?_
        obtain ⟨d, hd⟩ := h.2 i le_rfl (by omega)
        rw [hpause] at hd
        cases hd
      · rw [hrun]
        dsimp only
        rw [ih]
        constructor
        · rintro ⟨hfail, hpauses⟩
          refine ⟨fun j hle hlt => ?_, fun j hle hlt => ?_⟩
          · rcases hle.eq_or_lt with rfl | hlt'
            · exact hi
            · exact hfail j hlt' (by omega)
          · rcases hle.eq_or_lt with rfl | hlt'
            · exact ⟨d, hpause⟩
            · exact hpauses j hlt' (by omega)
        · rintro ⟨hfail, hpauses⟩
          exact ⟨fun j hle hlt => hfail j (by omega) (by omega),
            fun j hle hlt => hpauses j (by omega) (by omega)⟩

/-- **A run is exhausted** by failures, with pauses between them. -/
theorem exhausted_iff :
    (run succeeds pause n).ending = .exhausted ↔
      (∀ i < n, succeeds i = false) ∧ ∀ i, i + 1 < n → ∃ d, pause i = .ok d := by
  rw [run, runFrom_exhausted_iff]
  simp

theorem blocked_of_runFrom {e : ε} (h : (runFrom succeeds pause left i).ending = .stopped e) :
    ∃ j, i ≤ j ∧ j + 1 < i + left ∧ (∀ m, i ≤ m → m ≤ j → succeeds m = false) ∧
      pause j = .error e := by
  induction left generalizing i with
  | zero => cases h
  | succ left ih =>
      rcases runFrom_succ succeeds pause left i with ⟨-, hrun⟩ | ⟨-, -, hrun⟩ |
        ⟨e', hi, hmore, hpause, hrun⟩ | ⟨d, hi, hmore, hpause, hrun⟩
      · rw [hrun] at h
        cases h
      · rw [hrun] at h
        cases h
      · rw [hrun] at h
        obtain rfl := Ending.stopped.inj h
        refine ⟨i, le_rfl, by omega, fun m hle hge => ?_, hpause⟩
        obtain rfl : m = i := by omega
        exact hi
      · rw [hrun] at h
        obtain ⟨j, hle, hlt, hfail, hj⟩ := ih h
        refine ⟨j, by omega, by omega, fun m hm hge => ?_, hj⟩
        rcases hm.eq_or_lt with rfl | hlt'
        · exact hi
        · exact hfail m hlt' hge

/-- **A run is stopped** by a pause that is needed and fails. -/
theorem stopped_iff [Inhabited δ] :
    (∃ e, (run succeeds pause n).ending = .stopped e) ↔ Blocked succeeds pause n := by
  constructor
  · rintro ⟨e, hstopped⟩
    obtain ⟨i, -, hi, hfail, hpause⟩ := blocked_of_runFrom hstopped
    exact ⟨i, by omega, fun j hj => hfail j (Nat.zero_le j) hj, e, hpause⟩
  · rintro ⟨i, hi, hfail, e, hpause⟩
    cases hending : (run succeeds pause n).ending with
    | stopped e => exact ⟨e, rfl⟩
    | exhausted =>
        obtain ⟨d, hd⟩ := (exhausted_iff.mp hending).2 i hi
        rw [hpause] at hd
        cases hd
    | succeeded =>
        obtain ⟨j, hmade, hj⟩ := succeeded_iff.mp hending
        obtain ⟨-, hbefore⟩ := mem_made_run.mp hmade
        have hlt : i < j := by
          by_contra hle
          rw [hfail j (by omega)] at hj
          cases hj
        obtain ⟨d, hd⟩ := (hbefore i hlt).2
        rw [hpause] at hd
        cases hd

end Run

end Retry
