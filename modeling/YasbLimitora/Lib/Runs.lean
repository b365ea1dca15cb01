import Mathlib

/-!
# Maximal runs

Runs of a relation that take a step whenever there is one to take, and stay where they
are once there is none. Reachability is `Relation.ReflTransGen`; the rules here are the
two that are used with it: what every step keeps holds along every run
(`reachable_invariant`), and where every step lowers a measure each maximal run gets
stuck, so that a property of the reachable stuck states is met by every maximal run
(`MaximalRun.meets`). Conversely some maximal run ends in each stuck state that is
reached (`MaximalRun.exists_of_stuck`). Nothing here mentions a program.
-/

open Relation

variable {σ : Type} {r : σ → σ → Prop} {a b : σ}

/-- **The induction along a run.** -/
theorem reachable_invariant {I : σ → Prop} (ha : I a) (hstep : ∀ b c, I b → r b c → I c)
    (h : ReflTransGen r a b) : I b := by
  induction h with
  | refl => exact ha
  | tail _ hbc ih => exact hstep _ _ ih hbc

/-- **What is reached** is reached by a run of so many steps. -/
theorem exists_run (h : ReflTransGen r a b) :
    ∃ (n : ℕ) (run : ℕ → σ), run 0 = a ∧ run n = b ∧ ∀ k < n, r (run k) (run (k + 1)) := by
  induction h using ReflTransGen.head_induction_on with
  | refl => exact ⟨0, fun _ => b, rfl, rfl, fun k hk => absurd hk (Nat.not_lt_zero k)⟩
  | @head c d hcd _ ih =>
    obtain ⟨n, run, hstart, hend, hsteps⟩ := ih
    refine ⟨n + 1, fun k => k.casesOn c run, rfl, hend, fun k hk => ?_⟩
    cases k with
    | zero =>
      rw [← hstart] at hcd
      exact hcd
    | succ k => exact hsteps k (Nat.lt_of_succ_lt_succ hk)

/-- No step leaves this state. -/
def Stuck (r : σ → σ → Prop) (a : σ) : Prop := ∀ b, ¬r a b

/-- A run from `a` that takes a step whenever there is one. -/
structure MaximalRun (r : σ → σ → Prop) (a : σ) (run : ℕ → σ) : Prop where
  start : run 0 = a
  next : ∀ n, r (run n) (run (n + 1)) ∨ Stuck r (run n) ∧ run (n + 1) = run n

namespace MaximalRun

variable {run : ℕ → σ}

theorem reachable (h : MaximalRun r a run) (n : ℕ) : ReflTransGen r a (run n) := by
  induction n with
  | zero => rw [h.start]
  | succ n ih =>
    rcases h.next n with hstep | ⟨-, hstay⟩
    · exact ih.tail hstep
    · rwa [hstay]

/-- **Where every step lowers a measure, a maximal run gets stuck.** -/
theorem exists_stuck (h : MaximalRun r a run) (measure : σ → ℕ)
    (hm : ∀ b c, ReflTransGen r a b → r b c → measure c < measure b) :
    ∃ n, Stuck r (run n) := by
  by_contra hnot
  push Not at hnot
  have hdrop : ∀ n, measure (run n) + n ≤ measure (run 0) := by
    intro n
    induction n with
    | zero => exact le_rfl
    | succ n ih =>
      rcases h.next n with hstep | ⟨hstuck, -⟩
      · have hlt := hm _ _ (h.reachable n) hstep
        omega
      · exact absurd hstuck (hnot n)
  have hlast := hdrop (measure (run 0) + 1)
  omega

/-- A maximal run meets what holds of every reachable stuck state. -/
theorem meets {P : σ → Prop} (h : MaximalRun r a run) (measure : σ → ℕ)
    (hm : ∀ b c, ReflTransGen r a b → r b c → measure c < measure b)
    (hP : ∀ b, ReflTransGen r a b → Stuck r b → P b) : ∃ n, P (run n) := by
  obtain ⟨n, hn⟩ := h.exists_stuck measure hm
  exact ⟨n, hP _ (h.reachable n) hn⟩

/-- A stuck state that can be reached is where some maximal run stays. -/
theorem exists_of_stuck (h : ReflTransGen r a b) (hb : Stuck r b) :
    ∃ run, MaximalRun r a run ∧ ∃ N, ∀ n, N ≤ n → run n = b := by
  induction h using ReflTransGen.head_induction_on with
  | refl => exact ⟨fun _ => b, ⟨rfl, fun _ => .inr ⟨hb, rfl⟩⟩, 0, fun _ _ => rfl⟩
  | @head c d hcd _ ih =>
    obtain ⟨run, hrun, N, hN⟩ := ih
    refine ⟨fun n => n.casesOn c run, ⟨rfl, fun n => ?_⟩, N + 1, fun n hn => ?_⟩
    · cases n with
      | zero =>
        rw [← hrun.start] at hcd
        exact .inl hcd
      | succ n => exact hrun.next n
    · cases n with
      | zero => omega
      | succ n => exact hN n (by omega)

end MaximalRun
