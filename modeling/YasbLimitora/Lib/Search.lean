import Mathlib

/-!
# Searching for the largest that fits

Binary search for the largest number that passes a test which, once failed, stays failed.
The test may hand back what it built, and may fail with an error, which ends the search.

`searchLargest_spec` is the one fact about it: the search finds what the test makes of
the largest number that passes, and finds nothing only if none does.

A program that looks for the greatest limit under which its output is small enough does not look at
all limits: it halves the interval, keeps the best that it has found, and trusts that an output only
grows with its limit. That trust is the hypothesis here, stated for the test and not for the output:
what failed at some number fails at every greater one.

The errors are part of the search since the candidates are built by code that may raise. A search
whose candidates can be built finds one if one fits (`exists_of_searchLargest`).
-/

variable {ε α : Type}

/-- The search in `[low, high)`, with the best found so far. -/
def searchLargest (probe : ℕ → Except ε (Option α)) (low high : ℕ) (best : Option α) :
    Except ε (Option α) :=
  if low < high then
    match probe ((low + high - 1) / 2) with
    | .error e => .error e
    | .ok (some a) => searchLargest probe ((low + high - 1) / 2 + 1) high (some a)
    | .ok none => searchLargest probe low ((low + high - 1) / 2) best
  else .ok best
termination_by high - low

/-- The result of a search is what the test makes of the largest that passes. -/
def IsLargest (f : ℕ → Option α) (low high : ℕ) (best r : Option α) : Prop :=
  (∃ n, low ≤ n ∧ n < high ∧ f n = r ∧ r.isSome ∧ ∀ m, n < m → m < high → f m = none) ∨
    r = best ∧ ∀ n, low ≤ n → n < high → f n = none

/-- **What the search finds.** -/
theorem searchLargest_spec {f : ℕ → Option α} (hf : ∀ m n, m ≤ n → f m = none → f n = none)
    (low high : ℕ) (best : Option α) :
    ∃ r, searchLargest (fun n => (.ok (f n) : Except ε (Option α))) low high best = .ok r ∧
      IsLargest f low high best r := by
  generalize hd : high - low = d
  induction d using Nat.strong_induction_on generalizing low high best with
  | _ d ih =>
    rw [searchLargest]
    split
    · next hlt =>
      obtain ⟨mid, hmid⟩ : ∃ mid, (low + high - 1) / 2 = mid := ⟨_, rfl⟩
      rw [hmid]
      cases hfm : f mid with
      | some a =>
        -- the largest is at the middle or above it
        obtain ⟨r, hr, hspec⟩ := ih (high - (mid + 1)) (by omega) (mid + 1) high (some a) rfl
        refine ⟨r, hr, .inl ?_⟩
        rcases hspec with ⟨n, hn, hn', hfn, hsome, hlast⟩ | ⟨rfl, hnone⟩
        · exact ⟨n, by omega, hn', hfn, hsome, hlast⟩
        · exact ⟨mid, by omega, by omega, hfm, rfl, fun m hm => hnone m hm⟩
      | none =>
        -- nothing from the middle on passes
        have habove : ∀ n, mid ≤ n → f n = none := fun n hn => hf mid n hn hfm
        obtain ⟨r, hr, hspec⟩ := ih (mid - low) (by omega) low mid best rfl
        refine ⟨r, hr, ?_⟩
        rcases hspec with ⟨n, hn, hn', hfn, hsome, hlast⟩ | ⟨rfl, hnone⟩
        · refine .inl ⟨n, hn, by omega, hfn, hsome, fun m hm _ => ?_⟩
          rcases lt_or_ge m mid with hlt | hge
          · exact hlast m hm hlt
          · exact habove m hge
        · refine .inr ⟨rfl, fun n hn _ => ?_⟩
          rcases lt_or_ge n mid with hlt | hge
          · exact hnone n hn hlt
          · exact habove n hge
    · next hge => exact ⟨best, rfl, .inr ⟨rfl, fun n hn hn' => absurd hn' (by omega)⟩⟩

/-- What a search has found is what the test made of some number, unless it was there before. -/
theorem exists_of_searchLargest {probe : ℕ → Except ε (Option α)} {low high : ℕ} {best : Option α} {a : α}
    (h : searchLargest probe low high best = .ok (some a)) :
    best = some a ∨ ∃ n, low ≤ n ∧ n < high ∧ probe n = .ok (some a) := by
  generalize hd : high - low = d
  induction d using Nat.strong_induction_on generalizing low high best with
  | _ d ih =>
    rw [searchLargest] at h
    split at h
    · next hlt =>
      obtain ⟨mid, hmid⟩ : ∃ mid, (low + high - 1) / 2 = mid := ⟨_, rfl⟩
      rw [hmid] at h
      split at h
      · cases h
      · next b hb =>
        -- the search goes on above the middle, with what was found there
        rcases ih (high - (mid + 1)) (by omega) h rfl with hbest | ⟨n, hn, hn', hprobe⟩
        · obtain rfl := Option.some.inj hbest
          exact Or.inr ⟨mid, by omega, by omega, hb⟩
        · exact Or.inr ⟨n, by omega, hn', hprobe⟩
      · next hnone =>
        rcases ih (mid - low) (by omega) h rfl with hbest | ⟨n, hn, hn', hprobe⟩
        · exact Or.inl hbest
        · exact Or.inr ⟨n, hn, by omega, hprobe⟩
    · exact Or.inl (Except.ok.inj h)
