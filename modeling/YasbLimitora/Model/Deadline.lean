import Mathlib

/-!
# Deadlines

The absolute endpoint shared by all phases of a run (`DeadlineContext` of
`deadline.py`). Times are nanoseconds of a monotonic clock. The clock itself is no part
of the record here: what it reads is passed to the functions that look at it.

A phase may use what is left before the reserve (`YasbLimitora.DeadlineContext.usableNs`), and the
cleanup after it the reserve or what is left of that (`YasbLimitora.DeadlineContext.cleanupNs`).
With the clock as an argument two readings are two arguments, and what holds between them is stated
by their order: time that is used up stays used up (`usableNs_eq_zero_of_le`), and what a wait takes
is gone afterwards (`usableNs_le_sub`).
-/

namespace YasbLimitora

def NANOSECONDS_PER_SECOND : ℕ := 1000000000

def MAX_RESERVE_NS : ℤ := 250000000

/-- An endpoint, with the share of the time before it that is kept for cleaning up. -/
structure DeadlineContext where
  t0Ns : ℤ
  deadlineNs : ℤ
  reserveNs : ℤ
  t0_nonneg : 0 ≤ t0Ns
  t0_le_deadline : t0Ns ≤ deadlineNs
  reserve_nonneg : 0 ≤ reserveNs
  reserve_le : reserveNs ≤ min MAX_RESERVE_NS (deadlineNs - t0Ns)

namespace DeadlineContext

variable (context : DeadlineContext) (clock : ℤ)

def remainingNs : ℤ := max 0 (context.deadlineNs - clock)

def usableNs : ℤ := max 0 (context.remainingNs clock - context.reserveNs)

def cleanupNs : ℤ := min context.reserveNs (context.remainingNs clock)

/-- **Once the usable time is up it stays up.** -/
theorem usableNs_eq_zero_of_le {clock clock' : ℤ} (h : clock ≤ clock')
    (hu : context.usableNs clock = 0) : context.usableNs clock' = 0 := by
  rw [usableNs, remainingNs] at hu ⊢
  omega

/-- **What passes is no longer usable.** -/
theorem usableNs_le_sub {clock clock' d : ℤ} (hd : 0 ≤ d) (h : clock + d ≤ clock') :
    context.usableNs clock' ≤ max 0 (context.usableNs clock - d) := by
  have hreserve := context.reserve_nonneg
  rw [usableNs, remainingNs, usableNs, remainingNs]
  omega

end DeadlineContext

end YasbLimitora
