import Mathlib
import YasbLimitora.Lib.Instant

/-!
# Moments that may have no date

An aware moment is a point in time, and need not have a date in UTC: the first hours of year 1 east
of Greenwich are before the first instant of UTC, and the last hours of year 9999 west of it are
after the last one. Such moments are compared like any others, by the microseconds since the first
day of year 1, but cannot be written as an instant.

* `Moment` is an instant, or a moment that is before the first instant or after the last one.
* `Moment.nearest` is the instant that is nearest to a moment. It is the moment itself if that has a
  date, and it keeps the order (`Moment.nearest_le`), because no instant is after the last one
  (`Instant.micros_le_last`).

A program that keeps moments and writes dates has an exception waiting in the conversion. Here the
two kinds are one type, with a total comparison, and it is visible in a theorem which of the two it
speaks of: `Moment.isDated` is the condition under which a moment can be written.
-/

namespace Instant

/-! ### The first instant and the last one -/

def first : Instant := ⟨1, 1, 1, 0, 0, 0, 0, by decide⟩

def last : Instant := ⟨9999, 12, 31, 23, 59, 59, 999999, by decide⟩

/-- A day of a month is one of the days of its year. -/
theorem daysBeforeMonth_add_le {y m d : ℕ} (hm : 1 ≤ m ∧ m ≤ 12) (hd : d ≤ daysInMonth y m) :
    daysBeforeMonth y m + d ≤ if isLeapYear y then 366 else 365 := by
  obtain ⟨hm1, hm12⟩ := hm
  interval_cases m
  all_goals
    simp only [daysBeforeMonth, List.range, List.range.loop, List.tail_cons, List.map_cons, List.map_nil, List.sum_cons,
      List.sum_nil, daysInMonth] at hd ⊢
    split_ifs at hd ⊢
    all_goals omega

/-- The days before the last day of the calendar. -/
theorem days_le {y m d : ℕ} (hy : 1 ≤ y ∧ y ≤ 9999) (hm : 1 ≤ m ∧ m ≤ 12) (hd : d ≤ daysInMonth y m) :
    (y - 1) * 365 + (y - 1) / 4 - (y - 1) / 100 + (y - 1) / 400 + daysBeforeMonth y m + d - 1 ≤ 3652058 := by
  have hyear := daysBeforeMonth_add_le hm hd
  by_cases hlast : y = 9999
  · -- the last year has no leap day
    subst hlast
    have hleap : isLeapYear 9999 = false := rfl
    rw [if_neg (by rw [hleap]; exact Bool.false_ne_true)] at hyear
    omega
  · have hdays : daysBeforeMonth y m + d ≤ 366 := hyear.trans (by split_ifs <;> omega)
    omega

/-- **No instant is after the last one.** -/
theorem micros_le_last (t : Instant) : t.micros ≤ last.micros := by
  obtain ⟨y, mo, d, h, mi, s, us, hy, hmo, hd, hh, hmi, hs, hus⟩ := t
  have hdays := days_le hy hmo hd.2
  have hlast : last.micros = 315537897599999999 := by decide +kernel
  rw [hlast, micros]
  dsimp only at hdays ⊢
  omega

end Instant

/-- A moment, by the microseconds since the first day of year 1 in UTC: an instant, or a moment that
has no date there. -/
inductive Moment
  | dated (t : Instant)
  | undated (micros : ℤ) (outside : micros < 0 ∨ (Instant.last.micros : ℤ) < micros)

namespace Moment

def micros : Moment → ℤ
  | dated t => t.micros
  | undated micros _ => micros

def isDated : Moment → Bool
  | dated _ => true
  | undated _ _ => false

/-- The instant that is nearest to a moment. -/
def nearest : Moment → Instant
  | dated t => t
  | undated micros _ => if micros < 0 then .first else .last

theorem first_micros : Instant.first.micros = 0 := by decide +kernel

/-- **Of moments in order the nearest instants are in order.** -/
theorem nearest_le {m m' : Moment} (h : m.micros ≤ m'.micros) : m.nearest.micros ≤ m'.nearest.micros := by
  have hlast := fun t => Instant.micros_le_last t
  rcases m with t | ⟨n, hn⟩ <;> rcases m' with t' | ⟨n', hn'⟩
  · exact Int.ofNat_le.1 h
  · have ht := hlast t
    simp only [micros] at h
    rw [nearest, nearest, if_neg (by omega)]
    exact ht
  · have ht' := hlast t'
    simp only [micros] at h
    rw [nearest, nearest, if_pos (by omega), first_micros]
    exact Nat.zero_le _
  · simp only [micros] at h
    rw [nearest, nearest]
    split_ifs
    · exact le_rfl
    · rw [first_micros]
      exact Nat.zero_le _
    · omega
    · exact le_rfl

end Moment
