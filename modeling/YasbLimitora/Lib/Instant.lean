import Mathlib
import YasbLimitora.Lib.DecimalText

/-!
# Instants of the proleptic Gregorian calendar

A point in time to the microsecond, in UTC, as its calendar fields. An impossible
date cannot be built: the fields carry the proof that they name one.

* `Instant.micros` counts the microseconds from the first day of year 1, so that
  instants are compared and subtracted as numbers.
* `Instant.text` writes `YYYY-MM-DDTHH:MM:SS.ffffffZ`, and `Instant.ofText` reads
  such text, refusing what the calendar does not have. `Instant.ofText_text` is the
  round trip.

The calendar is the one that date libraries extend to all years, with its leap years. Instants are
compared by `Instant.micros` and never by their fields, and a program that adds seconds does so
there. Text is checked against a template before its digits are read, so that a reader takes no
shorter form and no other separators.
-/

/-- Leap years of the Gregorian calendar. -/
def isLeapYear (y : ℕ) : Bool := y % 4 == 0 && (y % 100 != 0 || y % 400 == 0)

/-- The days of a month. -/
def daysInMonth (y m : ℕ) : ℕ :=
  match m with
  | 2 => if isLeapYear y then 29 else 28
  | 4 | 6 | 9 | 11 => 30
  | _ => 31

/-- The days of a year before a month. -/
def daysBeforeMonth (y m : ℕ) : ℕ :=
  ((List.range m).tail.map (daysInMonth y)).sum

/-- The fields of an instant name a day and a time of day. -/
def IsCalendar (year month day hour minute second micro : ℕ) : Prop :=
  (1 ≤ year ∧ year ≤ 9999) ∧ (1 ≤ month ∧ month ≤ 12) ∧ (1 ≤ day ∧ day ≤ daysInMonth year month) ∧
    hour < 24 ∧ minute < 60 ∧ second < 60 ∧ micro < 1000000

instance (year month day hour minute second micro : ℕ) :
    Decidable (IsCalendar year month day hour minute second micro) :=
  inferInstanceAs (Decidable (_ ∧ _))

/-- A point in time, in UTC, to the microsecond. -/
structure Instant where
  year : ℕ
  month : ℕ
  day : ℕ
  hour : ℕ
  minute : ℕ
  second : ℕ
  micro : ℕ
  calendar : IsCalendar year month day hour minute second micro
deriving DecidableEq

namespace Instant

open DecimalText

/-- Microseconds since the first day of year 1. -/
def micros (t : Instant) : ℕ :=
  let years := t.year - 1
  let days := years * 365 + years / 4 - years / 100 + years / 400 +
    daysBeforeMonth t.year t.month + t.day - 1
  (((days * 24 + t.hour) * 60 + t.minute) * 60 + t.second) * 1000000 + t.micro

/-! ### Text -/

/-- `YYYY-MM-DDTHH:MM:SS.ffffffZ`. -/
def chars (t : Instant) : List Char :=
  padded 4 t.year ++ ['-'] ++ padded 2 t.month ++ ['-'] ++ padded 2 t.day ++ ['T'] ++
    padded 2 t.hour ++ [':'] ++ padded 2 t.minute ++ [':'] ++ padded 2 t.second ++ ['.'] ++
    padded 6 t.micro ++ ['Z']

def text (t : Instant) : String := String.ofList t.chars

/-- A text fits a template when it has its characters, any digit where the template
has `d`. -/
def fits : List Char → List Char → Bool
  | [], [] => true
  | t :: template, c :: cs => (if t = 'd' then isDigit c else c == t) && fits template cs
  | _, _ => false

/-- The template of the text of an instant. -/
def template : List Char := "dddd-dd-ddTdd:dd:dd.ddddddZ".toList

/-- The number written at some place of a text. -/
def fieldAt (l : List Char) (start count : ℕ) : ℕ := readNat ((l.drop start).take count)

/-- The instant a text names, if it fits the template and the calendar has it. -/
def ofChars (l : List Char) : Option Instant :=
  if fits template l then
    if h : IsCalendar (fieldAt l 0 4) (fieldAt l 5 2) (fieldAt l 8 2) (fieldAt l 11 2)
        (fieldAt l 14 2) (fieldAt l 17 2) (fieldAt l 20 6) then
      some ⟨_, _, _, _, _, _, _, h⟩
    else none
  else none

def ofText (s : String) : Option Instant := ofChars s.toList

theorem fits_append {t u l m : List Char} (h : t.length = l.length) :
    fits (t ++ u) (l ++ m) = (fits t l && fits u m) := by
  induction t generalizing l with
  | nil =>
    obtain rfl : l = [] := List.length_eq_zero_iff.mp h.symm
    rfl
  | cons a t ih =>
    obtain ⟨c, l, rfl⟩ : ∃ c l', l = c :: l' := by
      cases l with
      | nil => simp at h
      | cons c l => exact ⟨c, l, rfl⟩
    simp only [List.cons_append, fits, ih (Nat.succ.inj h), Bool.and_assoc]

theorem fits_padded (k n : ℕ) : fits (List.replicate k 'd') (padded k n) = true := by
  induction k with
  | zero => rfl
  | succ k ih =>
    rw [List.replicate_succ, padded, fits, ih, if_pos rfl,
      isDigit_digit (Nat.mod_lt _ (by norm_num))]
    rfl

theorem fits_chars (t : Instant) : fits template t.chars = true := by
  have ht : template = List.replicate 4 'd' ++ ['-'] ++ List.replicate 2 'd' ++ ['-'] ++
      List.replicate 2 'd' ++ ['T'] ++ List.replicate 2 'd' ++ [':'] ++ List.replicate 2 'd' ++
      [':'] ++ List.replicate 2 'd' ++ ['.'] ++ List.replicate 6 'd' ++ ['Z'] := by decide
  have hc (c : Char) (hne : c ≠ 'd') : fits [c] [c] = true := by simp [fits, hne]
  rw [ht, chars]
  iterate 13 rw [fits_append (by simp)]
  simp only [fits_padded, hc '-' (by decide), hc 'T' (by decide), hc ':' (by decide),
    hc '.' (by decide), hc 'Z' (by decide), Bool.and_self]

/-- A field written into a text is found there. -/
theorem fieldAt_of_prefix {w l : List Char} {start k n : ℕ} (h : l ++ padded k n <+: w)
    (hl : l.length = start) (hn : n < 10 ^ k) : fieldAt w start k = n := by
  obtain ⟨m, rfl⟩ := h
  rw [fieldAt, List.append_assoc, ← hl, List.drop_left, List.take_append_of_le_length (by simp),
    List.take_of_length_le (by simp), readNat_padded, Nat.mod_eq_of_lt hn]

theorem daysInMonth_le (y m : ℕ) : daysInMonth y m ≤ 31 := by
  unfold daysInMonth
  split <;> try split
  all_goals omega

/-- **The round trip of the text of an instant.** -/
@[simp] theorem ofChars_chars (t : Instant) : ofChars t.chars = some t := by
  have hfits := fits_chars t
  obtain ⟨y, mo, d, h, mi, s, us, hcal⟩ := t
  have hd := daysInMonth_le y mo
  have hlt := hcal
  obtain ⟨⟨-, hy⟩, ⟨-, hmo⟩, ⟨-, hdm⟩, hh, hmi, hs, hus⟩ := hlt
  obtain ⟨w, hw⟩ : ∃ w, chars ⟨y, mo, d, h, mi, s, us, hcal⟩ = w := ⟨_, rfl⟩
  rw [hw] at hfits ⊢
  have e0 : fieldAt w 0 4 = y :=
    fieldAt_of_prefix (l := []) (by simp [← hw, chars]) rfl (by omega)
  have e1 : fieldAt w 5 2 = mo :=
    fieldAt_of_prefix (l := padded 4 y ++ ['-']) (by simp [← hw, chars]) (by simp) (by omega)
  have e2 : fieldAt w 8 2 = d :=
    fieldAt_of_prefix (l := padded 4 y ++ ['-'] ++ padded 2 mo ++ ['-']) (by simp [← hw, chars])
      (by simp) (by omega)
  have e3 : fieldAt w 11 2 = h :=
    fieldAt_of_prefix (l := padded 4 y ++ ['-'] ++ padded 2 mo ++ ['-'] ++ padded 2 d ++ ['T'])
      (by simp [← hw, chars]) (by simp) (by omega)
  have e4 : fieldAt w 14 2 = mi :=
    fieldAt_of_prefix (l := padded 4 y ++ ['-'] ++ padded 2 mo ++ ['-'] ++ padded 2 d ++ ['T'] ++
      padded 2 h ++ [':']) (by simp [← hw, chars]) (by simp) (by omega)
  have e5 : fieldAt w 17 2 = s :=
    fieldAt_of_prefix (l := padded 4 y ++ ['-'] ++ padded 2 mo ++ ['-'] ++ padded 2 d ++ ['T'] ++
      padded 2 h ++ [':'] ++ padded 2 mi ++ [':']) (by simp [← hw, chars]) (by simp) (by omega)
  have e6 : fieldAt w 20 6 = us :=
    fieldAt_of_prefix (l := padded 4 y ++ ['-'] ++ padded 2 mo ++ ['-'] ++ padded 2 d ++ ['T'] ++
      padded 2 h ++ [':'] ++ padded 2 mi ++ [':'] ++ padded 2 s ++ ['.']) (by simp [← hw, chars])
      (by simp) (by omega)
  rw [ofChars, if_pos hfits]
  simp only [e0, e1, e2, e3, e4, e5, e6]
  rw [dif_pos hcal]

@[simp] theorem ofText_text (t : Instant) : ofText t.text = some t := by
  rw [ofText, text, String.toList_ofList, ofChars_chars]

end Instant
