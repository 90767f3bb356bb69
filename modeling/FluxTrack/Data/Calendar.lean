import Mathlib.Algebra.Order.Ring.Int
import Mathlib.Tactic.NormNum

/-!
# Instants, local days and half-open slots

Instants count microseconds from the epoch, dates count local days and times of
day count microseconds from local midnight. The local zone is a fixed offset
from the epoch's zone, so every local day has the same length and a time of day
on a date names exactly one instant.

## Main definitions

* `Calendar.Zone.combine`, `Zone.localDate`, `Zone.localTime` — between a wall
  clock reading and an instant
* `Calendar.weekday` — Monday is `0`
* `Calendar.overlaps` — overlap of half-open slots
* `Calendar.Zone.WithinDay` — a slot inside one local day

## Main results

* `Zone.localDate_combine` — a wall clock reading has the date it was made with
* `Zone.eq_of_overlaps_combine` — a slot made of two wall clock readings of one
  date meets no slot inside another day
-/

namespace Calendar

/-- The length of a day. -/
def dayLength : ℤ := 86400000000

/-- The length of a minute. -/
def minute : ℤ := 60000000

/-- The length of a second. -/
def second : ℤ := 1000000

/-- A wall clock time, in microseconds from midnight. -/
structure TimeOfDay where
  ticks : ℕ
  lt_dayLength : (ticks : ℤ) < dayLength
  deriving DecidableEq

/-- The wall clock time `h:m`. -/
def TimeOfDay.ofHM (h m : ℕ) (hlt : ((h * 60 + m) * 60000000 : ℕ) < dayLength := by decide) :
    TimeOfDay :=
  ⟨(h * 60 + m) * 60000000, hlt⟩

/-- The day of the week of a date, Monday being `0`. -/
def weekday (d : ℤ) : ℕ := ((d + 3) % 7).toNat

/-- The half-open slots `[a, b)` and `[s, e)` overlap. -/
def overlaps (a b s e : ℤ) : Bool := decide (a < e) && decide (s < b)

@[simp] theorem overlaps_iff {a b s e : ℤ} : overlaps a b s e = true ↔ a < e ∧ s < b := by
  simp [overlaps]

theorem overlaps_comm (a b s e : ℤ) : overlaps a b s e = overlaps s e a b := by
  rw [overlaps, overlaps, Bool.and_comm]

/-- A time zone at a fixed offset. -/
structure Zone where
  offset : ℤ

namespace Zone

variable (z : Zone) {d d' : ℤ} {s e i : ℤ} {t t' : TimeOfDay}

/-- The instant of a wall clock reading. -/
def combine (d : ℤ) (t : TimeOfDay) : ℤ := d * dayLength + t.ticks - z.offset

/-- The local date of an instant. -/
def localDate (i : ℤ) : ℤ := (i + z.offset) / dayLength

/-- The wall clock reading of an instant within its day, in microseconds. -/
def localTime (i : ℤ) : ℤ := (i + z.offset) % dayLength

/-- The first instant of a local day. -/
def midnight (d : ℤ) : ℤ := d * dayLength - z.offset

theorem midnight_le_combine : z.midnight d ≤ z.combine d t := by
  unfold midnight combine
  omega

theorem combine_lt_midnight : z.combine d t < z.midnight (d + 1) := by
  have hlt := t.lt_dayLength
  unfold midnight combine
  rw [add_mul, one_mul]
  omega

theorem localDate_eq_iff : z.localDate i = d ↔ z.midnight d ≤ i ∧ i < z.midnight (d + 1) := by
  unfold localDate midnight dayLength
  omega

theorem lt_midnight_iff : i < z.midnight d ↔ z.localDate i < d := by
  unfold localDate midnight dayLength
  omega

/-- A wall clock reading has the date it was made with. -/
@[simp] theorem localDate_combine : z.localDate (z.combine d t) = d :=
  (z.localDate_eq_iff).mpr ⟨z.midnight_le_combine, z.combine_lt_midnight⟩

/-- The slot `[s, e)` lies inside the local day of its start. -/
def WithinDay (s e : ℤ) : Prop := e ≤ z.midnight (z.localDate s + 1)

/-- A slot made of two wall clock readings of one date meets a slot inside a
local day only if the dates agree. -/
theorem eq_of_overlaps_combine (hday : z.WithinDay s e)
    (h : overlaps (z.combine d t) (z.combine d t') s e = true) : d = z.localDate s := by
  rw [overlaps_iff] at h
  have hlo : z.midnight d < z.midnight (z.localDate s + 1) :=
    z.midnight_le_combine.trans_lt (h.1.trans_le hday)
  have hhi : z.midnight (z.localDate s) < z.midnight (d + 1) :=
    ((z.localDate_eq_iff).mp rfl).1.trans_lt (h.2.trans z.combine_lt_midnight)
  unfold midnight dayLength at hlo hhi
  omega

/-- Slots made of wall clock readings of different dates do not meet. -/
theorem date_eq_of_overlaps_combine {d' : ℤ} {u u' : TimeOfDay}
    (h : overlaps (z.combine d t) (z.combine d t') (z.combine d' u) (z.combine d' u') = true) :
    d = d' := by
  have hday : z.WithinDay (z.combine d' u) (z.combine d' u') := by
    unfold WithinDay
    rw [z.localDate_combine]
    exact z.combine_lt_midnight.le
  rw [z.eq_of_overlaps_combine hday h, z.localDate_combine]

end Zone

end Calendar
