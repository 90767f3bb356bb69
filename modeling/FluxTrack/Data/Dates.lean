import FluxTrack.Data.QueryText

/-!
# Written dates

Different dates are written differently.

## Main definitions

* `Py.IsDate` — the dates there are, from the year 1 to the year 9999

## Main results

* `Py.civil_injective` — a date is known by its year, month and day
* `Py.isoformat_inj` — a date is known by its text
-/

namespace Py

/-- A date of the years 1 to 9999. -/
def IsDate (d : ℤ) : Prop := -719162 ≤ d ∧ d ≤ 2932896

instance (d : ℤ) : Decidable (IsDate d) := inferInstanceAs (Decidable (_ ∧ _))

/-! ### The calendar -/

/-- The year within an era, and the day within that year, counted from March. -/
theorem ofYear_bounds (e : ℤ) (hlow : 0 ≤ e) (hhigh : e < 146097) :
    let year := (e - e / 1460 + e / 36524 - e / 146096) / 365
    let ofYear := e - (365 * year + year / 4 - year / 100)
    0 ≤ year ∧ year ≤ 399 ∧ 0 ≤ ofYear ∧ ofYear ≤ 365 := by
  intro year ofYear
  refine ⟨by omega, by omega, ?_⟩
  simp only [ofYear, year]
  -- the century of the day, whether it is the last of the era, and the century of the year
  have hcentury : e / 36524 = 0 ∨ e / 36524 = 1 ∨ e / 36524 = 2 ∨ e / 36524 = 3 ∨
      e / 36524 = 4 := by
    omega
  have hlast : e / 146096 = 0 ∨ e / 146096 = 1 := by omega
  generalize hb : (e - e / 1460 + e / 36524 - e / 146096) / 365 = b
  have hyear : b / 100 = 0 ∨ b / 100 = 1 ∨ b / 100 = 2 ∨ b / 100 = 3 := by omega
  rcases hlast with hl | hl <;> rcases hcentury with hc | hc | hc | hc | hc <;>
    rw [hl, hc] at hb <;> rcases hyear with hy | hy | hy | hy <;> rw [hy] <;> omega

/-- A date by its era, the year within it and the day within that year. -/
theorem civil_eq (d : ℤ) :
    ∃ era year ofYear : ℤ, d + 719468 = era * 146097 + (365 * year + year / 4 - year / 100) + ofYear ∧
      0 ≤ year ∧ year ≤ 399 ∧ 0 ≤ ofYear ∧ ofYear ≤ 365 ∧
      civil d = (era * 400 + year + (if (5 * ofYear + 2) / 153 < 10 then 0 else 1),
        if (5 * ofYear + 2) / 153 < 10 then (5 * ofYear + 2) / 153 + 3
          else (5 * ofYear + 2) / 153 - 9,
        ofYear - (153 * ((5 * ofYear + 2) / 153) + 2) / 5 + 1) := by
  obtain ⟨hyear, hyear', hday, hday'⟩ := ofYear_bounds ((d + 719468) % 146097)
    (Int.emod_nonneg _ (by decide)) (Int.emod_lt_of_pos _ (by decide))
  refine ⟨(d + 719468) / 146097, _, _, ?_, hyear, hyear', hday, hday', rfl⟩
  have hdiv := Int.mul_ediv_add_emod (d + 719468) 146097
  omega

/-- A date is known by its year, month and day. -/
theorem civil_injective : Function.Injective civil := by
  intro d d' h
  obtain ⟨era, year, ofYear, hd, hyear, hyear', hday, hday', hcivil⟩ := civil_eq d
  obtain ⟨era', year', ofYear', hd', hyear₁, hyear₁', hday₁, hday₁', hcivil'⟩ := civil_eq d'
  rw [hcivil, hcivil', Prod.mk.injEq, Prod.mk.injEq] at h
  obtain ⟨hyears, hmonths, hdays⟩ := h
  -- the month in the year from March comes first: it tells whether the year is counted one on
  have hmonth : (5 * ofYear + 2) / 153 = (5 * ofYear' + 2) / 153 := by
    split at hmonths <;> split at hmonths <;> omega
  rw [hmonth] at hdays hyears
  have hofYear : ofYear = ofYear' := by omega
  have hera : era = era' := by omega
  have hofEra : year = year' := by omega
  subst hofYear hera hofEra
  omega

theorem month_day_nonneg (d : ℤ) : 0 ≤ (civil d).2.1 ∧ 0 ≤ (civil d).2.2 := by
  obtain ⟨era, year, ofYear, -, -, -, hday, hday', hcivil⟩ := civil_eq d
  rw [hcivil]
  refine ⟨?_, by dsimp only; omega⟩
  dsimp only
  split <;> omega

/-- No date is before the year 0. -/
theorem IsDate.year {d : ℤ} (h : IsDate d) : 0 ≤ (civil d).1 := by
  obtain ⟨hlow, -⟩ := h
  simp only [civil]
  split <;> omega

/-! ### Digits -/

theorem zeroPadded_injective (width : ℕ) : Function.Injective (zeroPadded width) := by
  have hvalue : ∀ n, Nat.ofDigitChars 10 (zeroPadded width n) 0 = n := by
    intro n
    rw [zeroPadded, List.leftpad, Nat.ofDigitChars_append, Nat.ofDigitChars_replicate_zero,
      Nat.mul_zero, Nat.ofDigitChars_ten_toDigits]
  exact Function.LeftInverse.injective hvalue

theorem isDigit_of_mem_zeroPadded {width n : ℕ} {c : Char} (h : c ∈ zeroPadded width n) :
    c.isDigit = true := by
  rw [zeroPadded, List.leftpad, List.mem_append] at h
  rcases h with h | h
  · rw [List.eq_of_mem_replicate h]
    decide
  · exact Nat.isDigit_of_mem_toDigits (by decide) (by decide) h

/-- Two texts that go on with the same character, which is in neither of them. -/
theorem append_cons_inj {α : Type*} {a : α} {xs xs' ys ys' : List α} (h : a ∉ xs) (h' : a ∉ xs')
    (heq : xs ++ a :: ys = xs' ++ a :: ys') : xs = xs' ∧ ys = ys' := by
  induction xs generalizing xs' with
  | nil =>
    cases xs' with
    | nil => exact ⟨rfl, (List.cons.inj heq).2⟩
    | cons x' xs' => exact absurd ((List.cons.inj heq).1 ▸ List.mem_cons_self) h'
  | cons x xs ih =>
    cases xs' with
    | nil => exact absurd ((List.cons.inj heq).1 ▸ List.mem_cons_self) h
    | cons x' xs' =>
      obtain ⟨rfl, htail⟩ := List.cons.inj heq
      obtain ⟨rfl, rfl⟩ := ih (fun hm => h (List.mem_cons_of_mem _ hm))
        (fun hm => h' (List.mem_cons_of_mem _ hm)) htail
      exact ⟨rfl, rfl⟩

theorem dash_notMem_zeroPadded {width n : ℕ} : '-' ∉ zeroPadded width n := by
  intro h
  exact absurd (isDigit_of_mem_zeroPadded h) (by decide)

/-- A date is known by its text. -/
theorem isoformat_inj {d d' : ℤ} (h : IsDate d) (h' : IsDate d') (heq : isoformat d = isoformat d') :
    d = d' := by
  rw [isoformat, isoformat, String.ofList_inj] at heq
  simp only [List.append_assoc, List.cons_append] at heq
  -- the dashes part the digits of the year, the month and the day
  obtain ⟨hyear, heq⟩ := append_cons_inj dash_notMem_zeroPadded dash_notMem_zeroPadded heq
  obtain ⟨hmonth, hday⟩ := append_cons_inj dash_notMem_zeroPadded dash_notMem_zeroPadded heq
  have hyear := zeroPadded_injective _ hyear
  have hmonth := zeroPadded_injective _ hmonth
  have hday := zeroPadded_injective _ hday
  -- what is written are natural numbers, and those of dates are not negative
  have hyear : (civil d).1 = (civil d').1 := by
    have hpos := h.year
    have hpos' := h'.year
    omega
  obtain ⟨hpos, hpos'⟩ := month_day_nonneg d
  obtain ⟨hpos₁, hpos₁'⟩ := month_day_nonneg d'
  have hmonth : (civil d).2.1 = (civil d').2.1 := by omega
  have hday : (civil d).2.2 = (civil d').2.2 := by omega
  exact civil_injective (Prod.ext hyear (Prod.ext hmonth hday))

end Py
