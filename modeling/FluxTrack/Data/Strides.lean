import Mathlib.Algebra.Order.Archimedean.Basic
import Mathlib.Data.List.Pairwise

/-!
# Strides

The loop `while cursor + step ≤ limit` that takes the interval from the cursor to one step
further and goes on from its end. It answers with the intervals that it keeps. A step forward
brings it to the limit after finitely many rounds; without one it is where it was, or further
back, and never gets there.

## Main definitions

* `walk` — the loop, with a bound on the number of times its condition is evaluated

## Main results

* `walk_ends_iff` — the loop ends iff the step is positive or the first one is too long
* `interval_of_walk`, `pairwise_of_walk` — the intervals it answers with
* `mapM_ends_iff` — such searches one after another
-/

namespace Strides

variable {α : Type*} [AddCommGroup α] [LinearOrder α]

/-- The intervals kept by the loop, or none where `fuel` evaluations of its condition do not
reach its end. -/
def walk (step limit : α) (keep : α → α → Bool) : ℕ → α → Option (List (α × α))
  | 0, _ => none
  | fuel + 1, cursor =>
    if cursor + step ≤ limit then
      (walk step limit keep fuel (cursor + step)).map fun more =>
        if keep cursor (cursor + step) then (cursor, cursor + step) :: more else more
    else some []

variable {step limit cursor : α} {keep : α → α → Bool} {fuel : ℕ} {l : List (α × α)}

theorem walk_succ_of_le (h : cursor + step ≤ limit) :
    walk step limit keep (fuel + 1) cursor =
      (walk step limit keep fuel (cursor + step)).map fun more =>
        if keep cursor (cursor + step) then (cursor, cursor + step) :: more else more := by
  rw [walk, if_pos h]

theorem walk_succ_of_lt (h : limit < cursor + step) :
    walk step limit keep (fuel + 1) cursor = some [] := by
  rw [walk, if_neg (not_le.mpr h)]

/-- More fuel does not change the answer. -/
theorem walk_add (h : walk step limit keep fuel cursor = some l) (n : ℕ) :
    walk step limit keep (fuel + n) cursor = some l := by
  induction fuel generalizing cursor l with
  | zero => cases h
  | succ fuel ih =>
    rw [Nat.succ_add]
    rcases le_or_gt (cursor + step) limit with hle | hlt
    · rw [walk_succ_of_le hle] at h ⊢
      obtain ⟨more, hmore, rfl⟩ := Option.map_eq_some_iff.mp h
      rw [ih hmore, Option.map_some]
    · rw [walk_succ_of_lt hlt] at h ⊢
      exact h

/-- With a step forward, as many rounds are enough as steps lead to the limit. -/
theorem exists_walk_of_lt {n : ℕ} (h : limit < cursor + (n + 1) • step) :
    ∃ l, walk step limit keep (n + 1) cursor = some l := by
  induction n generalizing cursor with
  | zero =>
    rw [zero_add, one_nsmul] at h
    exact ⟨[], walk_succ_of_lt h⟩
  | succ n ih =>
    rcases le_or_gt (cursor + step) limit with hle | hlt
    · obtain ⟨more, hmore⟩ := @ih (cursor + step) (by rwa [add_assoc, ← succ_nsmul'])
      exact ⟨_, (walk_succ_of_le hle).trans (by rw [hmore, Option.map_some])⟩
    · exact ⟨[], walk_succ_of_lt hlt⟩

variable [IsOrderedAddMonoid α]

/-- Without a step forward the condition stays true. -/
theorem walk_eq_none (hstep : step ≤ 0) (h : cursor + step ≤ limit) :
    walk step limit keep fuel cursor = none := by
  induction fuel generalizing cursor with
  | zero => rfl
  | succ fuel ih =>
    rw [walk_succ_of_le h, ih, Option.map_none]
    exact (add_le_of_nonpos_right hstep).trans h

/-- The loop ends iff the step is positive or the first one is too long. -/
theorem walk_ends_iff [Archimedean α] :
    (∃ fuel l, walk step limit keep fuel cursor = some l) ↔
      0 < step ∨ limit < cursor + step := by
  constructor
  · rintro ⟨fuel, l, hends⟩
    by_contra hnot
    rw [not_or, not_lt, not_lt] at hnot
    rw [walk_eq_none hnot.1 hnot.2] at hends
    cases hends
  · rintro (hstep | hlong)
    · obtain ⟨n, hn⟩ := Archimedean.arch (limit - cursor) hstep
      refine ⟨n + 1, exists_walk_of_lt (lt_of_le_of_lt (sub_le_iff_le_add'.mp hn) ?_)⟩
      rw [succ_nsmul, ← add_assoc]
      exact lt_add_of_pos_right _ hstep
    · exact ⟨1, [], walk_succ_of_lt hlong⟩

/-- An interval that the loop answers with. -/
theorem interval_of_walk (hstep : 0 < step)
    (h : walk step limit keep fuel cursor = some l) {x : α × α} (hx : x ∈ l) :
    cursor ≤ x.1 ∧ x.2 = x.1 + step ∧ x.2 ≤ limit ∧ keep x.1 x.2 = true := by
  induction fuel generalizing cursor l with
  | zero => cases h
  | succ fuel ih =>
    rcases le_or_gt (cursor + step) limit with hle | hlt
    · rw [walk_succ_of_le hle] at h
      obtain ⟨more, hmore, rfl⟩ := Option.map_eq_some_iff.mp h
      have hlater : x ∈ more →
          cursor ≤ x.1 ∧ x.2 = x.1 + step ∧ x.2 ≤ limit ∧ keep x.1 x.2 = true := fun hx => by
        obtain ⟨hstart, hrest⟩ := ih hmore hx
        exact ⟨(le_add_of_nonneg_right hstep.le).trans hstart, hrest⟩
      split at hx
      · rename_i hkeep
        rcases List.mem_cons.mp hx with rfl | hx
        · exact ⟨le_rfl, rfl, hle, hkeep⟩
        · exact hlater hx
      · exact hlater hx
    · rw [walk_succ_of_lt hlt] at h
      cases h
      cases hx

/-- The intervals that the loop answers with follow each other. -/
theorem pairwise_of_walk (hstep : 0 < step)
    (h : walk step limit keep fuel cursor = some l) : l.Pairwise fun x y => x.2 ≤ y.1 := by
  induction fuel generalizing cursor l with
  | zero => cases h
  | succ fuel ih =>
    rcases le_or_gt (cursor + step) limit with hle | hlt
    · rw [walk_succ_of_le hle] at h
      obtain ⟨more, hmore, rfl⟩ := Option.map_eq_some_iff.mp h
      split
      · exact List.pairwise_cons.mpr
          ⟨fun y hy => (interval_of_walk hstep hmore hy).1, ih hmore⟩
      · exact ih hmore
    · rw [walk_succ_of_lt hlt] at h
      cases h
      exact List.Pairwise.nil

/-! ### Searches in a list -/

section

variable {β γ : Type*}

theorem mapM_cons_eq_some {f : β → Option γ} {a : β} {l : List β} {r : List γ} :
    (a :: l).mapM f = some r ↔
      ∃ b more, f a = some b ∧ l.mapM f = some more ∧ b :: more = r := by
  rw [List.mapM_cons]
  simp only [Option.bind_eq_bind, Option.bind_eq_some_iff, Option.pure_def, Option.some.injEq]
  constructor
  · rintro ⟨b, hb, more, hmore, hr⟩
    exact ⟨b, more, hb, hmore, hr⟩
  · rintro ⟨b, more, hb, hmore, hr⟩
    exact ⟨b, hb, more, hmore, hr⟩

variable {f : ℕ → β → Option γ}

/-- Searches that keep their answers with more fuel, one after another. -/
theorem mapM_add (hkeeps : ∀ fuel n a b, f fuel a = some b → f (fuel + n) a = some b) {l : List β}
    {fuel : ℕ} {r : List γ} (h : l.mapM (f fuel) = some r) (n : ℕ) :
    l.mapM (f (fuel + n)) = some r := by
  induction l generalizing r with
  | nil => exact h
  | cons a l ih =>
    obtain ⟨b, more, hb, hmore, rfl⟩ := mapM_cons_eq_some.mp h
    exact mapM_cons_eq_some.mpr ⟨b, more, hkeeps fuel n a b hb, ih hmore, rfl⟩

/-- A list of such searches ends iff each of them does. -/
theorem mapM_ends_iff (hkeeps : ∀ fuel n a b, f fuel a = some b → f (fuel + n) a = some b)
    {l : List β} :
    (∃ fuel r, l.mapM (f fuel) = some r) ↔ ∀ a ∈ l, ∃ fuel b, f fuel a = some b := by
  induction l with
  | nil => exact iff_of_true ⟨0, [], rfl⟩ fun a ha => absurd ha List.not_mem_nil
  | cons a l ih =>
    refine Iff.trans ⟨?_, ?_⟩ (List.forall_mem_cons.trans (and_congr_right fun _ => ih.symm)).symm
    · rintro ⟨fuel, r, h⟩
      obtain ⟨b, more, hb, hmore, -⟩ := mapM_cons_eq_some.mp h
      exact ⟨⟨fuel, b, hb⟩, fuel, more, hmore⟩
    · rintro ⟨⟨fuel, b, hb⟩, fuel', more, hmore⟩
      refine ⟨fuel + fuel', b :: more, mapM_cons_eq_some.mpr ⟨b, more, ?_, ?_, rfl⟩⟩
      · exact hkeeps fuel fuel' a b hb
      · rw [Nat.add_comm]
        exact mapM_add hkeeps hmore fuel

end

end Strides
