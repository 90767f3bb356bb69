import Mathlib.Data.List.Basic
import Mathlib.Data.List.MinMax

/-!
# The first entry with a property

A search through a list that stops at the first hit: what it means that an entry is the
first one with a property, and searches that fall back from a narrower property to a wider
one.

## Main definitions

* `First p l a` — `a` is the first entry of `l` with `p`

## Main results

* `find?_eq_some_iff_first` — the search finds the first entry
* `find?_or_eq_some_iff` — a search with a fallback
* `First.of_imp` — the first entry among fewer candidates
* `first_of_argmax` — the search for a greatest value finds the first entry with it
-/

namespace Search

variable {α : Type*} {p q : α → Prop} {l : List α} {a b : α}

/-- `a` is the first entry of the list with the property. -/
def First (p : α → Prop) (l : List α) (a : α) : Prop :=
  p a ∧ ∃ ahead behind, l = ahead ++ a :: behind ∧ ∀ b ∈ ahead, ¬ p b

theorem First.prop (h : First p l a) : p a := h.1

theorem First.mem (h : First p l a) : a ∈ l := by
  obtain ⟨-, ahead, behind, rfl, -⟩ := h
  exact List.mem_append_right ahead List.mem_cons_self

theorem find?_eq_some_iff_first {p : α → Bool} :
    l.find? p = some a ↔ First (fun x => p x = true) l a := by
  simp only [First, List.find?_eq_some_iff_append, Bool.not_eq_true', Bool.not_eq_true]

theorem first_iff_find? [DecidablePred p] :
    First p l a ↔ l.find? (fun x => decide (p x)) = some a := by
  simp only [find?_eq_some_iff_first, decide_eq_true_eq]

theorem first_cons_iff {x : α} : First p (x :: l) a ↔ p x ∧ a = x ∨ ¬ p x ∧ First p l a := by
  classical
  simp only [first_iff_find?, List.find?_cons]
  by_cases hx : p x
  · simp [hx, eq_comm]
  · simp [hx]

/-- A list has one first entry. -/
theorem First.unique (ha : First p l a) (hb : First p l b) : a = b := by
  classical
  rw [first_iff_find?] at ha hb
  exact Option.some_inj.mp (ha.symm.trans hb)

theorem exists_first_iff : (∃ a, First p l a) ↔ ∃ a ∈ l, p a := by
  classical
  simp only [first_iff_find?, ← Option.isSome_iff_exists, List.find?_isSome, decide_eq_true_eq]

/-- The first entry of a part of the list. -/
theorem first_filter_iff {q : α → Bool} :
    First p (l.filter q) a ↔ First (fun x => q x = true ∧ p x) l a := by
  classical
  simp only [first_iff_find?, List.find?_filter, decide_eq_true_eq]

/-- The first entry with a property is the first one with each narrower property it has. -/
theorem First.of_imp (h : First p l a) (himp : ∀ x ∈ l, q x → p x) (ha : q a) : First q l a := by
  obtain ⟨-, ahead, behind, rfl, hahead⟩ := h
  exact ⟨ha, ahead, behind, rfl, fun b hb hq =>
    hahead b hb (himp b (List.mem_append_left _ hb) hq)⟩

theorem first_congr (h : ∀ x ∈ l, p x ↔ q x) : First p l a ↔ First q l a := by
  constructor
  · intro hp
    exact hp.of_imp (fun x hx => (h x hx).mpr) ((h a hp.mem).mp hp.prop)
  · intro hq
    exact hq.of_imp (fun x hx => (h x hx).mp) ((h a hq.mem).mpr hq.prop)

/-- The first entry is not behind an entry that has the property. -/
theorem First.eq_or_mem_ahead {ahead behind : List α} (h : First p (ahead ++ b :: behind) a)
    (hb : p b) : a = b ∨ a ∈ ahead := by
  classical
  rw [first_iff_find?, List.find?_append, List.find?_cons_of_pos (by simpa using hb),
    Option.or_eq_some_iff] at h
  rcases h with h | ⟨-, h⟩
  · exact .inr (List.mem_of_find?_eq_some h)
  · exact .inl (Option.some_inj.mp h).symm

/-- The search for a greatest value finds the first entry that has it. -/
theorem first_of_argmax [DecidableEq α] {β : Type*} [LinearOrder β] {f : α → β}
    (h : l.argmax f = some a) : First (fun x => ∀ b ∈ l, f b ≤ f x) l a := by
  obtain ⟨hmem, hmax, hfirst⟩ := List.argmax_eq_some_iff.mp h
  obtain ⟨ahead, behind, rfl, hnotMem⟩ := List.eq_append_cons_of_mem hmem
  refine ⟨hmax, ahead, behind, rfl, fun b hb hbmax => ?_⟩
  -- an entry ahead with the same value has a smaller index
  have hle := hfirst b (List.mem_append_left _ hb) (hbmax a hmem)
  rw [List.idxOf_append_of_notMem hnotMem, List.idxOf_cons_self,
    List.idxOf_append_of_mem hb] at hle
  have hlt := List.idxOf_lt_length_of_mem hb
  omega

/-- The search over images searches by the image. -/
theorem argmax_map {β γ : Type*} [LinearOrder γ] (f : β → γ) (g : α → β) (l : List α) :
    (l.map g).argmax f = (l.argmax fun a => f (g a)).map g := by
  induction l with
  | nil => rfl
  | cons a l ih =>
    rw [List.map_cons, List.argmax_cons, List.argmax_cons, ih]
    cases l.argmax fun a => f (g a) with
    | none => rfl
    | some b =>
      dsimp only [Option.map_some]
      split <;> rfl

/-- A search that falls back to a wider property finds the first entry with the narrower one,
and without one the first entry with the wider one. -/
theorem find?_or_eq_some_iff {p q : α → Bool} :
    (l.find? p).or (l.find? q) = some a ↔
      First (fun x => p x = true) l a ∨
        ((∀ x ∈ l, p x = false) ∧ First (fun x => q x = true) l a) := by
  rw [Option.or_eq_some_iff, find?_eq_some_iff_first, find?_eq_some_iff_first, List.find?_eq_none]
  simp only [Bool.not_eq_true]

end Search
