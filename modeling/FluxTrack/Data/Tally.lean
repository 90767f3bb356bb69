import Mathlib.Algebra.BigOperators.Group.List.Basic
import Mathlib.Algebra.Order.BigOperators.Group.List
import Mathlib.Algebra.Order.Group.Int
import Mathlib.Algebra.Ring.Int.Defs

/-!
# Tallies

Amounts accumulated under keys. A posting adds an amount to the entry of its key; the
total over a list of distinct keys grows by exactly the postings made to these keys.

## Main definitions

* `Tally`, `Tally.post`, `Tally.postAll` — entries and postings
* `Tally.total` — the sum of the entries of some keys

## Main results

* `total_postAll` — the total after postings to the keys it is over
* `nonneg_postAll` — postings of non-negative amounts keep the entries non-negative
-/

/-- An amount for each key. -/
def Tally (κ : Type*) := κ → ℤ

namespace Tally

variable {κ : Type*} [DecidableEq κ] {t : Tally κ} {keys : List κ} {posts : List (κ × ℤ)}

/-- No amount under any key. -/
def zero : Tally κ := fun _ => 0

/-- Add an amount to the entry of a key. -/
def post (t : Tally κ) (p : κ × ℤ) : Tally κ := fun k => if k = p.1 then t k + p.2 else t k

/-- Make postings one after another. -/
def postAll (t : Tally κ) (posts : List (κ × ℤ)) : Tally κ := posts.foldl post t

/-- The sum of the entries of some keys. -/
def total (t : Tally κ) (keys : List κ) : ℤ := (keys.map fun k => t k).sum

omit [DecidableEq κ] in
@[simp] theorem total_zero : (zero : Tally κ).total keys = 0 := by
  simp [total, zero]

theorem total_post_of_notMem {p : κ × ℤ} (h : p.1 ∉ keys) :
    (t.post p).total keys = t.total keys := by
  unfold total
  congr 1
  refine List.map_congr_left fun k hk => ?_
  have hne : k ≠ p.1 := fun heq => h (heq ▸ hk)
  simp [post, hne]

theorem total_post (hnodup : keys.Nodup) {p : κ × ℤ} (h : p.1 ∈ keys) :
    (t.post p).total keys = t.total keys + p.2 := by
  induction keys with
  | nil => cases h
  | cons k keys ih =>
    obtain ⟨hk, hnodup⟩ := List.nodup_cons.mp hnodup
    have hcons : ∀ u : Tally κ, u.total (k :: keys) = u k + u.total keys := fun u => by
      simp [total]
    rw [hcons, hcons]
    by_cases heq : k = p.1
    · rw [total_post_of_notMem (heq ▸ hk), post, if_pos heq]
      omega
    · rw [ih hnodup ((List.mem_cons.mp h).resolve_left (Ne.symm heq)), post, if_neg heq]
      omega

/-- Postings to keys of a list add up in its total. -/
theorem total_postAll (hnodup : keys.Nodup) (h : ∀ p ∈ posts, p.1 ∈ keys) :
    (t.postAll posts).total keys = t.total keys + (posts.map Prod.snd).sum := by
  induction posts generalizing t with
  | nil => simp [postAll]
  | cons p posts ih =>
    have hrest := fun q hq => h q (List.mem_cons_of_mem p hq)
    calc (t.postAll (p :: posts)).total keys
        = (t.post p).total keys + (posts.map Prod.snd).sum := ih hrest
      _ = t.total keys + p.2 + (posts.map Prod.snd).sum := by
        rw [total_post hnodup (h p List.mem_cons_self)]
      _ = t.total keys + ((p :: posts).map Prod.snd).sum := by
        rw [List.map_cons, List.sum_cons, add_assoc]

theorem nonneg_postAll (ht : ∀ k, 0 ≤ t k) (h : ∀ p ∈ posts, 0 ≤ p.2) (k : κ) :
    0 ≤ t.postAll posts k := by
  induction posts generalizing t with
  | nil => exact ht k
  | cons p posts ih =>
    refine ih (fun k => ?_) fun q hq => h q (List.mem_cons_of_mem p hq)
    have hk := ht k
    have hp := h p List.mem_cons_self
    unfold post
    split <;> omega

end Tally
