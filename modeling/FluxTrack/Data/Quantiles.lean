import Mathlib.Algebra.Order.Floor.Div
import Mathlib.Data.List.MinMax
import Mathlib.Data.List.Sort

/-!
# Quantiles by rank

The rank of a value in a list is the number of entries that do not exceed it. Scaled to `m`
buckets and rounded up, the rank tells the values of the list apart by how far up the list they
stand: equal values share a bucket, a greatest one is in the last, and the first `k` buckets
never hold more than their share.

## Main definitions

* `Quantiles.rank` — the number of entries up to a value
* `Quantiles.bucket` — the rank, scaled to a number of buckets

## Main results

* `idxOf_add_count_eq_rank` — the rank, read off a sorted list
* `bucket_le_iff`, `bucket_mono`, `bucket_of_max` — which bucket a value is in
* `mul_countP_bucket_le` — the share of the first buckets
-/

namespace Quantiles

variable {α : Type*} [LinearOrder α] {l : List α} {v w : α} {m k : ℕ}

/-- The number of entries up to a value. -/
def rank (l : List α) (v : α) : ℕ := l.countP fun w => decide (w ≤ v)

theorem rank_mono (h : v ≤ w) : rank l v ≤ rank l w :=
  List.countP_mono_left fun _ _ hx => decide_eq_true ((of_decide_eq_true hx).trans h)

theorem rank_le_length : rank l v ≤ l.length := List.countP_le_length

theorem rank_pos (hv : v ∈ l) : 0 < rank l v :=
  List.countP_pos_iff.mpr ⟨v, hv, decide_eq_true le_rfl⟩

theorem rank_eq_length (h : ∀ w ∈ l, w ≤ v) : rank l v = l.length :=
  List.countP_eq_length.mpr fun w hw => decide_eq_true (h w hw)

/-- In a sorted list the entries up to a value are those before its first place and itself, as
often as it comes. -/
theorem idxOf_add_count_eq_rank (hsorted : l.Pairwise (· ≤ ·)) (hv : v ∈ l) :
    l.idxOf v + l.count v = rank l v := by
  unfold rank
  induction l with
  | nil => cases hv
  | cons a l ih =>
    obtain ⟨hle, hsorted⟩ := List.pairwise_cons.mp hsorted
    by_cases ha : a = v
    · -- nothing stands before it, and what is not equal is greater
      subst ha
      have hcount : l.countP (fun w => decide (w ≤ a)) = l.count a :=
        List.countP_congr fun w hw => by
          rw [decide_eq_true_iff, beq_iff_eq]
          exact ⟨fun h => le_antisymm h (hle w hw), fun h => h.le⟩
      simp [hcount]
    · have hmem := (List.mem_cons.mp hv).resolve_left (Ne.symm ha)
      have hpos : decide (a ≤ v) = true := decide_eq_true (hle v hmem)
      rw [List.idxOf_cons_ne l ha, List.count_cons_of_ne ha,
        List.countP_cons_of_pos (p := fun w => decide (w ≤ v)) hpos, ← ih hsorted hmem]
      omega

/-- The bucket of a value among `m`, counted from one. -/
def bucket (m : ℕ) (l : List α) (v : α) : ℕ := (rank l v * m) ⌈/⌉ l.length

theorem bucket_le_iff (hv : v ∈ l) : bucket m l v ≤ k ↔ rank l v * m ≤ l.length * k :=
  ceilDiv_le_iff_le_mul (List.length_pos_of_mem hv)

theorem bucket_le (hv : v ∈ l) : bucket m l v ≤ m :=
  (bucket_le_iff hv).mpr (Nat.mul_le_mul_right m rank_le_length)

theorem bucket_pos (hm : 0 < m) (hv : v ∈ l) : 0 < bucket m l v := by
  by_contra hzero
  have hle := (bucket_le_iff hv).mp (not_lt.mp hzero)
  exact absurd hle (not_le.mpr (Nat.mul_pos (rank_pos hv) hm))

theorem bucket_mono (hv : v ∈ l) (hw : w ∈ l) (h : v ≤ w) : bucket m l v ≤ bucket m l w :=
  (bucket_le_iff hv).mpr
    ((Nat.mul_le_mul_right m (rank_mono h)).trans ((bucket_le_iff hw).mp le_rfl))

/-- A greatest value is in the last bucket. -/
theorem bucket_of_max (hv : v ∈ l) (hmax : ∀ w ∈ l, w ≤ v) : bucket m l v = m := by
  refine le_antisymm (bucket_le hv) ?_
  have hle := (bucket_le_iff hv).mp (le_refl (bucket m l v))
  rw [rank_eq_length hmax] at hle
  exact Nat.le_of_mul_le_mul_left hle (List.length_pos_of_mem hv)

/-- The first `k` buckets hold no more than `k` parts in `m` of the list. -/
theorem mul_countP_bucket_le (m k : ℕ) (l : List α) :
    m * l.countP (fun v => decide (bucket m l v ≤ k)) ≤ k * l.length := by
  cases hmax : (l.filter fun v => decide (bucket m l v ≤ k)).maximum with
  | bot =>
    rw [List.maximum_eq_bot] at hmax
    rw [List.countP_eq_length_filter, hmax]
    simp
  | coe top =>
    -- they are entries up to the greatest of them, whose rank is small enough
    have hmem := List.maximum_mem hmax
    obtain ⟨htop, hbucket⟩ := List.mem_filter.mp hmem
    have hcount : l.countP (fun v => decide (bucket m l v ≤ k)) ≤ rank l top :=
      List.countP_mono_left fun v hv hsmall => decide_eq_true
        (List.le_maximum_of_mem (List.mem_filter.mpr ⟨hv, hsmall⟩) hmax)
    have hrank := (bucket_le_iff htop).mp (of_decide_eq_true hbucket)
    calc m * l.countP (fun v => decide (bucket m l v ≤ k))
        ≤ m * rank l top := Nat.mul_le_mul_left m hcount
      _ = rank l top * m := Nat.mul_comm _ _
      _ ≤ l.length * k := hrank
      _ = k * l.length := Nat.mul_comm _ _

end Quantiles
