import Mathlib

/-!
# Sums over the fibers of a list

A list is grouped by a key. What is added up group by group, over distinct keys, is what is
added up over the members of the list whose key is among them.

## Main results

* `sum_filter_or` — the sum over a list splits along disjoint selections
* `sum_fibers`, `sum_fibers_of_forall_mem` — the groups of a list add up
* `sum_length_fibers` — the sizes of the groups add up
* `sum_map_sum_comm` — a double sum over two lists in either order
* `sum_cover` — what a cover adds up, if it covers each selected member once and no other
-/

namespace Fibers

variable {α κ M : Type*} [BEq κ] [LawfulBEq κ] [AddCommMonoid M] {l : List α} {keys : List κ}
  {p q : α → Bool}

theorem sum_filter_or (g : α → M) (hdisjoint : ∀ a ∈ l, p a = true → q a = false) :
    ((l.filter fun a => p a || q a).map g).sum =
      ((l.filter p).map g).sum + ((l.filter q).map g).sum := by
  induction l with
  | nil => simp
  | cons a l ih =>
    have ih := ih fun b hb => hdisjoint b (List.mem_cons_of_mem a hb)
    -- a member that both select would be counted twice on the right
    cases hp : p a with
    | true =>
      have hq := hdisjoint a List.mem_cons_self hp
      simp [hp, hq, ih, add_assoc]
    | false =>
      cases hq : q a with
      | true => simp [hp, hq, ih, add_left_comm]
      | false => simp [hp, hq, ih]

/-- The groups under distinct keys add up. -/
theorem sum_fibers (f : α → κ) (g : α → M) (hnodup : keys.Nodup) :
    (keys.map fun k => ((l.filter fun a => f a == k).map g).sum).sum =
      ((l.filter fun a => keys.contains (f a)).map g).sum := by
  -- on the keys: the group of a new key is disjoint from those under the others
  induction keys with
  | nil => simp
  | cons k keys ih =>
    obtain ⟨hk, hnodup⟩ := List.nodup_cons.mp hnodup
    have hdisjoint : ∀ a ∈ l, (f a == k) = true → keys.contains (f a) = false := by
      intro a _ heq
      rw [eq_of_beq heq, Bool.eq_false_iff, ne_eq, List.contains_iff_mem]
      exact hk
    calc ((k :: keys).map fun k => ((l.filter fun a => f a == k).map g).sum).sum
        = ((l.filter fun a => f a == k).map g).sum +
            ((l.filter fun a => keys.contains (f a)).map g).sum := by
          rw [List.map_cons, List.sum_cons, ih hnodup]
      _ = ((l.filter fun a => f a == k || keys.contains (f a)).map g).sum :=
          (sum_filter_or g hdisjoint).symm
      _ = ((l.filter fun a => (k :: keys).contains (f a)).map g).sum := by
          simp only [List.contains_cons]

/-- The groups of a list add up, when every member has its group. -/
theorem sum_fibers_of_forall_mem {f : α → κ} (g : α → M) (hnodup : keys.Nodup)
    (hall : ∀ a ∈ l, f a ∈ keys) :
    (keys.map fun k => ((l.filter fun a => f a == k).map g).sum).sum = (l.map g).sum := by
  rw [sum_fibers f g hnodup,
    List.filter_eq_self.mpr fun a ha => List.contains_iff_mem.mpr (hall a ha)]

/-- The sizes of the groups of a list add up. -/
theorem sum_length_fibers {f : α → κ} (p : α → Bool) (hnodup : keys.Nodup)
    (hall : ∀ a ∈ l, f a ∈ keys) :
    (keys.map fun k => ((l.filter fun a => f a == k).filter p).length).sum =
      (l.filter p).length := by
  have hlength : ∀ l : List α, l.length = (l.map fun _ => 1).sum := fun l => by simp
  have hgroup : ∀ k, ((l.filter fun a => f a == k).filter p).length =
      (((l.filter p).filter fun a => f a == k).map fun _ => 1).sum := by
    intro k
    rw [← hlength, List.filter_filter, List.filter_filter]
    simp only [Bool.and_comm]
  rw [List.map_congr_left fun k _ => hgroup k,
    sum_fibers_of_forall_mem _ hnodup fun a ha => hall a (List.mem_filter.mp ha).1, ← hlength]

omit [BEq κ] [LawfulBEq κ] in
theorem sum_map_sum_comm (g : α → κ → M) (l : List α) (keys : List κ) :
    (l.map fun a => (keys.map fun k => g a k).sum).sum =
      (keys.map fun k => (l.map fun a => g a k).sum).sum := by
  induction l with
  | nil => simp
  | cons a l ih =>
    simp only [List.map_cons, List.sum_cons, ih]
    exact List.sum_map_add.symm

omit [BEq κ] [LawfulBEq κ] in
/-- A cover that has each selected member once, and no other, adds up to the selection. -/
theorem sum_cover {c : κ → α → Bool} (g : α → M)
    (honce : ∀ a ∈ l, keys.countP (fun k => c k a) = if p a then 1 else 0) :
    (keys.map fun k => ((l.filter (c k)).map g).sum).sum = ((l.filter p).map g).sum := by
  induction l with
  | nil => simp
  | cons a l ih =>
    have hgroup : ∀ k, (((a :: l).filter (c k)).map g).sum =
        (if c k a then g a else 0) + ((l.filter (c k)).map g).sum := by
      intro k
      cases hk : c k a <;> simp [hk]
    have hmember : (keys.map fun k => if c k a then g a else 0).sum =
        keys.countP (fun k => c k a) • g a := by
      rw [List.sum_map_ite, List.sum_map_zero, add_zero, List.map_const', List.sum_replicate,
        List.countP_eq_length_filter]
      simp
    simp only [hgroup]
    rw [List.sum_map_add, hmember, honce a List.mem_cons_self,
      ih fun b hb => honce b (List.mem_cons_of_mem a hb)]
    cases hp : p a <;> simp [hp]

end Fibers
