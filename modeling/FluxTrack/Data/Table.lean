import Mathlib.Data.List.Nodup
import Mathlib.Order.Lattice
import Mathlib.Order.Nat

/-!
# Tables of keyed rows

A table is a list of rows in insertion order whose primary keys are pairwise
distinct. Distinctness is a field, so every operation carries the proof that it
keeps the key and no later argument has to ask for it again.

## Main definitions

* `Relational.Keyed` — rows that carry a primary key
* `Relational.Table` — a list of rows with pairwise distinct keys
* `Table.get?`, `Table.update`, `Table.insert` — lookup by key, update of the
  selected rows in place, insertion under a fresh key

## Main results

* `Table.get?_eq_some_iff` — lookup is membership
* `Table.mem_update`, `Table.get?_update` — what an update leaves behind
* `Table.mem_insert`, `Table.nextKey_notMem` — an insertion adds exactly one row
* `Table.update_update`, `Table.update_insert` — updates in a row
-/

namespace Relational

/-- Rows that carry a primary key. -/
class Keyed (α : Type*) where
  key : α → ℕ

export Keyed (key)

/-- A table: rows in insertion order, no two with the same key. -/
structure Table (α : Type*) [Keyed α] where
  rows : List α
  nodup : (rows.map key).Nodup
  deriving DecidableEq

namespace Table

variable {α : Type*} [Keyed α] {t : Table α} {a b : α} {k : ℕ} {p : α → Bool} {f : α → α}

instance : Membership α (Table α) where
  mem t a := a ∈ t.rows

@[simp] theorem mem_rows : a ∈ t.rows ↔ a ∈ t := Iff.rfl

@[ext] theorem ext {t u : Table α} (h : t.rows = u.rows) : t = u := by
  cases t
  cases u
  cases h
  rfl

/-- A table with no rows. -/
def empty : Table α := ⟨[], List.nodup_nil⟩

/-- The key determines the row. -/
theorem eq_of_key_eq (ha : a ∈ t) (hb : b ∈ t) (h : key a = key b) : a = b :=
  List.inj_on_of_nodup_map t.nodup ha hb h

theorem rows_nodup (t : Table α) : t.rows.Nodup :=
  t.nodup.of_map _

/-- The row stored under a key. -/
def get? (t : Table α) (k : ℕ) : Option α :=
  t.rows.find? fun a => key a == k

theorem get?_eq_some_iff : t.get? k = some a ↔ a ∈ t ∧ key a = k := by
  constructor
  · intro h
    exact ⟨List.mem_of_find?_eq_some h, by simpa using List.find?_some h⟩
  · rintro ⟨ha, hk⟩
    cases hfind : t.get? k with
    | none =>
      have hne : ¬ (key a == k) = true := List.find?_eq_none.mp hfind a ha
      exact absurd (beq_iff_eq.mpr hk) hne
    | some b =>
      have hb : b ∈ t := List.mem_of_find?_eq_some hfind
      have hkb : key b = k := by simpa using List.find?_some hfind
      rw [eq_of_key_eq ha hb (hk.trans hkb.symm)]

theorem get?_key (ha : a ∈ t) : t.get? (key a) = some a :=
  get?_eq_some_iff.mpr ⟨ha, rfl⟩

theorem get?_eq_none_iff : t.get? k = none ↔ ∀ a ∈ t, key a ≠ k := by
  rw [get?, List.find?_eq_none]
  simp

/-- Apply `f` to the rows selected by `p`, in place. -/
def update (t : Table α) (p : α → Bool) (f : α → α)
    (hf : ∀ a, key (f a) = key a := by intro _; rfl) : Table α where
  rows := t.rows.map fun a => if p a then f a else a
  nodup := by
    have hkeys : (t.rows.map fun a => if p a then f a else a).map key = t.rows.map key := by
      rw [List.map_map]
      refine List.map_congr_left fun a _ => ?_
      by_cases hp : p a <;> simp [hp, hf]
    rw [hkeys]
    exact t.nodup

variable {hf : ∀ a, key (f a) = key a}

theorem rows_update :
    (t.update p f hf).rows = t.rows.map fun a => if p a then f a else a := rfl

theorem mem_update : b ∈ t.update p f hf ↔ ∃ a ∈ t, (if p a then f a else a) = b := by
  rw [← mem_rows, rows_update, List.mem_map]
  rfl

/-- Membership after an update whose proof about keys is named. -/
theorem mem_update_iff (hf : ∀ a, key (f a) = key a) :
    b ∈ t.update p f hf ↔ ∃ a ∈ t, (if p a then f a else a) = b :=
  mem_update

theorem mem_update_of_pos (hf : ∀ a, key (f a) = key a) (ha : a ∈ t) (hp : p a = true) :
    f a ∈ t.update p f hf :=
  mem_update.mpr ⟨a, ha, if_pos hp⟩

theorem mem_update_of_neg (hf : ∀ a, key (f a) = key a) (ha : a ∈ t) (hp : p a = false) :
    a ∈ t.update p f hf :=
  mem_update.mpr ⟨a, ha, if_neg (by simp [hp])⟩

theorem key_ite_update (hf : ∀ a, key (f a) = key a) (a : α) :
    key (if p a then f a else a) = key a := by
  by_cases hp : p a
  · rw [if_pos hp, hf]
  · rw [if_neg hp]

theorem get?_update (hf : ∀ a, key (f a) = key a) :
    (t.update p f hf).get? k = (t.get? k).map fun a => if p a then f a else a := by
  cases h : t.get? k with
  | none =>
    rw [Option.map_none, get?_eq_none_iff]
    intro b hb
    obtain ⟨a, ha, rfl⟩ := mem_update.mp hb
    rw [key_ite_update hf]
    exact get?_eq_none_iff.mp h a ha
  | some a =>
    obtain ⟨ha, hk⟩ := get?_eq_some_iff.mp h
    rw [Option.map_some, get?_eq_some_iff]
    exact ⟨mem_update.mpr ⟨a, ha, rfl⟩, (key_ite_update hf a).trans hk⟩

/-- A value that an update keeps is read as before. -/
theorem map_get?_update (hf : ∀ a, key (f a) = key a) {β : Type*} {g : α → β}
    (hg : ∀ a, g (f a) = g a) :
    ((t.update p f hf).get? k).map g = (t.get? k).map g := by
  rw [get?_update, Option.map_map]
  refine congrArg (fun g' => Option.map g' _) (funext fun a => ?_)
  by_cases hp : p a = true
  · rw [Function.comp_apply, if_pos hp, hg]
  · rw [Function.comp_apply, if_neg hp]

theorem getD_get?_update [Inhabited α] (hf : ∀ a, key (f a) = key a) {β : Type*} {g : α → β}
    (hg : ∀ a, g (f a) = g a) :
    g (((t.update p f hf).get? k).getD default) = g ((t.get? k).getD default) :=
  calc g (((t.update p f hf).get? k).getD default)
      = (((t.update p f hf).get? k).map g).getD (g default) := (Option.getD_map ..).symm
    _ = ((t.get? k).map g).getD (g default) := by rw [map_get?_update hf hg]
    _ = g ((t.get? k).getD default) := Option.getD_map ..

/-- An update that changes no selected row of the table leaves it as it is. -/
theorem update_of_fixed (h : ∀ a ∈ t, p a = true → f a = a) : t.update p f hf = t := by
  ext1
  rw [rows_update]
  refine (List.map_congr_left fun a ha => ?_).trans t.rows.map_id
  by_cases hp : p a = true
  · rw [if_pos hp, h a ha hp, id]
  · rw [if_neg hp, id]

/-- An update that selects no row of the table leaves it as it is. -/
theorem update_eq_self (h : ∀ a ∈ t, p a = false) : t.update p f hf = t :=
  update_of_fixed fun a ha hp => absurd hp (by simp [h a ha])

@[simp] theorem update_false : t.update (fun _ => false) f hf = t :=
  update_eq_self fun _ _ => rfl

/-- Two updates that treat every row alike are the same update. -/
theorem update_congr {q : α → Bool} {g : α → α} {hg : ∀ a, key (g a) = key a}
    (h : ∀ a ∈ t, (if p a then f a else a) = if q a then g a else a) :
    t.update p f hf = t.update q g hg := by
  ext1
  exact List.map_congr_left h

/-- The selected rows, after an update of others that does not select them either. -/
theorem filter_update {q : α → Bool} (hf : ∀ a, key (f a) = key a)
    (h : ∀ a ∈ t, p a = true → q a = false ∧ q (f a) = false) :
    (t.update p f hf).rows.filter q = t.rows.filter q := by
  have hlist : ∀ l : List α, (∀ a ∈ l, p a = true → q a = false ∧ q (f a) = false) →
      (l.map fun a => if p a then f a else a).filter q = l.filter q := by
    intro l hl
    induction l with
    | nil => rfl
    | cons a l ih =>
      have htail := ih fun b hb => hl b (List.mem_cons_of_mem a hb)
      by_cases hp : p a = true
      · obtain ⟨hold, hnew⟩ := hl a List.mem_cons_self hp
        simp [hp, hold, hnew, htail]
      · simp [hp, List.filter_cons, htail]
  exact hlist t.rows h

/-- Two updates of the same rows are one. -/
theorem update_update {g : α → α} {hg : ∀ a, key (g a) = key a} (hp : ∀ a, p (f a) = p a) :
    (t.update p f hf).update p g hg =
      t.update p (fun a => g (f a)) fun a => (hg (f a)).trans (hf a) := by
  ext1
  rw [rows_update, rows_update, rows_update, List.map_map]
  refine List.map_congr_left fun a _ => ?_
  by_cases h : p a <;> simp [h, hp]

/-- The key the next inserted row receives. -/
def nextKey (t : Table α) : ℕ := (t.rows.map key).foldr max 0 + 1

theorem key_lt_nextKey (ha : a ∈ t) : key a < t.nextKey := by
  have hle : ∀ (l : List ℕ) (n : ℕ), n ∈ l → n ≤ l.foldr max 0 := by
    intro l n hn
    induction l with
    | nil => cases hn
    | cons m l ih =>
      rcases List.mem_cons.mp hn with rfl | hn
      · exact le_max_left _ _
      · exact (ih hn).trans (le_max_right _ _)
  exact Nat.lt_succ_of_le (hle _ _ (List.mem_map_of_mem ha))

theorem nextKey_notMem : t.nextKey ∉ t.rows.map key := by
  intro h
  obtain ⟨a, ha, hk⟩ := List.mem_map.mp h
  exact absurd hk (key_lt_nextKey ha).ne

/-- Append the row `mk` makes of a fresh key. -/
def insert (t : Table α) (mk : ℕ → α) (hmk : ∀ n, key (mk n) = n := by intro _; rfl) :
    Table α where
  rows := t.rows ++ [mk t.nextKey]
  nodup := by
    rw [List.map_append, List.map_singleton, hmk]
    refine t.nodup.append (List.nodup_singleton _) ?_
    rw [List.disjoint_singleton]
    exact nextKey_notMem

variable {mk : ℕ → α} {hmk : ∀ n, key (mk n) = n}

theorem rows_insert : (t.insert mk hmk).rows = t.rows ++ [mk t.nextKey] := rfl

theorem mem_insert : a ∈ t.insert mk hmk ↔ a ∈ t ∨ a = mk t.nextKey := by
  rw [← mem_rows, rows_insert, List.mem_append, List.mem_singleton]
  rfl

theorem filter_insert {q : α → Bool} (h : q (mk t.nextKey) = false) :
    (t.insert mk hmk).rows.filter q = t.rows.filter q := by
  simp [rows_insert, h]

theorem get?_insert_of_ne {k : ℕ} (h : k ≠ t.nextKey) : (t.insert mk hmk).get? k = t.get? k := by
  have hnew : (key (mk t.nextKey) == k) = false := by
    rw [hmk]
    exact beq_false_of_ne h.symm
  rw [get?, get?, rows_insert, List.find?_append, List.find?_cons_of_neg (by simp [hnew]),
    List.find?_nil, Option.or_none]

theorem get?_insert_nextKey : (t.insert mk hmk).get? t.nextKey = some (mk t.nextKey) :=
  get?_eq_some_iff.mpr ⟨mem_insert.mpr (.inr rfl), hmk _⟩

/-- An update of nothing but the new row changes what is inserted. -/
theorem update_insert (hold : ∀ a ∈ t, p a = false) (hnew : p (mk t.nextKey) = true) :
    (t.insert mk hmk).update p f hf =
      t.insert (fun n => f (mk n)) fun n => (hf (mk n)).trans (hmk n) := by
  ext1
  rw [rows_update, rows_insert, rows_insert, List.map_append, List.map_singleton, if_pos hnew]
  congr 1
  refine (List.map_congr_left fun a ha => ?_).trans t.rows.map_id
  simp [hold a ha]

/-- Store a row under its key, in place of the row that has it. -/
def put (t : Table α) (a : α) : Table α where
  rows :=
    if key a ∈ t.rows.map key then t.rows.map fun b => if key b = key a then a else b
    else t.rows ++ [a]
  nodup := by
    split
    · have hkeys : (t.rows.map fun b => if key b = key a then a else b).map key =
          t.rows.map key := by
        rw [List.map_map]
        refine List.map_congr_left fun b _ => ?_
        by_cases hb : key b = key a <;> simp [hb]
      rw [hkeys]
      exact t.nodup
    · rename_i hfresh
      rw [List.map_append, List.map_singleton]
      refine t.nodup.append (List.nodup_singleton _) ?_
      rw [List.disjoint_singleton]
      exact hfresh

/-- Append a row under its own key; a row whose key is taken is not stored. -/
def add (t : Table α) (a : α) : Table α :=
  if h : key a ∈ t.rows.map key then t
  else
    ⟨t.rows ++ [a], by
      rw [List.map_append, List.map_singleton]
      exact t.nodup.append (List.nodup_singleton _) (List.disjoint_singleton.mpr h)⟩

theorem mem_add : b ∈ t.add a ↔ b ∈ t ∨ b = a ∧ key a ∉ t.rows.map key := by
  rw [add]
  split
  · rename_i htaken
    simp [htaken]
  · rename_i hfresh
    rw [← mem_rows, List.mem_append, List.mem_singleton]
    simp [hfresh]

/-- Remove the rows selected by `p`. -/
def delete (t : Table α) (p : α → Bool) : Table α where
  rows := t.rows.filter fun a => !p a
  nodup := t.nodup.sublist (List.Sublist.map _ List.filter_sublist)

end Table

end Relational
