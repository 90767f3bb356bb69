import FluxTrack.Data.Table

/-!
# References and unique columns

A reference is a key that some row of a table has. A column is unique if no two rows agree in it.

## Main definitions

* `Table.Has` — a row has the key
* `Table.Unique` — no two rows agree in a column

## Main results

* `Table.has_update`, `Table.has_insert`, `Table.has_delete_iff` — the references that remain
* `Table.Unique.insert`, `Table.Unique.update_key`, `Table.Unique.delete` — unique columns remain so
-/

namespace Relational

namespace Table

variable {α β : Type*} [Keyed α] {t : Table α} {a : α} {k : ℕ} {p : α → Bool} {f : α → α}
  {hf : ∀ a, key (f a) = key a} {mk : ℕ → α} {hmk : ∀ n, key (mk n) = n} {g : α → β}

theorem mem_delete : a ∈ t.delete p ↔ a ∈ t ∧ p a = false := by
  have hmem : a ∈ t.delete p ↔ a ∈ t ∧ (!p a) = true := List.mem_filter
  rw [hmem, Bool.not_eq_true']

/-! ### References -/

/-- A row has the key. -/
def Has (t : Table α) (k : ℕ) : Prop := ∃ a ∈ t, key a = k

theorem has_of_get? (h : t.get? k = some a) : t.Has k := ⟨a, get?_eq_some_iff.mp h⟩

@[simp] theorem has_update : (t.update p f hf).Has k ↔ t.Has k := by
  constructor
  · rintro ⟨b, hb, rfl⟩
    obtain ⟨a, ha, rfl⟩ := mem_update.mp hb
    exact ⟨a, ha, (key_ite_update hf a).symm⟩
  · rintro ⟨a, ha, rfl⟩
    exact ⟨_, mem_update.mpr ⟨a, ha, rfl⟩, key_ite_update hf a⟩

/-- `has_update` where the proof about the keys is not in the goal. -/
theorem has_update_iff (hf : ∀ a, key (f a) = key a) : (t.update p f hf).Has k ↔ t.Has k :=
  has_update

@[simp] theorem has_insert : (t.insert mk hmk).Has k ↔ t.Has k ∨ k = t.nextKey := by
  constructor
  · rintro ⟨a, ha, rfl⟩
    rcases mem_insert.mp ha with ha | rfl
    · exact .inl ⟨a, ha, rfl⟩
    · exact .inr (hmk _)
  · rintro (⟨a, ha, rfl⟩ | rfl)
    · exact ⟨a, mem_insert.mpr (.inl ha), rfl⟩
    · exact ⟨_, mem_insert.mpr (.inr rfl), hmk _⟩

/-- A row is still there after an update, with what holds of it before and after. -/
theorem exists_mem_update (hf : ∀ a, key (f a) = key a) {P : α → Prop} (ha : a ∈ t) (hold : P a)
    (hnew : P (f a)) :
    ∃ b ∈ t.update p f hf, key b = key a ∧ P b := by
  refine ⟨_, mem_update.mpr ⟨a, ha, rfl⟩, key_ite_update hf a, ?_⟩
  split
  · exact hnew
  · exact hold

theorem has_delete_iff : (t.delete p).Has k ↔ ∃ a ∈ t, key a = k ∧ p a = false := by
  constructor
  · rintro ⟨a, ha, hk⟩
    obtain ⟨ha, hp⟩ := mem_delete.mp ha
    exact ⟨a, ha, hk, hp⟩
  · rintro ⟨a, ha, hk, hp⟩
    exact ⟨a, mem_delete.mpr ⟨ha, hp⟩, hk⟩

/-- A reference to a row that stays. -/
theorem Has.delete (h : t.Has k) (hp : ∀ a ∈ t, key a = k → p a = false) : (t.delete p).Has k := by
  obtain ⟨a, ha, hk⟩ := h
  exact has_delete_iff.mpr ⟨a, ha, hk, hp a ha hk⟩

/-! ### Unique columns -/

/-- No two rows agree in the column. -/
def Unique (t : Table α) (g : α → β) : Prop := ∀ a ∈ t, ∀ b ∈ t, g a = g b → a = b

theorem Unique.insert (h : t.Unique g) (hnew : ∀ a ∈ t, g a ≠ g (mk t.nextKey)) :
    (t.insert mk hmk).Unique g := by
  intro a ha b hb heq
  rcases mem_insert.mp ha with ha | rfl <;> rcases mem_insert.mp hb with hb | rfl
  · exact h a ha b hb heq
  · exact absurd heq (hnew a ha)
  · exact absurd heq.symm (hnew b hb)
  · rfl

/-- An update that leaves the column alone. -/
theorem Unique.update (h : t.Unique g) (hcol : ∀ a, g (f a) = g a) :
    (t.update p f hf).Unique g := by
  have hsame : ∀ a, g (if p a then f a else a) = g a := by
    intro a
    split
    · exact hcol a
    · rfl
  intro b hb c hc heq
  obtain ⟨a, ha, rfl⟩ := mem_update.mp hb
  obtain ⟨a', ha', rfl⟩ := mem_update.mp hc
  rw [hsame, hsame] at heq
  rw [h a ha a' ha' heq]

/-- The same where the proof about the keys is not in the goal. -/
theorem Unique.update_of (hf : ∀ a, key (f a) = key a) (h : t.Unique g) (hcol : ∀ a, g (f a) = g a) :
    (t.update p f hf).Unique g :=
  h.update hcol

/-- An update of one row to a value that no other row has. -/
theorem Unique.update_key (h : t.Unique g)
    (hcol : ∀ a ∈ t, key a = k → ∀ b ∈ t, key b ≠ k → g (f a) ≠ g b) :
    (t.update (fun a => key a == k) f hf).Unique g := by
  intro b hb c hc heq
  obtain ⟨a, ha, rfl⟩ := mem_update.mp hb
  obtain ⟨a', ha', rfl⟩ := mem_update.mp hc
  by_cases hk : key a = k <;> by_cases hk' : key a' = k
  · rw [eq_of_key_eq ha ha' (hk.trans hk'.symm)]
  · simp only [hk, hk', beq_self_eq_true, beq_iff_eq, if_true, if_false] at heq
    exact absurd heq (hcol a ha hk a' ha' hk')
  · simp only [hk, hk', beq_self_eq_true, beq_iff_eq, if_true, if_false] at heq
    exact absurd heq.symm (hcol a' ha' hk' a ha hk)
  · simp only [hk, hk', beq_iff_eq, if_false] at heq ⊢
    exact h a ha a' ha' heq

/-- A look up by a unique column finds the row. -/
theorem Unique.find? [DecidableEq β] (h : t.Unique g) (ha : a ∈ t) :
    t.rows.find? (fun b => g b == g a) = some a := by
  cases hfind : t.rows.find? (fun b => g b == g a) with
  | none => exact absurd (beq_self_eq_true _) (List.find?_eq_none.mp hfind a ha)
  | some b =>
    have hsame := List.find?_some hfind
    exact congrArg some (h b (List.mem_of_find?_eq_some hfind) a ha (beq_iff_eq.mp hsame))

theorem Unique.delete (h : t.Unique g) : (t.delete p).Unique g := fun a ha b hb heq =>
  h a (mem_delete.mp ha).1 b (mem_delete.mp hb).1 heq

end Table

end Relational
