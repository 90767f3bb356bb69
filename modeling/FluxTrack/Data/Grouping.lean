import Mathlib.Data.List.AList
import Mathlib.Data.List.Sort
import Mathlib.Order.MinMax

/-!
# Dictionaries filled in one pass

A pass over a list updates the entry of each member's key, with an initial value where there is
none yet. What stands under a key afterwards is what the pass makes of the members with that key.

## Main definitions

* `Dict`, `Dict.update` — dictionaries, `setdefault` and an update in place
* `Dict.collect` — the pass over a list
* `Dict.sortedItems` — the entries in the order of their keys

## Main results

* `lookup_collect`, `mem_collect` — the entries after the pass
* `mem_sortedItems`, `pairwise_sortedItems` — each entry once, in order
* `write_of_mem`, `write_of_forall_not` — what writes to one place leave there
-/

variable {α κ β : Type*}

/-- A dictionary. -/
abbrev Dict (κ β : Type*) := AList fun _ : κ => β

namespace Dict

section

variable [DecidableEq κ] {d : Dict κ β} {k k' : κ} {b : β} {key : α → κ} {first : α → β}
  {add : β → α → β} {l : List α}

/-- `d.setdefault(k, first)`, and an update of the value there. -/
def update (d : Dict κ β) (k : κ) (first : β) (f : β → β) : Dict κ β :=
  d.insert k (f ((d.lookup k).getD first))

@[simp]
theorem lookup_update (d : Dict κ β) (k : κ) (first : β) (f : β → β) :
    (d.update k first f).lookup k = some (f ((d.lookup k).getD first)) :=
  AList.lookup_insert d

theorem lookup_update_of_ne (hne : k' ≠ k) (first : β) (f : β → β) :
    (d.update k first f).lookup k' = d.lookup k' :=
  AList.lookup_insert_ne hne

/-- Update the entry of each member's key. -/
def collect (key : α → κ) (first : α → β) (add : β → α → β) (d : Dict κ β) (l : List α) :
    Dict κ β :=
  l.foldl (fun d a => d.update (key a) (first a) fun b => add b a) d

/-- A member is added to the value of its key, or to the initial one. -/
def accumulate (first : α → β) (add : β → α → β) (o : Option β) (a : α) : Option β :=
  some (add (o.getD (first a)) a)

/-- Only the members with the key count for its entry. -/
theorem lookup_collect (d : Dict κ β) (l : List α) (k : κ) :
    (d.collect key first add l).lookup k =
      (l.filter fun a => key a == k).foldl (accumulate first add) (d.lookup k) := by
  induction l generalizing d with
  | nil => rfl
  | cons a l ih =>
    rw [collect, List.foldl_cons]
    refine (ih _).trans ?_
    by_cases hk : key a = k
    · subst hk
      rw [List.filter_cons_of_pos (by simp), List.foldl_cons, lookup_update]
      rfl
    · rw [List.filter_cons_of_neg (by simpa using hk), lookup_update_of_ne (Ne.symm hk)]

/-- A value is what its members make of the first one's initial value. -/
theorem foldl_accumulate (a : α) (l : List α) :
    (a :: l).foldl (accumulate first add) none = some ((a :: l).foldl add (first a)) := by
  have hsome : ∀ b, l.foldl (accumulate first add) (some b) = some (l.foldl add b) := by
    intro b
    induction l generalizing b with
    | nil => rfl
    | cons a l ih => exact ih (add b a)
  exact hsome _

/-- The entry of a key after a pass over a list with members for it. -/
theorem lookup_collect_empty :
    ((∅ : Dict κ β).collect key first add l).lookup k = some b ↔
      ∃ a as, (l.filter fun a => key a == k) = a :: as ∧ (a :: as).foldl add (first a) = b := by
  rw [lookup_collect, AList.lookup_empty]
  cases l.filter fun a => key a == k with
  | nil => simp
  | cons a as =>
    rw [foldl_accumulate]
    simp

/-- The keys are those of the members. -/
theorem exists_lookup_collect {a : α} (ha : a ∈ l) :
    ∃ b, ((∅ : Dict κ β).collect key first add l).lookup (key a) = some b := by
  have hmem : a ∈ l.filter fun x => key x == key a := List.mem_filter.mpr ⟨ha, by simp⟩
  obtain ⟨x, as, hfilter⟩ := List.exists_cons_of_ne_nil (List.ne_nil_of_mem hmem)
  exact ⟨_, lookup_collect_empty.mpr ⟨x, as, hfilter, rfl⟩⟩

end

/-! ### Entries in order -/

section

variable [LinearOrder κ] {d : Dict κ β} {k : κ} {b : β}

/-- `for k in sorted(d)`, with `d[k]`. -/
def sortedItems (d : Dict κ β) : List (κ × β) :=
  (d.keys.insertionSort (· ≤ ·)).filterMap fun k => (d.lookup k).map fun b => (k, b)

theorem mem_sortedItems : (k, b) ∈ d.sortedItems ↔ d.lookup k = some b := by
  simp only [sortedItems, List.mem_filterMap, List.mem_insertionSort, Option.map_eq_some_iff,
    Prod.mk.injEq]
  constructor
  · rintro ⟨k', -, b', hlookup, rfl, rfl⟩
    exact hlookup
  · intro hlookup
    have hmem : k ∈ d := AList.lookup_isSome.mp (by rw [hlookup]; rfl)
    exact ⟨k, hmem, b, hlookup, rfl, rfl⟩

theorem pairwise_sortedItems : d.sortedItems.Pairwise fun i j => i.1 < j.1 := by
  have hsorted : (d.keys.insertionSort (· ≤ ·)).Pairwise (· < ·) := by
    have hle := List.pairwise_insertionSort (· ≤ ·) d.keys
    have hne : (d.keys.insertionSort (· ≤ ·)).Nodup :=
      (List.perm_insertionSort _ d.keys).nodup_iff.mpr d.keys_nodup
    exact hle.imp₂ (fun _ _ => lt_of_le_of_ne) hne
  refine List.Pairwise.filterMap _ (fun i j hlt x hx y hy => ?_) hsorted
  obtain ⟨b, -, rfl⟩ := Option.map_eq_some_iff.mp hx
  obtain ⟨c, -, rfl⟩ := Option.map_eq_some_iff.mp hy
  exact hlt

end

/-! ### Writes to one place -/

section

variable {p : α → Prop} [DecidablePred p] {f : α → β} {l : List α} {o : Option β} {a : α}

/-- What stands in a place after writes, some of them there. -/
def write (p : α → Prop) [DecidablePred p] (f : α → β) (o : Option β) (l : List α) : Option β :=
  l.foldl (fun o a => if p a then some (f a) else o) o

theorem write_of_forall_not (h : ∀ a ∈ l, ¬ p a) : write p f o l = o := by
  induction l with
  | nil => rfl
  | cons a l ih =>
    rw [write, List.foldl_cons, if_neg (h a List.mem_cons_self)]
    exact ih fun b hb => h b (List.mem_cons_of_mem a hb)

/-- The only write there is what stands there. -/
theorem write_of_mem (hone : l.Pairwise fun a b => p a → ¬ p b) (ha : a ∈ l) (hp : p a) :
    write p f o l = some (f a) := by
  induction l generalizing o with
  | nil => cases ha
  | cons b l ih =>
    obtain ⟨hb, hone⟩ := List.pairwise_cons.mp hone
    rw [write, List.foldl_cons]
    rcases List.mem_cons.mp ha with rfl | ha
    · rw [if_pos hp]
      exact write_of_forall_not fun c hc => hb c hc hp
    · exact ih hone ha

/-- A bound that grows along a list bounds what is below the first bound or a member. -/
theorem le_foldl_max [LinearOrder β] {b c : β} {l : List β} :
    c ≤ l.foldl max b ↔ c ≤ b ∨ ∃ a ∈ l, c ≤ a := by
  induction l generalizing b with
  | nil => simp
  | cons a l ih =>
    rw [List.foldl_cons, ih, le_max_iff, or_assoc]
    simp

end

end Dict
