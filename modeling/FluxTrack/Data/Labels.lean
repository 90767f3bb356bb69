import Mathlib.Data.Finset.Card
import Mathlib.Data.Finset.Dedup

/-!
# Labels of a list

Two functions label the entries of a list. Where the first tells apart all that the second
does, there are as many labels of both exactly if they tell apart the same entries.

## Main definitions

* `Labels.Refines` — the first labeling tells apart all that the second does

## Main results

* `Labels.length_dedup_eq_iff` — as many labels of both
-/

namespace Labels

variable {α β γ : Type*} {f : α → β} {g : α → γ} {l : List α}

/-- Entries with the same first label have the same second label. -/
def Refines (f : α → β) (g : α → γ) (l : List α) : Prop :=
  ∀ a ∈ l, ∀ b ∈ l, f a = f b → g a = g b

variable [DecidableEq β] [DecidableEq γ]

/-- The number of labels is that of the images. -/
theorem length_dedup_eq_card (f : α → β) (l : List α) :
    (l.map f).dedup.length = (l.map f).toFinset.card := (List.card_toFinset _).symm

/-- A labeling that refines another has as many labels exactly if the other refines it. -/
theorem length_dedup_eq_iff (h : Refines f g l) :
    (l.map f).dedup.length = (l.map g).dedup.length ↔ Refines g f l := by
  -- both labelings are read off the pairs of labels
  let pairs := (l.map fun a => (f a, g a)).toFinset
  have hmem : ∀ p, p ∈ pairs ↔ ∃ a ∈ l, (f a, g a) = p := fun p => by simp [pairs]
  have hfst : pairs.image Prod.fst = (l.map f).toFinset := by
    ext b
    simp [pairs]
  have hsnd : pairs.image Prod.snd = (l.map g).toFinset := by
    ext c
    simp [pairs]
  have hinj : Set.InjOn Prod.fst (pairs : Set (β × γ)) := by
    intro p hp q hq hpq
    obtain ⟨a, ha, rfl⟩ := (hmem p).mp hp
    obtain ⟨b, hb, rfl⟩ := (hmem q).mp hq
    exact Prod.ext hpq (h a ha b hb hpq)
  rw [length_dedup_eq_card, length_dedup_eq_card, ← hfst, ← hsnd, Finset.card_image_of_injOn hinj,
    eq_comm, Finset.card_image_iff]
  constructor
  · intro hsame a ha b hb hg
    exact congrArg Prod.fst (hsame ((hmem _).mpr ⟨a, ha, rfl⟩) ((hmem _).mpr ⟨b, hb, rfl⟩) hg)
  · intro hback p hp q hq hpq
    obtain ⟨a, ha, rfl⟩ := (hmem p).mp hp
    obtain ⟨b, hb, rfl⟩ := (hmem q).mp hq
    exact Prod.ext (hback a ha b hb hpq) hpq

end Labels
