import Mathlib.Data.List.Forall2
import FluxTrack.Process.Prog

/-!
# Programs that find their work done

A program that looks something up before it makes it does nothing when it is run again: what
it made the first time is found the second time. The two runs need not be of one text, since
what is made may depend on choices that are made anew.

## Main definitions

* `Prog.Repeats` — what one program has established, another finds

## Main results

* `repeats_select`, `Repeats.bind`, `Repeats.forEach`, `Repeats.atomic` — the rules
* `Repeats.run_again` — the second run, right after the first
-/

namespace Process

universe u

variable {κ σ ε α β : Type u}

namespace Prog

/-- Where `p` returns it makes a change in `E`, and in every store that is reached from there
by changes in `E` the program `q` returns the same and writes nothing. -/
def Repeats (E : σ → σ → Prop) (p q : Prog κ σ ε α) : Prop :=
  ∀ s a s', p.run s = (.ok a, s') → E s s' ∧ ∀ t, E s' t → q.run t = (.ok a, t)

variable {E : σ → σ → Prop} {p q : Prog κ σ ε α}

theorem Repeats.run_again (hE : Kind E) (h : p.Repeats E q) {s s' : σ} {a : α}
    (hrun : p.run s = (.ok a, s')) : q.run s' = (.ok a, s') :=
  (h s a s' hrun).2 s' (hE.refl s')

theorem repeats_pure (hE : Kind E) (a : α) :
    (pure a : Prog κ σ ε α).Repeats E (pure a) := by
  intro s b s' h
  cases h
  exact ⟨hE.refl s, fun _ _ => rfl⟩

theorem repeats_raise (e : ε) (q : Prog κ σ ε α) : (raise e).Repeats E q := by
  intro s b s' h
  cases h

/-- What is read must be what the changes keep. -/
theorem repeats_select (hE : Kind E) {f : σ → α} (hf : ∀ s t, E s t → f t = f s) :
    (select f : Prog κ σ ε α).Repeats E (select f) := by
  intro s a s' h
  cases h
  refine ⟨hE.refl s, fun t ht => ?_⟩
  rw [run_select, hf s t ht]

theorem Repeats.bind (hE : Kind E) {f g : α → Prog κ σ ε β} (hp : p.Repeats E q)
    (hf : ∀ a, (f a).Repeats E (g a)) : (p >>= f).Repeats E (q >>= g) := by
  intro s b s' h
  obtain ⟨a, s₁, hfirst, hrest⟩ := run_bind_eq_ok h
  obtain ⟨hs, hq⟩ := hp s a s₁ hfirst
  obtain ⟨hs₁, hg⟩ := hf a s₁ b s' hrest
  refine ⟨hE.trans s s₁ s' hs hs₁, fun t ht => ?_⟩
  -- the first part is still found there, since the second has only added to it
  rw [run_bind_of_ok (hq t (hE.trans s₁ s' t hs₁ ht))]
  exact hg t ht

theorem Repeats.atomic (h : p.Repeats E q) : (Prog.atomic p).Repeats E (Prog.atomic q) := by
  intro s a s' hrun
  obtain ⟨hs, hq⟩ := h s a s' (run_atomic_eq_ok hrun)
  exact ⟨hs, fun t ht => run_atomic_of_ok (hq t ht)⟩

/-- A loop repeats another over a list of the same length, item by item. -/
theorem Repeats.forEach (hE : Kind E) {ι : Type*} {f g : ι → Prog κ σ ε PUnit} {l l' : List ι}
    (h : List.Forall₂ (fun i j => (f i).Repeats E (g j)) l l') :
    (Prog.forEach l f).Repeats E (Prog.forEach l' g) := by
  induction h with
  | nil => exact repeats_pure hE PUnit.unit
  | cons hi _ ih => exact hi.bind hE fun _ => ih

end Prog

end Process
