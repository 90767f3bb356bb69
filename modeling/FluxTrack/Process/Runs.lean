import Mathlib.Data.List.Basic
import Mathlib.Data.List.Infix

/-!
# Runs of calls

Calls executed one after another on a state, with a condition on each call in the
state it finds.

## Main definitions

* `Process.Along` — every call of a run meets a condition

## Main results

* `Along.invariant` — what the calls that meet the condition preserve holds in every
  state of the run
* `Along.of_invariant` — what follows from the invariant and the condition holds at
  every call
-/

namespace Process

variable {σ ι : Type*} {step : σ → ι → σ} {C D : σ → ι → Prop} {I : σ → Prop}

/-- Every call of a run meets `C` in the state it finds. -/
def Along (step : σ → ι → σ) (C : σ → ι → Prop) : σ → List ι → Prop
  | _, [] => True
  | s, i :: l => C s i ∧ Along step C (step s i) l

/-- An invariant of the calls that meet the condition holds in every state reached. -/
theorem Along.invariant (hstep : ∀ s i, I s → C s i → I (step s i)) {s : σ} {l : List ι} (hI : I s)
    (h : Along step C s l) {pre : List ι} (hpre : pre <+: l) : I (pre.foldl step s) := by
  induction l generalizing s pre with
  | nil =>
    rw [List.prefix_nil.mp hpre]
    exact hI
  | cons i l ih =>
    cases pre with
    | nil => exact hI
    | cons j pre =>
      obtain ⟨rfl, hrest⟩ := List.cons_prefix_cons.mp hpre
      exact ih (hstep s j hI h.1) h.2 hrest

/-- Calls that meet the condition in every state meet it along any run. -/
theorem Along.of_forall {l : List ι} (h : ∀ i ∈ l, ∀ s, C s i) (s : σ) : Along step C s l := by
  induction l generalizing s with
  | nil => trivial
  | cons i l ih =>
    exact ⟨h i List.mem_cons_self s, ih (fun j hj => h j (List.mem_cons_of_mem i hj)) _⟩

/-- Along a run with an invariant, every call also meets what follows from both. -/
theorem Along.of_invariant (hstep : ∀ s i, I s → C s i → I (step s i))
    (himp : ∀ s i, I s → C s i → D s i) {s : σ} {l : List ι} (hI : I s) (h : Along step C s l) :
    Along step D s l := by
  induction l generalizing s with
  | nil => trivial
  | cons i l ih => exact ⟨himp s i hI h.1, ih (hstep s i hI h.1) h.2⟩

end Process
