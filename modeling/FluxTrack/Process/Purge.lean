import FluxTrack.Process.Runs

/-!
# Calls left out of a run

A run of calls, and the same run with some of them left out. The calls that stay put out the same
in both exactly if none of those that are left out disturbs one of them: a relation between the
two runs carries what the calls left out so far have done to the first.

## Main definitions

* `Process.outputs`, `Process.keptOutputs` — what the calls of a run put out
* `Process.NoDisturbance` — no call that is left out disturbs a later one that stays
* `Process.Purges` — a relation that tells when the outputs agree

## Main results

* `Purges.outputs_eq_iff` — the outputs of the calls that stay
-/

namespace Process

variable {σ ι ω : Type*}

/-- What the calls of a run put out, each in the state it finds. -/
def outputs (step : σ → ι → σ) (out : σ → ι → ω) : σ → List ι → List ω
  | _, [] => []
  | s, i :: l => out s i :: outputs step out (step s i) l

/-- What the calls that stay put out in a run of all of them. -/
def keptOutputs (stays : ι → Bool) (step : σ → ι → σ) (out : σ → ι → ω) : σ → List ι → List ω
  | _, [] => []
  | s, i :: l =>
    if stays i then out s i :: keptOutputs stays step out (step s i) l
    else keptOutputs stays step out (step s i) l

/-- No call that is left out disturbs, in the state it finds, a later call that stays. -/
def NoDisturbance (stays : ι → Bool) (step : σ → ι → σ) (disturbs : σ × ι → σ → ι → Prop) :
    σ → List ι → Prop
  | _, [] => True
  | s, i :: l =>
    (stays i = false →
      Along step (fun t j => stays j = true → ¬ disturbs (s, i) t j) (step s i) l) ∧
    NoDisturbance stays step disturbs (step s i) l

/-- The relation holds between a run and the one without the calls `d` that were left out so far.
Where no call of `d` disturbs it, and only there, a call that stays puts out the same in both. -/
structure Purges (stays : ι → Bool) (step : σ → ι → σ) (out : σ → ι → ω) (ok : σ → ι → Prop)
    (disturbs : σ × ι → σ → ι → Prop) (R : List (σ × ι) → σ → σ → Prop) : Prop where
  drop : ∀ {d s t i}, R d s t → ok s i → stays i = false → R ((s, i) :: d) (step s i) t
  out_eq_iff : ∀ {d s t i}, R d s t → ok s i → stays i = true →
    (out s i = out t i ↔ ∀ p ∈ d, ¬ disturbs p s i)
  keep : ∀ {d s t i}, R d s t → ok s i → stays i = true → (∀ p ∈ d, ¬ disturbs p s i) →
    R d (step s i) (step t i)

variable {stays : ι → Bool} {step : σ → ι → σ} {out : σ → ι → ω} {ok : σ → ι → Prop}
  {disturbs : σ × ι → σ → ι → Prop} {R : List (σ × ι) → σ → σ → Prop}

/-- A condition on every call, and another. -/
theorem Along.and_iff {C D : σ → ι → Prop} {s : σ} {l : List ι} :
    Along step (fun s i => C s i ∧ D s i) s l ↔ Along step C s l ∧ Along step D s l := by
  induction l generalizing s with
  | nil => exact iff_of_true trivial ⟨trivial, trivial⟩
  | cons i l ih =>
    simp only [Along, ih]
    exact and_and_and_comm

/-- The outputs agree from related states on exactly if neither the calls left out before nor
those left out later disturb a call that stays. -/
theorem Purges.outputs_eq_iff_of_rel (h : Purges stays step out ok disturbs R)
    {d : List (σ × ι)} {s t : σ} {l : List ι} (hR : R d s t) (hok : Along step ok s l) :
    keptOutputs stays step out s l = outputs step out t (l.filter stays) ↔
      NoDisturbance stays step disturbs s l ∧
        Along step (fun s j => stays j = true → ∀ p ∈ d, ¬ disturbs p s j) s l := by
  induction l generalizing d s t with
  | nil => exact iff_of_true rfl ⟨trivial, trivial⟩
  | cons i l ih =>
    cases hi : stays i with
    | false =>
      -- a call that is left out joins those of before
      rw [keptOutputs, hi, if_neg Bool.false_ne_true, List.filter_cons_of_neg (by rw [hi]; nofun),
        ih (h.drop hR hok.1 hi) hok.2]
      simp only [NoDisturbance, Along, hi, List.forall_mem_cons, imp_and, Along.and_iff,
        forall_true_left, Bool.false_eq_true, false_imp_iff, true_and]
      exact and_left_comm.trans (and_assoc.symm)
    | true =>
      rw [keptOutputs, hi, if_pos rfl, List.filter_cons_of_pos hi, outputs, List.cons_eq_cons,
        h.out_eq_iff hR hok.1 hi]
      simp only [NoDisturbance, Along, hi, Bool.true_eq_false, false_imp_iff, true_and,
        forall_true_left]
      constructor
      · rintro ⟨hclear, hrest⟩
        obtain ⟨hundisturbed, halong⟩ := (ih (h.keep hR hok.1 hi hclear) hok.2).mp hrest
        exact ⟨hundisturbed, hclear, halong⟩
      · rintro ⟨hundisturbed, hclear, halong⟩
        exact ⟨hclear, (ih (h.keep hR hok.1 hi hclear) hok.2).mpr ⟨hundisturbed, halong⟩⟩

/-- The calls that stay put out what they would in a run of their own exactly if none of the
others disturbs one of them. -/
theorem Purges.outputs_eq_iff (h : Purges stays step out ok disturbs R) {s t : σ} {l : List ι}
    (hR : R [] s t) (hok : Along step ok s l) :
    keptOutputs stays step out s l = outputs step out t (l.filter stays) ↔
      NoDisturbance stays step disturbs s l := by
  rw [h.outputs_eq_iff_of_rel hR hok]
  refine and_iff_left ?_
  clear h hR hok
  induction l generalizing s with
  | nil => trivial
  | cons i l ih => exact ⟨fun _ p hp => absurd hp List.not_mem_nil, ih⟩

end Process
