import FluxTrack.Process.Prog

/-!
# The exceptions of a program

Which exceptions a program can end with, read off its statements: it holds of every run,
alone or not, from any store.

## Main definitions

* `Prog.RaisesOnly` — every exception of the program is of a kind

## Main results

* `RaisesOnly.elim`, `RaisesOnly.bind`, `RaisesOnly.atomic`, `RaisesOnly.forEach` — the rules
* `RaisesOnly.of_run` — the exception of a run
-/

namespace Process

universe u

namespace Prog

variable {κ σ ε α β : Type u} {E E' : ε → Prop} {p : Prog κ σ ε α}

/-- Every exception of the program is of the kind. -/
def RaisesOnly (E : ε → Prop) : Prog κ σ ε α → Prop
  | ret _ => True
  | raise e => E e
  | stmt _ k => ∀ s, (k s).RaisesOnly E
  | mark _ k => k.RaisesOnly E
  | rollback _ k => k.RaisesOnly E

@[simp] theorem raisesOnly_pure (a : α) : (pure a : Prog κ σ ε α).RaisesOnly E := trivial

@[simp] theorem raisesOnly_raise {e : ε} : (raise e : Prog κ σ ε α).RaisesOnly E ↔ E e := Iff.rfl

@[simp] theorem raisesOnly_select (f : σ → α) : (select f : Prog κ σ ε α).RaisesOnly E :=
  fun _ => trivial

@[simp] theorem raisesOnly_modify (u : σ → σ) : (modify u : Prog κ σ ε PUnit).RaisesOnly E :=
  fun _ => trivial

@[simp] theorem raisesOnly_modifyGet (f : σ → α) (u : σ → σ) :
    (modifyGet f u : Prog κ σ ε α).RaisesOnly E :=
  fun _ => trivial

@[simp] theorem raisesOnly_lock (r : κ) : (lock r : Prog κ σ ε PUnit).RaisesOnly E := trivial

theorem RaisesOnly.elim {f : α → Prog κ σ ε β} {g : ε → Prog κ σ ε β} (hp : p.RaisesOnly E')
    (hf : ∀ a, (f a).RaisesOnly E) (hg : ∀ e, E' e → (g e).RaisesOnly E) :
    (p.elim f g).RaisesOnly E := by
  induction p with
  | ret a => exact hf a
  | raise e => exact hg e hp
  | stmt u k ih => exact fun s => ih s (hp s)
  | mark m k ih => exact ih hp
  | rollback s₀ k ih => exact ih hp

theorem RaisesOnly.bind {f : α → Prog κ σ ε β} (hp : p.RaisesOnly E)
    (hf : ∀ a, (f a).RaisesOnly E) : (p >>= f).RaisesOnly E :=
  hp.elim hf fun _ he => he

theorem RaisesOnly.atomic (hp : p.RaisesOnly E) : (Prog.atomic p).RaisesOnly E :=
  fun _ => hp.elim (fun _ => trivial) fun _ he => he

theorem RaisesOnly.forEach {δ : Type*} {f : δ → Prog κ σ ε PUnit}
    (hf : ∀ i, (f i).RaisesOnly E) (l : List δ) : (Prog.forEach l f).RaisesOnly E := by
  induction l with
  | nil => exact trivial
  | cons i l ih => exact (hf i).bind fun _ => ih

theorem RaisesOnly.ite {c : Prop} [Decidable c] {q : Prog κ σ ε α} (hp : p.RaisesOnly E)
    (hq : q.RaisesOnly E) : (if c then p else q).RaisesOnly E := by
  split
  · exact hp
  · exact hq

/-- A run ends with an exception of the kind, if with any. -/
theorem RaisesOnly.of_run (hp : p.RaisesOnly E) {s : σ} {e : ε} (h : (p.run s).1 = .error e) :
    E e := by
  induction p generalizing s with
  | ret a => cases h
  | raise e =>
    cases h
    exact hp
  | stmt u k ih => exact ih s (hp s) h
  | mark m k ih => exact ih hp h
  | rollback s₀ k ih => exact ih hp h

end Prog

end Process
