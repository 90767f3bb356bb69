import FluxTrack.Process.Bids
import FluxTrack.Process.Interference

/-!
# Programs that see a part of the store

A view shows a part of the store. Two programs agree under the view if they do the same to what
it shows as long as they read stores in which it shows the same, and do nothing to the rest. A
program that agrees with itself does not notice what others do outside the view, and what it does
inside it does as if alone. Programs that undo a block end there.

## Main definitions

* `Prog.Agree` — two programs agree under a view, with a number of blocks still open

## Main results

* `Agree.bind`, `Agree.atomic`, `agree_select`, `agree_modify` — the rules
* `Agree.every` — every statement leaves the rest alone
* `Agree.passes` — what one of them may answer so may the other
-/

namespace Process

universe u w x

variable {κ σ ε α β : Type u} {τ : Type w} {ρ : Type x}

namespace Prog

/-- The two programs do the same to what the view shows, from stores with the same view, and leave
the rest alone; `n` of the blocks they leave they have not entered themselves. -/
inductive Agree (view : σ → τ) (rest : σ → ρ) : ℕ → Prog κ σ ε α → Prog κ σ ε α → Prop
  | ret (a : α) : Agree view rest 0 (ret a) (ret a)
  | raise (n : ℕ) (e : ε) : Agree view rest n (raise e) (raise e)
  | stmt {n : ℕ} {u u' : σ → σ} {k k' : σ → Prog κ σ ε α}
      (hu : ∀ s s', view s = view s' → view (u s) = view (u' s'))
      (hrest : ∀ s, rest (u s) = rest s) (hrest' : ∀ s, rest (u' s) = rest s)
      (hk : ∀ s s', view s = view s' → Agree view rest n (k s) (k' s')) :
      Agree view rest n (stmt u k) (stmt u' k')
  | enter {n : ℕ} {k k' : Prog κ σ ε α} (hk : Agree view rest (n + 1) k k') :
      Agree view rest n (mark .enter k) (mark .enter k')
  | leave {n : ℕ} {k k' : Prog κ σ ε α} (hk : Agree view rest n k k') :
      Agree view rest (n + 1) (mark .leave k) (mark .leave k')
  | lock {n : ℕ} (r : κ) {k k' : Prog κ σ ε α} (hk : Agree view rest n k k') :
      Agree view rest n (mark (.lock r) k) (mark (.lock r) k')
  | rollback (n : ℕ) {s s' : σ} {k k' : Prog κ σ ε α} (hk : k.Fails) (hk' : k'.Fails) :
      Agree view rest n (rollback s k) (rollback s' k')

variable {view : σ → τ} {rest : σ → ρ} {n m : ℕ} {p p' : Prog κ σ ε α}

theorem Agree.symm (hp : p.Agree view rest n p') : p'.Agree view rest n p := by
  induction hp with
  | ret a => exact .ret a
  | raise n e => exact .raise n e
  | stmt hu hrest hrest' hk ih =>
    exact .stmt (fun s s' h => (hu s' s h.symm).symm) hrest' hrest fun s s' h => ih s' s h.symm
  | enter hk ih => exact .enter ih
  | leave hk ih => exact .leave ih
  | lock r hk ih => exact .lock r ih
  | rollback n hk hk' => exact .rollback n hk' hk

/-- The rule for continued programs whose exceptions end them. -/
theorem Agree.elim {f f' : α → Prog κ σ ε β} {g g' : ε → Prog κ σ ε β} (hp : p.Agree view rest n p')
    (hf : ∀ a, (f a).Agree view rest m (f' a)) (hg : ∀ e l, (g e).Agree view rest l (g' e))
    (hfails : ∀ e, (g e).Fails) (hfails' : ∀ e, (g' e).Fails) :
    (p.elim f g).Agree view rest (n + m) (p'.elim f' g') := by
  induction hp with
  | ret a =>
    rw [Nat.zero_add]
    exact hf a
  | raise n e => exact hg e _
  | stmt hu hrest hrest' hk ih => exact .stmt hu hrest hrest' ih
  | enter hk ih => exact .enter (by rw [Nat.add_right_comm]; exact ih)
  | @leave n k k' hk ih =>
    rw [Nat.add_right_comm]
    exact .leave ih
  | lock r hk ih => exact .lock r ih
  | rollback n hk hk' => exact .rollback _ (hk.elim hfails) (hk'.elim hfails')

theorem Agree.bind {f f' : α → Prog κ σ ε β} (hp : p.Agree view rest 0 p')
    (hf : ∀ a, (f a).Agree view rest m (f' a)) : (p >>= f).Agree view rest m (p' >>= f') := by
  have h := hp.elim hf (fun e l => .raise l e) (fun _ => trivial) fun _ => trivial
  rwa [Nat.zero_add] at h

/-- The rest of a block. -/
theorem agree_closing (hp : p.Agree view rest n p') (s s' : σ) :
    (p.closing s).Agree view rest (n + 1) (p'.closing s') :=
  hp.elim (fun a => .leave (.ret a)) (fun _ l => .rollback l trivial trivial) (fun _ => trivial)
    fun _ => trivial

theorem Agree.atomic (hp : p.Agree view rest 0 p') :
    (Prog.atomic p).Agree view rest 0 (Prog.atomic p') :=
  .stmt (fun _ _ h => h) (fun _ => rfl) (fun _ => rfl) fun s s' _ => .enter (agree_closing hp s s')

theorem agree_select {f : σ → α} (hf : ∀ s s', view s = view s' → f s = f s') :
    (select f : Prog κ σ ε α).Agree view rest 0 (select f) :=
  .stmt (fun _ _ h => h) (fun _ => rfl) (fun _ => rfl) fun s s' h => hf s s' h ▸ .ret _

theorem agree_modify {u : σ → σ} (hu : ∀ s s', view s = view s' → view (u s) = view (u s'))
    (hrest : ∀ s, rest (u s) = rest s) :
    (modify u : Prog κ σ ε PUnit).Agree view rest 0 (modify u) :=
  .stmt hu hrest hrest fun _ _ _ => .ret _

theorem agree_lock (r : κ) : (Prog.lock r : Prog κ σ ε PUnit).Agree view rest 0 (Prog.lock r) :=
  .lock r (.ret _)

theorem Fails.not_passes {I : σ → Prop} {a : α} (hp : p.Fails) : ¬ p.Passes I a := by
  induction p with
  | ret b => exact False.elim hp
  | raise e => exact id
  | stmt u k ih => exact False.elim hp
  | mark m k ih => exact ih hp
  | rollback s₀ k ih => exact ih hp

theorem Fails.every {N : (σ → σ) → Prop} (hp : p.Fails) : p.Every N := by
  induction p with
  | ret b => trivial
  | raise e => trivial
  | stmt u k ih => exact False.elim hp
  | mark m k ih => exact ih hp
  | rollback s₀ k ih => exact ih hp

/-- Every statement leaves the rest alone. -/
theorem Agree.every (hp : p.Agree view rest n p') : p.Every fun u => ∀ s, rest (u s) = rest s := by
  induction hp with
  | ret a => trivial
  | raise n e => trivial
  | stmt hu hrest hrest' hk ih => exact ⟨hrest, fun s => ih s s rfl⟩
  | enter hk ih => exact ih
  | leave hk ih => exact ih
  | lock r hk ih => exact ih
  | rollback n hk hk' => exact hk.every

/-- What one of two agreeing programs may answer the other may, also when it only reads certain
stores, if these show everything. -/
theorem Agree.passes {I J : σ → Prop} {a : α} (hp : p.Agree view rest n p') (h : p.Passes I a)
    (hJ : ∀ s, ∃ s', view s = view s' ∧ J s') : p'.Passes J a := by
  induction hp with
  | ret b => exact h
  | raise n e => exact h
  | stmt hu hrest hrest' hk ih =>
    obtain ⟨s, -, hpass⟩ := h
    obtain ⟨s', hsame, hs'⟩ := hJ s
    exact ⟨s', hs', ih s s' hsame hpass⟩
  | enter hk ih => exact ih h
  | leave hk ih => exact ih h
  | lock r hk ih => exact ih h
  | rollback n hk hk' => exact absurd h hk.not_passes

end Prog

end Process
