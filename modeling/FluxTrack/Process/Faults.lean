import FluxTrack.Process.Pool

/-!
# Failing statements

A program of a pool whose next statement fails: the blocks it is in are undone, so its
pending changes are dropped, and what has taken effect stays. A reading of the store that
no remaining statement changes is the same wherever the program fails.

## Main definitions

* `Pool.fail` — a program ends with an exception where it is
* `Prog.Quiet`, `Thread.Quiet` — no statement changes a reading of the store

## Main results

* `Prog.Quiet.elim`, `Prog.Quiet.bind`, `Prog.Quiet.atomic` — the rules
* `Pool.reading_exec_replicate` — a quiet program leaves the reading alone
-/

namespace Process

universe u v w

variable {ι : Type v} {τ : Type w} {κ σ ε α β : Type u}

namespace Prog

/-- No statement of the program changes the reading. -/
def Quiet (reading : σ → τ) : Prog κ σ ε α → Prop
  | ret _ => True
  | raise _ => True
  | stmt u k => (∀ s, reading (u s) = reading s) ∧ ∀ s, (k s).Quiet reading
  | mark _ k => k.Quiet reading
  | rollback _ k => k.Quiet reading

variable {reading : σ → τ} {p : Prog κ σ ε α}

@[simp] theorem quiet_pure (a : α) : (pure a : Prog κ σ ε α).Quiet reading := trivial

@[simp] theorem quiet_raise (e : ε) : (raise e : Prog κ σ ε α).Quiet reading := trivial

@[simp] theorem quiet_select (f : σ → α) : (select f : Prog κ σ ε α).Quiet reading :=
  ⟨fun _ => rfl, fun _ => trivial⟩

@[simp] theorem quiet_lock (r : κ) : (lock r : Prog κ σ ε PUnit).Quiet reading := trivial

theorem quiet_modify {u : σ → σ} (hu : ∀ s, reading (u s) = reading s) :
    (modify u : Prog κ σ ε PUnit).Quiet reading :=
  ⟨hu, fun _ => trivial⟩

theorem Quiet.elim {f : α → Prog κ σ ε β} {g : ε → Prog κ σ ε β} (hp : p.Quiet reading)
    (hf : ∀ a, (f a).Quiet reading) (hg : ∀ e, (g e).Quiet reading) :
    (p.elim f g).Quiet reading := by
  induction p with
  | ret a => exact hf a
  | raise e => exact hg e
  | stmt u k ih => exact ⟨hp.1, fun s => ih s (hp.2 s)⟩
  | mark m k ih => exact ih hp
  | rollback s₀ k ih => exact ih hp

theorem Quiet.bind {f : α → Prog κ σ ε β} (hp : p.Quiet reading)
    (hf : ∀ a, (f a).Quiet reading) : (p >>= f).Quiet reading :=
  hp.elim hf quiet_raise

theorem Quiet.atomic (hp : p.Quiet reading) : (Prog.atomic p).Quiet reading :=
  ⟨fun _ => rfl, fun _ => hp.elim (fun _ => trivial) fun _ => trivial⟩

end Prog

/-- Neither what the program has pending nor what it is still to do changes the reading. -/
structure Thread.Quiet (reading : σ → τ) (th : Thread κ σ ε α) : Prop where
  prog : th.prog.Quiet reading
  pending : ∀ s, reading (th.pending s) = reading s
  blocks : ∀ b ∈ th.blocks, ∀ s, reading (b s) = reading s

namespace Pool

variable [DecidableEq ι] {reading : σ → τ} {P : Pool ι κ σ ε α} {i : ι} {th : Thread κ σ ε α}

/-- The next statement of program `i` fails. -/
def fail (P : Pool ι κ σ ε α) (i : ι) (e : ε) : Pool ι κ σ ε α where
  store := P.store
  threads := Function.update P.threads i (.start (.raise e))

/-- The reading of the store, with the program it is not changed by. -/
theorem quiet_put (h : th.Quiet reading) :
    reading (P.put i th).store = reading P.store ∧ ((P.put i th).threads i).Quiet reading := by
  by_cases hb : th.blocks = []
  · rw [put_of_nil hb]
    refine ⟨h.pending P.store, ?_⟩
    simp only [Function.update_self]
    exact ⟨h.prog, fun _ => rfl, by simp [Thread.start]⟩
  · rw [put_of_ne_nil hb]
    refine ⟨rfl, ?_⟩
    simpa only [Function.update_self] using h

variable [Fintype ι] [DecidableEq κ]

/-- A move of a quiet program leaves the reading alone. -/
theorem quiet_step (h : (P.threads i).Quiet reading) :
    reading (P.step i).store = reading P.store ∧ ((P.step i).threads i).Quiet reading := by
  have hstay : reading P.store = reading P.store ∧ (P.threads i).Quiet reading := ⟨rfl, h⟩
  rcases hi : P.threads i with ⟨prog, pending, blocks, held⟩
  rw [hi] at h
  obtain ⟨hprog, hpending, hblocks⟩ := h
  cases prog with
  | ret a =>
    rw [step, hi]
    exact hstay
  | raise e =>
    rw [step, hi]
    exact hstay
  | stmt u k =>
    rw [step, hi]
    exact quiet_put ⟨hprog.2 _, fun s => (hprog.1 _).trans (hpending s), hblocks⟩
  | mark m k =>
    rw [step, hi]
    cases m with
    | enter =>
      refine quiet_put ⟨hprog, hpending, fun b hb => ?_⟩
      rcases List.mem_cons.mp hb with rfl | hb
      · exact hpending
      · exact hblocks b hb
    | leave => exact quiet_put ⟨hprog, hpending, fun b hb => hblocks b (List.mem_of_mem_tail hb)⟩
    | lock r =>
      dsimp only
      split
      · exact quiet_put ⟨hprog, hpending, hblocks⟩
      · exact hstay
  | rollback s₀ k =>
    rw [step, hi]
    refine quiet_put ⟨hprog, ?_, hblocks⟩
    -- what is rolled back to is the snapshot of a block, which is quiet as well
    cases blocks with
    | nil => exact fun _ => rfl
    | cons b bs => exact hblocks b List.mem_cons_self

/-- However far a quiet program goes on alone, the reading stays. -/
theorem reading_exec_replicate (h : (P.threads i).Quiet reading) (n : ℕ) :
    reading (P.exec (.replicate n i)).store = reading P.store := by
  induction n generalizing P with
  | zero => rfl
  | succ n ih =>
    obtain ⟨hreading, hquiet⟩ := quiet_step h
    rw [List.replicate_succ, exec_cons, ih hquiet, hreading]

end Pool

end Process
