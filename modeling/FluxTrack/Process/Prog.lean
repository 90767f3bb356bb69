import Mathlib.Data.List.Basic

/-!
# Programs over a shared store

A program is a tree of atomic statements against a store: each statement
replaces the store in one step and continues with what it read there. Blocks
with a rollback are marked in the tree, and so are row locks, so that one text
of a program can be read in two ways: run alone, where nothing happens between
its statements, and run with others, where anything may.

## Main definitions

* `Process.Prog` — programs, a monad; `Prog.elim` continues after a result or
  after an exception
* `Prog.select`, `Prog.modify`, `Prog.modifyGet`, `Prog.lock` — single statements
* `Prog.atomic` — a block that is undone when it raises
* `Prog.run` — the program run alone
* `Prog.whole` — the program as one statement
* `Prog.Steps` — every statement of that run is of a given kind
* `Prog.Makes` — that run as a whole is a change of a given kind

## Main results

* `run_bind`, `run_elim` — running alone is compositional
* `run_atomic`, `snd_run_atomic_of_error` — a block that raises leaves the
  store as it found it
* `steps_bind`, `steps_atomic` — the statements of a composed program
-/

namespace Process

universe u

/-- What a program announces besides its statements. -/
inductive Mark (κ : Type u)
  | enter
  | leave
  | lock (r : κ)

/-- A program over the store `σ` with exceptions `ε` and lockable resources `κ`.
`stmt u k` replaces the store `s` by `u s` in one step and continues as `k s`;
`rollback s₀ k` ends a block that was entered in the store `s₀`. -/
inductive Prog (κ σ ε α : Type u) : Type u
  | ret (a : α)
  | raise (e : ε)
  | stmt (u : σ → σ) (k : σ → Prog κ σ ε α)
  | mark (m : Mark κ) (k : Prog κ σ ε α)
  | rollback (s₀ : σ) (k : Prog κ σ ε α)

namespace Prog

variable {κ σ ε α β γ : Type u}

/-- Continue with `f` after a result and with `g` after an exception. -/
def elim (f : α → Prog κ σ ε β) (g : ε → Prog κ σ ε β) : Prog κ σ ε α → Prog κ σ ε β
  | ret a => f a
  | raise e => g e
  | stmt u k => stmt u fun s => elim f g (k s)
  | mark m k => mark m (elim f g k)
  | rollback s₀ k => rollback s₀ (elim f g k)

/-- Sequencing: an exception skips the continuation. -/
protected def bind (p : Prog κ σ ε α) (f : α → Prog κ σ ε β) : Prog κ σ ε β :=
  p.elim f raise

instance : Monad (Prog κ σ ε) where
  pure := ret
  bind := Prog.bind

theorem elim_elim (p : Prog κ σ ε α) (f : α → Prog κ σ ε β) (g : ε → Prog κ σ ε β)
    (f' : β → Prog κ σ ε γ) (g' : ε → Prog κ σ ε γ) :
    (p.elim f g).elim f' g' = p.elim (fun a => (f a).elim f' g') fun e => (g e).elim f' g' := by
  induction p with
  | ret a => rfl
  | raise e => rfl
  | stmt u k ih => exact congrArg (stmt u) (funext ih)
  | mark m k ih => exact congrArg (mark m) ih
  | rollback s₀ k ih => exact congrArg (rollback s₀) ih

theorem elim_ret_raise (p : Prog κ σ ε α) : p.elim ret raise = p := by
  induction p with
  | ret a => rfl
  | raise e => rfl
  | stmt u k ih => exact congrArg (stmt u) (funext ih)
  | mark m k ih => exact congrArg (mark m) ih
  | rollback s₀ k ih => exact congrArg (rollback s₀) ih

instance : LawfulMonad (Prog κ σ ε) :=
  LawfulMonad.mk' _ (fun p => elim_ret_raise p) (fun _ _ => rfl)
    (fun p f g => elim_elim p f raise g raise)

/-! ### Statements -/

/-- Read the store. -/
def select (f : σ → α) : Prog κ σ ε α := stmt id fun s => ret (f s)

/-- Change the store. -/
def modify (u : σ → σ) : Prog κ σ ε PUnit := stmt u fun _ => ret ⟨⟩

/-- Change the store and answer from the store before the change. -/
def modifyGet (f : σ → α) (u : σ → σ) : Prog κ σ ε α := stmt u fun s => ret (f s)

/-- Take the lock on `r` and keep it to the end of the outermost block. -/
def lock (r : κ) : Prog κ σ ε PUnit := mark (.lock r) (ret ⟨⟩)

/-- A block: an exception undoes the statements inside it and goes on outward. -/
def atomic (p : Prog κ σ ε α) : Prog κ σ ε α :=
  stmt id fun s₀ => mark .enter <|
    p.elim (fun a => mark .leave (ret a)) fun e => rollback s₀ (mark .leave (raise e))

/-- A loop over a list. -/
def forEach {ι : Type*} : List ι → (ι → Prog κ σ ε PUnit) → Prog κ σ ε PUnit
  | [], _ => ret ⟨⟩
  | i :: l, f => f i >>= fun _ => forEach l f

/-! ### Running alone -/

/-- The outcome and the final store of a program that runs without interference. -/
def run : Prog κ σ ε α → σ → Except ε α × σ
  | ret a, s => (.ok a, s)
  | raise e, s => (.error e, s)
  | stmt u k, s => (k s).run (u s)
  | mark _ k, s => k.run s
  | rollback s₀ k, _ => k.run s₀

@[simp] theorem run_ret (a : α) (s : σ) : (ret a : Prog κ σ ε α).run s = (.ok a, s) := rfl

@[simp] theorem run_pure (a : α) (s : σ) : (pure a : Prog κ σ ε α).run s = (.ok a, s) := rfl

@[simp] theorem run_raise (e : ε) (s : σ) :
    (raise e : Prog κ σ ε α).run s = (.error e, s) := rfl

@[simp] theorem run_select (f : σ → α) (s : σ) :
    (select f : Prog κ σ ε α).run s = (.ok (f s), s) := rfl

@[simp] theorem run_modify (u : σ → σ) (s : σ) :
    (modify u : Prog κ σ ε PUnit).run s = (.ok ⟨⟩, u s) := rfl

@[simp] theorem run_modifyGet (f : σ → α) (u : σ → σ) (s : σ) :
    (modifyGet f u : Prog κ σ ε α).run s = (.ok (f s), u s) := rfl

@[simp] theorem run_lock (r : κ) (s : σ) :
    (lock r : Prog κ σ ε PUnit).run s = (.ok ⟨⟩, s) := rfl

theorem run_elim (p : Prog κ σ ε α) (f : α → Prog κ σ ε β) (g : ε → Prog κ σ ε β) (s : σ) :
    (p.elim f g).run s =
      match p.run s with
      | (.ok a, s') => (f a).run s'
      | (.error e, s') => (g e).run s' := by
  induction p generalizing s with
  | ret a => rfl
  | raise e => rfl
  | stmt u k ih => exact ih s (u s)
  | mark m k ih => exact ih s
  | rollback s₀ k ih => exact ih s₀

/-- What only answers changes nothing more. -/
theorem snd_run_elim {p : Prog κ σ ε α} {f : α → Prog κ σ ε β} {g : ε → Prog κ σ ε β} {s : σ}
    (hf : ∀ a t, ((f a).run t).2 = t) (hg : ∀ e t, ((g e).run t).2 = t) :
    ((p.elim f g).run s).2 = (p.run s).2 := by
  rw [run_elim]
  rcases p.run s with ⟨e | a, t⟩
  · exact hg e t
  · exact hf a t

theorem run_bind (p : Prog κ σ ε α) (f : α → Prog κ σ ε β) (s : σ) :
    (p >>= f).run s =
      match p.run s with
      | (.ok a, s') => (f a).run s'
      | (.error e, s') => (.error e, s') :=
  run_elim p f raise s

theorem run_bind_of_ok {p : Prog κ σ ε α} {f : α → Prog κ σ ε β} {s s' : σ} {a : α}
    (h : p.run s = (.ok a, s')) : (p >>= f).run s = (f a).run s' := by
  rw [run_bind, h]

theorem run_bind_of_error {p : Prog κ σ ε α} {f : α → Prog κ σ ε β} {s s' : σ} {e : ε}
    (h : p.run s = (.error e, s')) : (p >>= f).run s = (.error e, s') := by
  rw [run_bind, h]

/-- Forgetting the answer leaves the effect. -/
theorem snd_run_bind_pure (p : Prog κ σ ε α) (f : α → β) (s : σ) :
    ((p >>= fun a => pure (f a)).run s).2 = (p.run s).2 := by
  rw [run_bind]
  rcases p.run s with ⟨e | a, s'⟩ <;> rfl

/-- A program that returns a function of an answer has got that answer. -/
theorem fst_run_map_eq_ok {p : Prog κ σ ε α} {f : α → β} {s : σ} {b : β}
    (h : ((p >>= fun a => pure (f a)).run s).1 = .ok b) :
    ∃ a s', p.run s = (.ok a, s') ∧ f a = b := by
  rw [run_bind] at h
  rcases hp : p.run s with ⟨e | a, s'⟩ <;> rw [hp] at h
  · cases h
  · exact ⟨a, s', rfl, Except.ok.inj h⟩

/-- What the first part of a sequence establishes and the second keeps holds after it. -/
theorem snd_run_bind {p : Prog κ σ ε α} {f : α → Prog κ σ ε β} {s : σ} {P : σ → Prop}
    (hp : P (p.run s).2) (hf : ∀ a t, P t → P ((f a).run t).2) : P ((p >>= f).run s).2 := by
  rw [run_bind]
  rcases hrun : p.run s with ⟨e | a, t⟩ <;> rw [hrun] at hp
  · exact hp
  · exact hf a t hp

/-- A first part that only reads raises, or the second part goes on from the same store. -/
theorem run_bind_cases_of_reads {p : Prog κ σ ε α} {s : σ} (h : (p.run s).2 = s)
    (f : α → Prog κ σ ε β) :
    (∃ e, (p >>= f).run s = (.error e, s)) ∨
      ∃ a, p.run s = (.ok a, s) ∧ (p >>= f).run s = (f a).run s := by
  rcases hp : p.run s with ⟨e | a, t⟩ <;> rw [hp] at h <;> obtain rfl : t = s := h
  · exact .inl ⟨e, run_bind_of_error hp⟩
  · exact .inr ⟨a, rfl, run_bind_of_ok hp⟩

/-- A sequence that returns has run its first part and then its second. -/
theorem run_bind_eq_ok {p : Prog κ σ ε α} {f : α → Prog κ σ ε β} {s s' : σ} {b : β}
    (h : (p >>= f).run s = (.ok b, s')) :
    ∃ a s₁, p.run s = (.ok a, s₁) ∧ (f a).run s₁ = (.ok b, s') := by
  rw [run_bind] at h
  rcases hp : p.run s with ⟨e | a, s₁⟩
  · rw [hp] at h
    cases h
  · rw [hp] at h
    exact ⟨a, s₁, rfl, h⟩

@[simp] theorem run_select_bind (g : σ → α) (f : α → Prog κ σ ε β) (s : σ) :
    (select g >>= f).run s = (f (g s)).run s := rfl

@[simp] theorem run_modify_bind (u : σ → σ) (f : PUnit → Prog κ σ ε β) (s : σ) :
    (modify u >>= f).run s = (f ⟨⟩).run (u s) := rfl

@[simp] theorem run_modifyGet_bind (g : σ → α) (u : σ → σ) (f : α → Prog κ σ ε β) (s : σ) :
    (modifyGet g u >>= f).run s = (f (g s)).run (u s) := rfl

@[simp] theorem run_lock_bind (r : κ) (f : PUnit → Prog κ σ ε β) (s : σ) :
    (lock r >>= f).run s = (f ⟨⟩).run s := rfl

theorem run_forEach_cons {ι : Type*} {f : ι → Prog κ σ ε PUnit} {i : ι} {l : List ι} {s s' : σ}
    (h : (f i).run s = (.ok ⟨⟩, s')) : (forEach (i :: l) f).run s = (forEach l f).run s' :=
  run_bind_of_ok h

/-- A loop of checks that returns has passed every one of them in the same store. -/
theorem run_forEach_eq_ok {ι : Type*} {f : ι → Prog κ σ ε PUnit} {l : List ι} {s s' : σ}
    (hf : ∀ i t, (f i).run s = (.ok ⟨⟩, t) → t = s) (h : (forEach l f).run s = (.ok ⟨⟩, s')) :
    s' = s ∧ ∀ i ∈ l, (f i).run s = (.ok ⟨⟩, s) := by
  induction l with
  | nil =>
    cases h
    exact ⟨rfl, fun _ hi => absurd hi List.not_mem_nil⟩
  | cons i l ih =>
    obtain ⟨⟨⟩, t, hfirst, hrest⟩ := run_bind_eq_ok h
    obtain rfl := hf i t hfirst
    obtain ⟨hsame, hall⟩ := ih hrest
    refine ⟨hsame, fun j hj => ?_⟩
    rcases List.mem_cons.mp hj with rfl | hj
    · exact hfirst
    · exact hall j hj

/-- A block commits its effect when it returns and leaves no trace when it raises. -/
theorem run_atomic (p : Prog κ σ ε α) (s : σ) :
    (atomic p).run s =
      match p.run s with
      | (.ok a, s') => (.ok a, s')
      | (.error e, _) => (.error e, s) := by
  change (p.elim _ _).run s = _
  rw [run_elim]
  rcases p.run s with ⟨_ | _, s'⟩ <;> rfl

theorem snd_run_atomic_of_error {p : Prog κ σ ε α} {s : σ} {e : ε}
    (h : ((atomic p).run s).1 = .error e) : ((atomic p).run s).2 = s := by
  rw [run_atomic] at h ⊢
  rcases hp : p.run s with ⟨_ | _, s'⟩
  · rfl
  · rw [hp] at h
    cases h

theorem run_atomic_of_ok {p : Prog κ σ ε α} {s s' : σ} {a : α}
    (h : p.run s = (.ok a, s')) : (atomic p).run s = (.ok a, s') := by
  rw [run_atomic, h]

theorem run_atomic_eq_ok {p : Prog κ σ ε α} {s s' : σ} {a : α}
    (h : (atomic p).run s = (.ok a, s')) : p.run s = (.ok a, s') := by
  rw [run_atomic] at h
  rcases hp : p.run s with ⟨_ | _, s₁⟩ <;> rw [hp] at h
  · cases h
  · exact h

theorem run_atomic_of_error {p : Prog κ σ ε α} {s s' : σ} {e : ε}
    (h : p.run s = (.error e, s')) : (atomic p).run s = (.error e, s) := by
  rw [run_atomic, h]

/-- A block raises and leaves no trace, or returns as its body does. -/
theorem run_cases_of_eq_atomic {q p : Prog κ σ ε α} (h : q = atomic p) (s : σ) :
    (∃ e, q.run s = (.error e, s)) ∨ ∃ a s', p.run s = (.ok a, s') ∧ q.run s = (.ok a, s') := by
  subst h
  rcases hp : p.run s with ⟨e | a, s'⟩
  · exact .inl ⟨e, run_atomic_of_error hp⟩
  · exact .inr ⟨a, s', rfl, run_atomic_of_ok hp⟩

/-- A program as one statement: nothing of others happens inside it. -/
def whole (p : Prog κ σ ε α) : Prog κ σ ε α :=
  stmt (fun s => (p.run s).2) fun s =>
    match (p.run s).1 with
    | .ok a => ret a
    | .error e => raise e

@[simp] theorem run_whole (p : Prog κ σ ε α) (s : σ) : p.whole.run s = p.run s := by
  change Prog.run (match (p.run s).1 with | .ok a => ret a | .error e => raise e) (p.run s).2 = _
  rcases p.run s with ⟨e | a, t⟩ <;> rfl

/-! ### The statements of a run -/

/-- Every statement the program issues when it runs alone from `s` is a change in `G`. -/
def Steps (G : σ → σ → Prop) : Prog κ σ ε α → σ → Prop
  | ret _, _ => True
  | raise _, _ => True
  | stmt u k, s => G s (u s) ∧ (k s).Steps G (u s)
  | mark _ k, s => k.Steps G s
  | rollback s₀ k, _ => k.Steps G s₀

/-- The stores before and after each statement of that run. -/
def stmts : Prog κ σ ε α → σ → List (σ × σ)
  | ret _, _ => []
  | raise _, _ => []
  | stmt u k, s => (s, u s) :: (k s).stmts (u s)
  | mark _ k, s => k.stmts s
  | rollback s₀ k, _ => k.stmts s₀

variable {G : σ → σ → Prop} {p : Prog κ σ ε α} {s : σ}

theorem steps_iff : p.Steps G s ↔ ∀ st ∈ p.stmts s, G st.1 st.2 := by
  induction p generalizing s with
  | ret a => simp [Steps, stmts]
  | raise e => simp [Steps, stmts]
  | stmt u k ih => simp [Steps, stmts, ih]
  | mark m k ih => exact ih
  | rollback s₀ k ih => exact ih

@[simp] theorem steps_ret (a : α) : (ret a : Prog κ σ ε α).Steps G s := trivial

@[simp] theorem steps_pure (a : α) : (pure a : Prog κ σ ε α).Steps G s := trivial

@[simp] theorem steps_raise (e : ε) : (raise e : Prog κ σ ε α).Steps G s := trivial

theorem steps_elim {f : α → Prog κ σ ε β} {g : ε → Prog κ σ ε β} (hp : p.Steps G s)
    (hf : ∀ a s', p.run s = (.ok a, s') → (f a).Steps G s')
    (hg : ∀ e s', p.run s = (.error e, s') → (g e).Steps G s') : (p.elim f g).Steps G s := by
  induction p generalizing s with
  | ret a => exact hf a s rfl
  | raise e => exact hg e s rfl
  | stmt u k ih => exact ⟨hp.1, ih s hp.2 hf hg⟩
  | mark m k ih => exact ih hp hf hg
  | rollback s₀ k ih => exact ih hp hf hg

theorem steps_bind {f : α → Prog κ σ ε β} (hp : p.Steps G s)
    (hf : ∀ a s', p.run s = (.ok a, s') → (f a).Steps G s') : (p >>= f).Steps G s :=
  steps_elim hp hf fun _ _ _ => trivial

theorem steps_atomic (hG : G s s) (hp : p.Steps G s) : (atomic p).Steps G s :=
  ⟨hG, steps_elim hp (fun _ _ _ => trivial) fun _ _ _ => trivial⟩

theorem steps_forEach {ι : Type*} {f : ι → Prog κ σ ε PUnit} {l : List ι}
    (hf : ∀ i s, (f i).Steps G s) : (forEach l f).Steps G s := by
  induction l generalizing s with
  | nil => trivial
  | cons i l ih => exact steps_bind (hf i s) fun _ _ _ => ih

theorem steps_select_bind {f : β → Prog κ σ ε α} {g : σ → β} (hG : G s s)
    (hf : (f (g s)).Steps G s) : (select g >>= f).Steps G s :=
  ⟨hG, hf⟩

theorem steps_modify_bind {f : PUnit → Prog κ σ ε α} {u : σ → σ} (hG : G s (u s))
    (hf : (f ⟨⟩).Steps G (u s)) : (modify u >>= f).Steps G s :=
  ⟨hG, hf⟩

theorem steps_modifyGet_bind {f : β → Prog κ σ ε α} {g : σ → β} {u : σ → σ} (hG : G s (u s))
    (hf : (f (g s)).Steps G (u s)) : (modifyGet g u >>= f).Steps G s :=
  ⟨hG, hf⟩

theorem steps_lock_bind {f : PUnit → Prog κ σ ε α} {r : κ} (hf : (f ⟨⟩).Steps G s) :
    (lock r >>= f).Steps G s :=
  hf

theorem mem_stmts_elim {f : α → Prog κ σ ε β} {g : ε → Prog κ σ ε β} {st : σ × σ}
    (h : st ∈ p.stmts s) : st ∈ (p.elim f g).stmts s := by
  induction p generalizing s with
  | ret a => cases h
  | raise e => cases h
  | stmt u k ih =>
    rcases List.mem_cons.mp h with rfl | h
    · exact List.mem_cons_self
    · exact List.mem_cons_of_mem _ (ih _ h)
  | mark m k ih => exact ih h
  | rollback s₀ k ih => exact ih h

theorem mem_stmts_elim_of_ok {f : α → Prog κ σ ε β} {g : ε → Prog κ σ ε β} {st : σ × σ} {a : α}
    {s' : σ} (hp : p.run s = (.ok a, s')) (h : st ∈ (f a).stmts s') :
    st ∈ (p.elim f g).stmts s := by
  induction p generalizing s with
  | ret a =>
    cases hp
    exact h
  | raise e => cases hp
  | stmt u k ih => exact List.mem_cons_of_mem _ (ih _ hp)
  | mark m k ih => exact ih hp
  | rollback s₀ k ih => exact ih hp

theorem mem_stmts_bind {f : α → Prog κ σ ε β} {st : σ × σ} (h : st ∈ p.stmts s) :
    st ∈ (p >>= f).stmts s :=
  mem_stmts_elim h

theorem mem_stmts_bind_of_ok {f : α → Prog κ σ ε β} {st : σ × σ} {a : α} {s' : σ}
    (hp : p.run s = (.ok a, s')) (h : st ∈ (f a).stmts s') : st ∈ (p >>= f).stmts s :=
  mem_stmts_elim_of_ok hp h

theorem mem_stmts_atomic {st : σ × σ} (h : st ∈ p.stmts s) : st ∈ (atomic p).stmts s :=
  List.mem_cons_of_mem _ (mem_stmts_elim h)

/-! ### The change of a run -/

/-- A kind of change that contains doing nothing and doing one change after another. -/
structure Kind (R : σ → σ → Prop) : Prop where
  refl : ∀ s, R s s
  trans : ∀ s t u, R s t → R t u → R s u

/-- What follows a part that makes a change in `R` may rely on where that part has led. -/
theorem Kind.bind {R : σ → σ → Prop} (hR : Kind R) {f : α → Prog κ σ ε β} (hp : R s (p.run s).2)
    (hf : ∀ a t, p.run s = (.ok a, t) → R s t → R t ((f a).run t).2) :
    R s ((p >>= f).run s).2 := by
  rw [run_bind]
  rcases hrun : p.run s with ⟨e | a, t⟩ <;> rw [hrun] at hp
  · exact hp
  · exact hR.trans s t _ hp (hf a t hrun hp)

/-- Only a body that returns changes the store. -/
theorem Kind.atomic {R : σ → σ → Prop} (hR : Kind R) (hp : ∀ a t, p.run s = (.ok a, t) → R s t) :
    R s ((atomic p).run s).2 := by
  rw [run_atomic]
  rcases hrun : p.run s with ⟨e | a, t⟩
  · exact hR.refl s
  · exact hp a t hrun

theorem Kind.forEach {R : σ → σ → Prop} (hR : Kind R) {ι : Type*} {f : ι → Prog κ σ ε PUnit}
    {l : List ι} (hf : ∀ i ∈ l, ∀ t, R s t → R t ((f i).run t).2) :
    R s ((forEach l f).run s).2 := by
  induction l generalizing s with
  | nil => exact hR.refl s
  | cons i l ih =>
    refine hR.bind (hf i List.mem_cons_self s (hR.refl s)) fun _ t _ hst => ih fun j hj u htu => ?_
    exact hf j (List.mem_cons_of_mem i hj) u (hR.trans s t u hst htu)

/-- Run alone from any store, the program makes a change in `R`. -/
def Makes (R : σ → σ → Prop) (p : Prog κ σ ε α) : Prop := ∀ s, R s (p.run s).2

section

variable {R : σ → σ → Prop}

theorem makes_pure (hR : Kind R) (a : α) : (pure a : Prog κ σ ε α).Makes R := hR.refl

theorem makes_raise (hR : Kind R) (e : ε) : (raise e : Prog κ σ ε α).Makes R := hR.refl

theorem Makes.bind (hR : Kind R) {f : α → Prog κ σ ε β} (hp : p.Makes R) (hf : ∀ a, (f a).Makes R) :
    (p >>= f).Makes R :=
  fun s => hR.bind (hp s) fun a t _ _ => hf a t

theorem makes_select_bind {g : σ → α} {f : α → Prog κ σ ε β} (hf : ∀ a, (f a).Makes R) :
    (select g >>= f).Makes R := fun s => hf (g s) s

theorem makes_modifyGet_bind (hR : Kind R) {g : σ → α} {u : σ → σ} {f : α → Prog κ σ ε β}
    (h : ∀ s, R s (u s)) (hf : ∀ a, (f a).Makes R) : (modifyGet g u >>= f).Makes R :=
  fun s => hR.trans s (u s) _ (h s) (hf (g s) (u s))

/-- A block makes the change of its body or none. -/
theorem Makes.atomic (hR : Kind R) (hp : p.Makes R) : (atomic p).Makes R :=
  fun s => hR.atomic fun a t hrun => by simpa only [hrun] using hp s

end

end Prog

end Process
