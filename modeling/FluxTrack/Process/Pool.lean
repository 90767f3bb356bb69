import FluxTrack.Process.Prog
import Mathlib.Data.Finset.Dedup
import Mathlib.Data.Fintype.Basic

/-!
# Pools of programs

Programs that share one store and take turns statement by statement. Outside
every block a statement takes effect at once. Inside a block the changes are
pending: the program itself reads the store with its pending changes, the others
read it without, and the changes take effect together when the outermost block
is left (read committed). A block that is undone drops the changes made since it
was entered. A lock is kept to the end of the outermost block, and a program that
asks for a lock another one holds does not move.

## Main definitions

* `Process.Thread`, `Process.Pool` — a program in progress, and all of them with
  the store
* `Pool.step`, `Pool.exec` — one program moves; a schedule of moves
* `Prog.Nested` — blocks are entered and left in order
* `Pool.Exclusive` — every program is one block that starts with the same lock

## Main results

* `Pool.exclusive_start`, `Pool.Exclusive.step` — exclusion is an invariant
* `Pool.Exclusive.exec` — the rule for exclusive blocks: what the blocks preserve
  when they run alone, one after another, holds in every pool that a schedule reaches
* `Pool.Exclusive.exists_exec_ended` — exclusive blocks cannot get stuck
-/

namespace Process

universe u v

variable {ι : Type v} {κ σ ε α β : Type u}

/-- A program in progress. -/
structure Thread (κ σ ε α : Type u) where
  prog : Prog κ σ ε α
  /-- the changes that have not taken effect -/
  pending : σ → σ
  /-- for each open block, innermost first, the changes pending when it was entered -/
  blocks : List (σ → σ)
  held : List κ

/-- A program that has not moved. -/
def Thread.start (p : Prog κ σ ε α) : Thread κ σ ε α := ⟨p, id, [], []⟩

/-- The outcome of a program that has ended. -/
def Thread.outcome (th : Thread κ σ ε α) : Option (Except ε α) :=
  match th.prog with
  | .ret a => some (.ok a)
  | .raise e => some (.error e)
  | _ => none

/-- The programs in progress with the store they share. -/
structure Pool (ι : Type v) (κ σ ε α : Type u) where
  store : σ
  threads : ι → Thread κ σ ε α

namespace Pool

/-- The pool before any program has moved. -/
def start (s : σ) (progs : ι → Prog κ σ ε α) : Pool ι κ σ ε α := ⟨s, fun i => .start (progs i)⟩

/-- The outcomes of the programs that have ended. -/
def outcomes (P : Pool ι κ σ ε α) : ι → Option (Except ε α) := fun i => (P.threads i).outcome

/-- No other program holds the lock on `r`. -/
def Free (P : Pool ι κ σ ε α) (i : ι) (r : κ) : Prop := ∀ j, j ≠ i → r ∉ (P.threads j).held

variable [DecidableEq ι]

/-- Program `i` goes on as `th`. Outside every block its changes take effect and its
locks are given back. -/
def put (P : Pool ι κ σ ε α) (i : ι) (th : Thread κ σ ε α) : Pool ι κ σ ε α :=
  match th.blocks with
  | [] => ⟨th.pending P.store, Function.update P.threads i (.start th.prog)⟩
  | _ :: _ => ⟨P.store, Function.update P.threads i th⟩

variable {P : Pool ι κ σ ε α} {i j : ι} {th : Thread κ σ ε α}

theorem put_of_nil (h : th.blocks = []) :
    P.put i th = ⟨th.pending P.store, Function.update P.threads i (.start th.prog)⟩ := by
  rw [put, h]

theorem put_of_ne_nil (h : th.blocks ≠ []) :
    P.put i th = ⟨P.store, Function.update P.threads i th⟩ := by
  rw [put]
  split
  · contradiction
  · rfl

theorem threads_put_of_ne (h : j ≠ i) : (P.put i th).threads j = P.threads j := by
  rw [put]
  split <;> exact Function.update_of_ne h _ _

variable [Fintype ι] [DecidableEq κ]

instance (r : κ) : Decidable (P.Free i r) :=
  inferInstanceAs (Decidable (∀ j, j ≠ i → r ∉ (P.threads j).held))

/-- Program `i` makes one move, unless it has ended or waits for a lock. -/
def step (P : Pool ι κ σ ε α) (i : ι) : Pool ι κ σ ε α :=
  match P.threads i with
  | ⟨.ret _, _, _, _⟩ => P
  | ⟨.raise _, _, _, _⟩ => P
  | ⟨.stmt u k, pending, blocks, held⟩ =>
    P.put i ⟨k (pending P.store), fun s => u (pending s), blocks, held⟩
  | ⟨.mark .enter k, pending, blocks, held⟩ => P.put i ⟨k, pending, pending :: blocks, held⟩
  | ⟨.mark .leave k, pending, blocks, held⟩ => P.put i ⟨k, pending, blocks.tail, held⟩
  | ⟨.mark (.lock r) k, pending, blocks, held⟩ =>
    if P.Free i r then P.put i ⟨k, pending, blocks, r :: held⟩ else P
  | ⟨.rollback _ k, _, blocks, held⟩ => P.put i ⟨k, blocks.headD id, blocks, held⟩

/-- The programs move in the order of a schedule. -/
def exec (P : Pool ι κ σ ε α) (schedule : List ι) : Pool ι κ σ ε α := schedule.foldl step P

theorem exec_append (P : Pool ι κ σ ε α) (l l' : List ι) :
    P.exec (l ++ l') = (P.exec l).exec l' :=
  List.foldl_append

theorem exec_cons (P : Pool ι κ σ ε α) (i : ι) (l : List ι) : P.exec (i :: l) = (P.step i).exec l :=
  rfl

theorem threads_step_of_ne (h : j ≠ i) : (P.step i).threads j = P.threads j := by
  rw [step]
  split
  case h_6 =>
    split
    · exact threads_put_of_ne h
    · rfl
  all_goals first | rfl | exact threads_put_of_ne h

/-- A program that is not scheduled does not move. -/
theorem threads_exec_of_notMem {l : List ι} (h : j ∉ l) : (P.exec l).threads j = P.threads j := by
  induction l generalizing P with
  | nil => rfl
  | cons i l ih =>
    have hne : j ≠ i := fun heq => h (heq ▸ List.mem_cons_self)
    rw [exec_cons, ih fun hmem => h (List.mem_cons_of_mem i hmem), threads_step_of_ne hne]

/-- A program that has ended stays as it is. -/
theorem outcomes_exec_of_isSome (h : (P.outcomes i).isSome = true) (l : List ι) :
    (P.exec l).outcomes i = P.outcomes i := by
  induction l generalizing P with
  | nil => rfl
  | cons j l ih =>
    have hstep : (P.step j).outcomes i = P.outcomes i := by
      by_cases hij : i = j
      · subst hij
        rw [outcomes, Thread.outcome] at h
        rw [step]
        split <;> simp_all
      · rw [outcomes, outcomes, threads_step_of_ne hij]
    rw [exec_cons, ih (hstep ▸ h), hstep]

omit [Fintype ι] [DecidableEq κ] in
theorem prog_put : ((P.put i th).threads i).prog = th.prog := by
  rw [put]
  split <;> simp [Thread.start]

/-- Program `i` ends when it moves on alone. -/
def Ends (P : Pool ι κ σ ε α) (i : ι) : Prop :=
  ∃ n, ((P.exec (.replicate n i)).outcomes i).isSome = true ∧
    ∀ j, j ≠ i → (P.exec (.replicate n i)).threads j = P.threads j

theorem Ends.of_step (h : (P.step i).Ends i) : P.Ends i := by
  obtain ⟨n, hended, hothers⟩ := h
  refine ⟨n + 1, hended, fun j hj => ?_⟩
  rw [List.replicate_succ, exec_cons, hothers j hj, threads_step_of_ne hj]

/-- A program that nobody stands in the way of ends. -/
theorem ends_of_held_eq_nil (hfree : ∀ j, j ≠ i → (P.threads j).held = []) : P.Ends i := by
  obtain ⟨p, hp⟩ : ∃ p, (P.threads i).prog = p := ⟨_, rfl⟩
  induction p generalizing P with
  | ret a => exact ⟨0, by simp [exec, outcomes, hp, Thread.outcome], fun _ _ => rfl⟩
  | raise e => exact ⟨0, by simp [exec, outcomes, hp, Thread.outcome], fun _ _ => rfl⟩
  | stmt u k ih =>
    obtain ⟨th, hth⟩ : ∃ th, P.threads i = th := ⟨_, rfl⟩
    obtain ⟨_, pending, blocks, held⟩ := th
    obtain rfl : _ = Prog.stmt u k := by simpa [hth] using hp
    have hstep : P.step i =
        P.put i ⟨k (pending P.store), fun s => u (pending s), blocks, held⟩ := by
      rw [step, hth]
    refine .of_step (ih (pending P.store) (fun j hj => ?_) (by rw [hstep, prog_put]))
    rw [threads_step_of_ne hj]
    exact hfree j hj
  | mark m k ih =>
    obtain ⟨th, hth⟩ : ∃ th, P.threads i = th := ⟨_, rfl⟩
    obtain ⟨_, pending, blocks, held⟩ := th
    obtain rfl : _ = Prog.mark m k := by simpa [hth] using hp
    have hstep : ((P.step i).threads i).prog = k := by
      rw [step, hth]
      cases m with
      | enter => exact prog_put
      | leave => exact prog_put
      | lock r =>
        -- nobody holds the lock, so it is taken at once
        have hlock : P.Free i r := fun j hj hmem => by
          rw [hfree j hj] at hmem
          cases hmem
        change ((if P.Free i r then _ else P).threads i).prog = k
        rw [if_pos hlock, prog_put]
    refine .of_step (ih (fun j hj => ?_) hstep)
    rw [threads_step_of_ne hj]
    exact hfree j hj
  | rollback s₀ k ih =>
    obtain ⟨th, hth⟩ : ∃ th, P.threads i = th := ⟨_, rfl⟩
    obtain ⟨_, pending, blocks, held⟩ := th
    obtain rfl : _ = Prog.rollback s₀ k := by simpa [hth] using hp
    have hstep : P.step i = P.put i ⟨k, blocks.headD id, blocks, held⟩ := by
      rw [step, hth]
    refine .of_step (ih (fun j hj => ?_) (by rw [hstep, prog_put]))
    rw [threads_step_of_ne hj]
    exact hfree j hj

end Pool

/-! ### Nested blocks -/

namespace Prog

/-- Run alone from `s` with the stores `st` to go back to, innermost first, the program
undoes the blocks it has entered, goes back to the store of the entry, and ends with
every block left. -/
def Closes : List σ → Prog κ σ ε α → σ → Prop
  | st, ret _, _ => st = []
  | st, raise _, _ => st = []
  | st, stmt u k, s => (k s).Closes st (u s)
  | st, mark .enter k, s => k.Closes (s :: st) s
  | st, mark .leave k, s => st ≠ [] ∧ k.Closes st.tail s
  | st, mark (.lock _) k, s => k.Closes st s
  | st, rollback s₀ k, _ => st.head? = some s₀ ∧ k.Closes st s₀

/-- The program leaves the blocks it enters, wherever it is continued. -/
def Nested (p : Prog κ σ ε α) : Prop :=
  ∀ (β : Type u) (f : α → Prog κ σ ε β) (g : ε → Prog κ σ ε β) (st : List σ) (s : σ),
    (∀ a t, (f a).Closes st t) → (∀ e t, (g e).Closes st t) → (p.elim f g).Closes st s

variable {p : Prog κ σ ε α}

theorem Nested.closes (hp : p.Nested) (s : σ) : p.Closes [] s := by
  have h := hp α ret raise [] s (fun _ _ => rfl) fun _ _ => rfl
  rwa [elim_ret_raise] at h

theorem nested_ret (a : α) : (ret a : Prog κ σ ε α).Nested := fun _ _ _ _ s hf _ => hf a s

theorem nested_raise (e : ε) : (raise e : Prog κ σ ε α).Nested := fun _ _ _ _ s _ hg => hg e s

theorem Nested.elim {f : α → Prog κ σ ε β} {g : ε → Prog κ σ ε β} (hp : p.Nested)
    (hf : ∀ a, (f a).Nested) (hg : ∀ e, (g e).Nested) : (p.elim f g).Nested := by
  intro γ f' g' st s hf' hg'
  rw [elim_elim]
  exact hp γ _ _ st s (fun a t => hf a γ f' g' st t hf' hg') fun e t => hg e γ f' g' st t hf' hg'

theorem Nested.bind {f : α → Prog κ σ ε β} (hp : p.Nested) (hf : ∀ a, (f a).Nested) :
    (p >>= f).Nested :=
  hp.elim hf nested_raise

theorem nested_stmt {u : σ → σ} {k : σ → Prog κ σ ε α} (h : ∀ s, (k s).Nested) :
    (stmt u k).Nested := fun β f g st s hf hg => h s β f g st (u s) hf hg

theorem nested_select (f : σ → α) : (select f : Prog κ σ ε α).Nested :=
  nested_stmt fun s => nested_ret (f s)

theorem nested_modify (u : σ → σ) : (modify u : Prog κ σ ε PUnit).Nested :=
  nested_stmt fun _ => nested_ret _

theorem nested_lock (r : κ) : (lock r : Prog κ σ ε PUnit).Nested :=
  fun _ _ _ _ s hf _ => hf _ s

theorem Nested.forEach {δ : Type*} {f : δ → Prog κ σ ε PUnit} (hf : ∀ i, (f i).Nested)
    (l : List δ) : (Prog.forEach l f).Nested := by
  induction l with
  | nil => exact nested_ret _
  | cons i l ih => exact (hf i).bind fun _ => ih

theorem Nested.atomic (hp : p.Nested) : (Prog.atomic p).Nested := by
  intro β f g st s hf hg
  change ((p.elim _ _).elim f g).Closes (s :: st) s
  rw [elim_elim]
  refine hp β _ _ (s :: st) s (fun a t => ?_) fun e t => ?_
  · exact ⟨List.cons_ne_nil s st, hf a t⟩
  · exact ⟨rfl, List.cons_ne_nil s st, hg e s⟩

/-- A block that answers differently. -/
theorem map_atomic (f : α → β) (p : Prog κ σ ε α) : f <$> atomic p = atomic (f <$> p) := by
  change (stmt id fun s₀ => mark .enter ((p.elim _ _).elim (fun a => ret (f a)) raise)) =
    stmt id fun s₀ => mark .enter ((p.elim (fun a => ret (f a)) raise).elim _ _)
  simp only [elim_elim]
  rfl

/-- The rest of a block whose body goes on as `q`. -/
def closing (s₀ : σ) (q : Prog κ σ ε α) : Prog κ σ ε α :=
  q.elim (fun a => mark .leave (ret a)) fun e => rollback s₀ (mark .leave (raise e))

end Prog

/-! ### Exclusive blocks -/

/-- How far a program has come that is one block with the body `body` under the lock on
`r`. Only the program whose turn it is has read or changed anything: run alone from the
store `s` the body would go on as this program does. -/
inductive Turn (r : κ) (body : Prog κ σ ε α) (s : σ) : Thread κ σ ε α → Prop
  | start : Turn r body s (.start (.atomic (.lock r >>= fun _ => body)))
  | begun (s₀ : σ) : Turn r body s (.start (.mark .enter (.mark (.lock r) (body.closing s₀))))
  | waiting (s₀ : σ) : Turn r body s ⟨.mark (.lock r) (body.closing s₀), id, [id], []⟩
  | inside (s₀ : σ) {q : Prog κ σ ε α} {pending : σ → σ} {blocks : List (σ → σ)} {held : List κ}
      (hr : r ∈ held) (hclose : q.Closes (blocks.map fun b => b s) (pending s))
      (hrun : q.run (pending s) = body.run s) :
      Turn r body s ⟨q.closing s₀, pending, blocks ++ [id], held⟩
  | undone {e : ε} {s' : σ} {held : List κ} (hr : r ∈ held) (hrun : body.run s = (.error e, s')) :
      Turn r body s ⟨.mark .leave (.raise e), id, [id], held⟩
  | returned (a : α) : Turn r body s (.start (.ret a))
  | raised (e : ε) : Turn r body s (.start (.raise e))

/-- A program that is not inside does not depend on the store. -/
theorem Turn.of_notMem {r : κ} {body : Prog κ σ ε α} {s s' : σ} {th : Thread κ σ ε α}
    (h : Turn r body s th) (hr : r ∉ th.held) : Turn r body s' th := by
  cases h with
  | start => exact .start
  | begun s₀ => exact .begun s₀
  | waiting s₀ => exact .waiting s₀
  | inside _ hmem => exact absurd hmem hr
  | undone hmem => exact absurd hmem hr
  | returned a => exact .returned a
  | raised e => exact .raised e

theorem outcome_closing (s₀ : σ) (q : Prog κ σ ε α) (pending : σ → σ) (blocks : List (σ → σ))
    (held : List κ) : (⟨q.closing s₀, pending, blocks, held⟩ : Thread κ σ ε α).outcome = none := by
  cases q <;> rfl

theorem Turn.held_of_notMem {r : κ} {body : Prog κ σ ε α} {s : σ} {th : Thread κ σ ε α}
    (h : Turn r body s th) (hr : r ∉ th.held) : th.held = [] := by
  cases h with
  | inside _ hmem => exact absurd hmem hr
  | undone hmem => exact absurd hmem hr
  | _ => rfl

theorem Turn.held_of_isSome {r : κ} {body : Prog κ σ ε α} {s : σ} {th : Thread κ σ ε α}
    (h : Turn r body s th) (hended : th.outcome.isSome = true) : th.held = [] := by
  cases h with
  | inside s₀ =>
    rw [outcome_closing] at hended
    cases hended
  | undone => cases hended
  | _ => rfl

namespace Pool

/-- Every program is one block under the lock on `r`, and at most one is inside. -/
structure Exclusive (r : κ) (body : ι → Prog κ σ ε α) (P : Pool ι κ σ ε α) : Prop where
  turn : ∀ i, Turn r (body i) P.store (P.threads i)
  alone : ∀ i, r ∈ (P.threads i).held → P.Free i r

variable {r : κ} {body : ι → Prog κ σ ε α} {P : Pool ι κ σ ε α} {i : ι}
  {th : Thread κ σ ε α}

theorem exclusive_start (s : σ) :
    Exclusive r body (.start s fun i => .atomic (.lock r >>= fun _ => body i)) :=
  ⟨fun _ => .start, fun _ h => absurd h List.not_mem_nil⟩

variable [DecidableEq ι]

theorem outcomes_put : (P.put i th).outcomes = Function.update P.outcomes i th.outcome := by
  funext j
  by_cases hj : j = i
  · subst hj
    rw [Function.update_self, outcomes, put]
    split <;> simp [Thread.start, Thread.outcome]
  · rw [Function.update_of_ne hj, outcomes, outcomes, threads_put_of_ne hj]

/-- A move that does not end a program leaves the outcomes as they are. -/
theorem outcomes_put_of_none (h : P.outcomes i = none) (hth : th.outcome = none) :
    (P.put i th).outcomes = P.outcomes := by
  rw [outcomes_put, hth, ← h, Function.update_eq_self]

/-- A program goes on inside its block. -/
theorem Exclusive.put_inside (h : Exclusive r body P) (hb : th.blocks ≠ [])
    (hturn : Turn r (body i) P.store th) (hfree : r ∈ th.held → P.Free i r) :
    Exclusive r body (P.put i th) := by
  rw [put_of_ne_nil hb]
  constructor
  · intro j
    by_cases hj : j = i
    · subst hj
      simpa using hturn
    · simpa [hj] using h.turn j
  · intro j hheld k hk
    by_cases hj : j = i
    · subst hj
      simp only [Function.update_self] at hheld
      simpa [hk] using hfree hheld k hk
    · simp only [Function.update_of_ne hj] at hheld
      by_cases hki : k = i
      · subst hki
        -- the moving program asks for the lock, so nobody else has it
        intro hmem
        simp only [Function.update_self] at hmem
        exact hfree hmem j hj hheld
      · simpa [hki] using h.alone j hheld k hk

/-- A program moves outside its block: it has had its turn, or it changes nothing. -/
theorem Exclusive.put_outside (h : Exclusive r body P) (hb : th.blocks = [])
    (hturn : ∀ s, Turn r (body i) s (.start th.prog))
    (hown : r ∈ (P.threads i).held ∨ th.pending P.store = P.store) :
    Exclusive r body (P.put i th) := by
  rw [put_of_nil hb]
  constructor
  · intro j
    by_cases hj : j = i
    · subst hj
      simpa using hturn _
    · simp only [Function.update_of_ne hj]
      rcases hown with hmem | hsame
      · exact (h.turn j).of_notMem (h.alone i hmem j hj)
      · rw [hsame]
        exact h.turn j
  · intro j hheld k hk
    by_cases hj : j = i
    · subst hj
      simp [Thread.start] at hheld
    · simp only [Function.update_of_ne hj] at hheld
      by_cases hki : k = i
      · subst hki
        simp [Thread.start]
      · simpa [hki] using h.alone j hheld k hk

variable [Fintype ι] [DecidableEq κ]

/-- The block of a program. -/
abbrev block (r : κ) (body : ι → Prog κ σ ε α) (i : ι) : Prog κ σ ε α :=
  .atomic (.lock r >>= fun _ => body i)

omit [DecidableEq ι] [Fintype ι] [DecidableEq κ] in
theorem run_block (s : σ) :
    (block r body i).run s =
      match (body i).run s with
      | (.ok a, s') => (.ok a, s')
      | (.error e, _) => (.error e, s) := by
  rcases hbody : (body i).run s with ⟨_ | _, _⟩ <;>
    rw [Prog.run_atomic, Prog.run_lock_bind, hbody]

/-- A move changes neither the store nor the outcomes, or it ends a program as if its
block had run alone from the store it finds. -/
def Serial (r : κ) (body : ι → Prog κ σ ε α) (P : Pool ι κ σ ε α) (i : ι) (Q : Pool ι κ σ ε α) :
    Prop :=
  (Q.store = P.store ∧ Q.outcomes = P.outcomes) ∨
  (P.outcomes i = none ∧ Q.store = ((block r body i).run P.store).2 ∧
    Q.outcomes = Function.update P.outcomes i (some ((block r body i).run P.store).1))

omit [Fintype ι] [DecidableEq κ] in
/-- A move inside the block is not seen from outside. -/
theorem serial_put (hb : th.blocks ≠ []) (h : P.outcomes i = none) (hth : th.outcome = none) :
    Serial r body P i (P.put i th) := by
  refine .inl ⟨?_, outcomes_put_of_none h hth⟩
  rw [put_of_ne_nil hb]

/-- A move of the program that is inside. -/
theorem Exclusive.step_inside (h : Exclusive r body P) {s₀ : σ} {q : Prog κ σ ε α}
    {pending : σ → σ} {blocks : List (σ → σ)} {held : List κ} (hr : r ∈ held)
    (hclose : q.Closes (blocks.map fun b => b P.store) (pending P.store))
    (hrun : q.run (pending P.store) = (body i).run P.store)
    (hth : P.threads i = ⟨q.closing s₀, pending, blocks ++ [id], held⟩) :
    Exclusive r body (P.step i) ∧ Serial r body P i (P.step i) := by
  have hnone : P.outcomes i = none := by
    rw [outcomes, hth]
    exact outcome_closing s₀ q _ _ _
  have hfree : P.Free i r := h.alone i (by rw [hth]; exact hr)
  cases q with
  | ret a =>
    have hb : blocks = [] := List.map_eq_nil_iff.mp hclose
    subst hb
    have hstep : P.step i = P.put i ⟨.ret a, pending, [], held⟩ := by
      rw [step, hth]
      rfl
    rw [hstep]
    refine ⟨h.put_outside rfl (fun _ => .returned a) (.inl (by rw [hth]; exact hr)), .inr ?_⟩
    rw [outcomes_put, put_of_nil rfl, run_block, ← hrun]
    exact ⟨hnone, rfl, rfl⟩
  | raise e =>
    have hb : blocks = [] := List.map_eq_nil_iff.mp hclose
    subst hb
    have hstep : P.step i = P.put i ⟨.mark .leave (.raise e), id, [id], held⟩ := by
      rw [step, hth]
      rfl
    rw [hstep]
    exact ⟨h.put_inside (List.cons_ne_nil _ _) (.undone hr hrun.symm) fun _ => hfree,
      serial_put (List.cons_ne_nil _ _) hnone rfl⟩
  | stmt u k =>
    have hstep : P.step i = P.put i ⟨(k (pending P.store)).closing s₀, fun s => u (pending s),
        blocks ++ [id], held⟩ := by
      rw [step, hth]
      rfl
    rw [hstep]
    exact ⟨h.put_inside (by simp) (.inside s₀ hr hclose hrun) fun _ => hfree,
      serial_put (by simp) hnone (outcome_closing s₀ _ _ _ _)⟩
  | mark m k =>
    cases m with
    | enter =>
      have hstep : P.step i = P.put i ⟨k.closing s₀, pending, (pending :: blocks) ++ [id],
          held⟩ := by
        rw [step, hth]
        rfl
      rw [hstep]
      exact ⟨h.put_inside (by simp) (.inside s₀ hr hclose hrun) fun _ => hfree,
        serial_put (by simp) hnone (outcome_closing s₀ _ _ _ _)⟩
    | leave =>
      -- the block that is left is not the outermost one
      obtain ⟨hne, hclose⟩ := hclose
      obtain ⟨b, blocks, rfl⟩ := List.exists_cons_of_ne_nil (mt List.map_eq_nil_iff.mpr hne)
      have hstep : P.step i = P.put i ⟨k.closing s₀, pending, blocks ++ [id], held⟩ := by
        rw [step, hth]
        rfl
      rw [hstep]
      exact ⟨h.put_inside (by simp) (.inside s₀ hr hclose hrun) fun _ => hfree,
        serial_put (by simp) hnone (outcome_closing s₀ _ _ _ _)⟩
    | lock r' =>
      by_cases hlock : P.Free i r'
      · have hstep : P.step i = P.put i ⟨k.closing s₀, pending, blocks ++ [id], r' :: held⟩ := by
          rw [step, hth]
          exact if_pos hlock
        rw [hstep]
        exact ⟨h.put_inside (by simp) (.inside s₀ (List.mem_cons_of_mem r' hr) hclose hrun)
          fun _ => hfree, serial_put (by simp) hnone (outcome_closing s₀ _ _ _ _)⟩
      · have hstep : P.step i = P := by
          rw [step, hth]
          exact if_neg hlock
        rw [hstep]
        exact ⟨h, .inl ⟨rfl, rfl⟩⟩
  | rollback s₁ k =>
    obtain ⟨hhead, hclose⟩ := hclose
    obtain ⟨b, blocks, rfl⟩ : ∃ b bs, blocks = b :: bs := by
      refine List.exists_cons_of_ne_nil ?_
      rintro rfl
      cases hhead
    have hstep : P.step i = P.put i ⟨k.closing s₀, b, (b :: blocks) ++ [id], held⟩ := by
      rw [step, hth]
      rfl
    have hb : b P.store = s₁ := Option.some.inj hhead
    rw [hstep]
    refine ⟨h.put_inside (by simp) (.inside s₀ hr ?_ ?_) fun _ => hfree,
      serial_put (by simp) hnone (outcome_closing s₀ _ _ _ _)⟩
    · rw [hb]
      exact hclose
    · rw [hb]
      exact hrun

/-- Every move keeps exclusion, and what it does is serial. -/
theorem Exclusive.step (hbody : ∀ i, (body i).Nested) (h : Exclusive r body P) (i : ι) :
    Exclusive r body (P.step i) ∧ Serial r body P i (P.step i) := by
  obtain ⟨th, hth⟩ : ∃ th, P.threads i = th := ⟨_, rfl⟩
  have hturn := h.turn i
  rw [hth] at hturn
  cases hturn with
  | start =>
    have hstep : P.step i = P.put i
        (.start (.mark .enter (.mark (.lock r) ((body i).closing P.store)))) := by
      rw [Pool.step, hth]
      rfl
    have hnone : P.outcomes i = none := by
      rw [outcomes, hth]
      rfl
    rw [hstep]
    refine ⟨h.put_outside rfl (fun _ => .begun P.store) (.inr rfl), .inl ⟨?_, ?_⟩⟩
    · rw [put_of_nil rfl]
      rfl
    · exact outcomes_put_of_none hnone rfl
  | begun s₀ =>
    have hstep : P.step i = P.put i ⟨.mark (.lock r) ((body i).closing s₀), id, [id], []⟩ := by
      rw [Pool.step, hth]
      rfl
    have hnone : P.outcomes i = none := by
      rw [outcomes, hth]
      rfl
    rw [hstep]
    exact ⟨h.put_inside (List.cons_ne_nil _ _) (.waiting s₀)
      fun hmem => absurd hmem List.not_mem_nil, serial_put (List.cons_ne_nil _ _) hnone rfl⟩
  | waiting s₀ =>
    by_cases hlock : P.Free i r
    · have hstep : P.step i = P.put i ⟨(body i).closing s₀, id, [] ++ [id], [r]⟩ := by
        rw [Pool.step, hth]
        exact if_pos hlock
      have hnone : P.outcomes i = none := by
        rw [outcomes, hth]
        rfl
      rw [hstep]
      -- with the lock, the body runs on the store as it is now
      refine ⟨h.put_inside (by simp) ?_ fun _ => hlock,
        serial_put (by simp) hnone (outcome_closing s₀ _ _ _ _)⟩
      exact .inside s₀ (List.mem_singleton_self r) ((hbody i).closes P.store) rfl
    · have hstep : P.step i = P := by
        rw [Pool.step, hth]
        exact if_neg hlock
      rw [hstep]
      exact ⟨h, .inl ⟨rfl, rfl⟩⟩
  | inside s₀ hr hclose hrun => exact h.step_inside hr hclose hrun hth
  | undone hr hrun =>
    rename_i e s' held
    have hstep : P.step i = P.put i ⟨.raise e, id, [], held⟩ := by
      rw [Pool.step, hth]
      rfl
    have hnone : P.outcomes i = none := by
      rw [outcomes, hth]
      rfl
    rw [hstep]
    -- a body that raised has run in full, and the block leaves no trace
    refine ⟨h.put_outside rfl (fun _ => .raised e) (.inr rfl), .inr ⟨hnone, ?_⟩⟩
    rw [outcomes_put, put_of_nil rfl, run_block, hrun]
    exact ⟨rfl, rfl⟩
  | returned a =>
    have hstep : P.step i = P := by
      rw [Pool.step, hth]
      rfl
    rw [hstep]
    exact ⟨h, .inl ⟨rfl, rfl⟩⟩
  | raised e =>
    have hstep : P.step i = P := by
      rw [Pool.step, hth]
      rfl
    rw [hstep]
    exact ⟨h, .inl ⟨rfl, rfl⟩⟩

/-- The rule for exclusive blocks: a property of the store and the outcomes that every
block preserves when it runs alone is kept along every schedule. -/
theorem Exclusive.exec {Φ : σ → (ι → Option (Except ε α)) → Prop}
    (hbody : ∀ i, (body i).Nested)
    (hΦ : ∀ s out i, Φ s out → out i = none →
      Φ ((block r body i).run s).2 (Function.update out i (some ((block r body i).run s).1)))
    (h : Exclusive r body P) (hP : Φ P.store P.outcomes) (schedule : List ι) :
    Exclusive r body (P.exec schedule) ∧
      Φ (P.exec schedule).store (P.exec schedule).outcomes := by
  induction schedule generalizing P with
  | nil => exact ⟨h, hP⟩
  | cons i schedule ih =>
    obtain ⟨hnext, hserial⟩ := h.step hbody i
    refine ih hnext ?_
    rcases hserial with ⟨hstore, hout⟩ | ⟨hnone, hstore, hout⟩
    · rwa [hstore, hout]
    · rw [hstore, hout]
      exact hΦ _ _ i hP hnone

/-- From every pool of exclusive blocks some schedule ends all of them. -/
theorem Exclusive.exists_exec_ended (hbody : ∀ i, (body i).Nested) (h : Exclusive r body P) :
    ∃ schedule, ∀ i, ((P.exec schedule).outcomes i).isSome = true := by
  have hkeep : ∀ {Q : Pool ι κ σ ε α}, Exclusive r body Q → ∀ l, Exclusive r body (Q.exec l) :=
    fun hQ l => (hQ.exec (Φ := fun _ _ => True) hbody (fun _ _ _ _ _ => trivial) trivial l).1
  -- with nobody inside, the programs can end one after another
  have hlist : ∀ (l : List ι) (Q : Pool ι κ σ ε α), Exclusive r body Q →
      (∀ i, (Q.threads i).held = []) →
      ∃ schedule, ∀ i ∈ l, ((Q.exec schedule).outcomes i).isSome = true := by
    intro l
    induction l with
    | nil => exact fun Q _ _ => ⟨[], fun _ hi => absurd hi List.not_mem_nil⟩
    | cons i l ih =>
      intro Q hQ hheld
      obtain ⟨n, hended, hothers⟩ := ends_of_held_eq_nil (i := i) fun j _ => hheld j
      have hnext := hkeep hQ (.replicate n i)
      obtain ⟨schedule, hall⟩ := ih _ hnext fun j => by
        by_cases hj : j = i
        · subst hj
          exact (hnext.turn j).held_of_isSome hended
        · rw [hothers j hj]
          exact hheld j
      refine ⟨.replicate n i ++ schedule, fun j hj => ?_⟩
      rw [exec_append]
      rcases List.mem_cons.mp hj with rfl | hj
      · rw [outcomes_exec_of_isSome hended]
        exact hended
      · exact hall j hj
  -- the program that is inside ends first
  by_cases hin : ∃ i, r ∈ (P.threads i).held
  · obtain ⟨i, hi⟩ := hin
    have hout : ∀ j, j ≠ i → (P.threads j).held = [] := fun j hj =>
      (h.turn j).held_of_notMem (h.alone i hi j hj)
    obtain ⟨n, hended, hothers⟩ := ends_of_held_eq_nil hout
    have hnext := hkeep h (.replicate n i)
    obtain ⟨schedule, hall⟩ := hlist Finset.univ.toList _ hnext fun j => by
      by_cases hj : j = i
      · subst hj
        exact (hnext.turn j).held_of_isSome hended
      · rw [hothers j hj]
        exact hout j hj
    refine ⟨.replicate n i ++ schedule, fun j => ?_⟩
    rw [exec_append]
    exact hall j (Finset.mem_toList.mpr (Finset.mem_univ j))
  · obtain ⟨schedule, hall⟩ := hlist Finset.univ.toList P h fun j =>
      (h.turn j).held_of_notMem fun hmem => hin ⟨j, hmem⟩
    exact ⟨schedule, fun j => hall j (Finset.mem_toList.mpr (Finset.mem_univ j))⟩

end Pool

end Process
