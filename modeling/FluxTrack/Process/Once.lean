import FluxTrack.Process.Agree

/-!
# Doing something once

Several programs are asked for the same thing. Each looks for a note that says that the thing is
done; if there is none it does it and leaves the note. Looking, doing and noting are different
statements, so two programs may both look before either has left the note, and then both do it.
As long as no two are between the look and the note the thing is done exactly once: what the
others do in the meantime is outside the part of the store that it is about.

A program may turn out to have been asked for something else. Nothing is said about the store
then; the answer of that program gives it away.

## Main definitions

* `Process.Task` — what is to be done, how it is noted, and how it is answered
* `Task.Fresh`, `Task.Late` — a program before its look, when the thing is not done yet and when
  another one has begun with it
* `Task.Doing` — a program between its look and its note
* `Task.Phase` — nobody has looked, one is at it, or it is done

## Main results

* `Task.phase_step` — the phases follow one another
* `Task.done_exec` — when all have given the answer the thing has been done once
-/

namespace Process

universe u v w x y z

variable {ι : Type v} {κ σ ε α β : Type u} {τ : Type w} {δ : Type x} {η : Type y} {ρ : Type z}

namespace Prog

/-- The program never answers `a`. -/
def Avoids (a : α) : Prog κ σ ε α → Prop
  | ret b => b ≠ a
  | raise _ => True
  | stmt _ k => ∀ s, (k s).Avoids a
  | mark _ k => k.Avoids a
  | rollback _ k => k.Avoids a

variable {p : Prog κ σ ε α}

theorem Avoids.bind {f : α → Prog κ σ ε β} {b : β}
    (hf : ∀ a, p.Passes (fun _ => True) a → (f a).Avoids b) : (p >>= f).Avoids b := by
  induction p with
  | ret a => exact hf a rfl
  | raise e => trivial
  | stmt u k ih => exact fun s => ih s fun a ha => hf a ⟨s, trivial, ha⟩
  | mark m k ih => exact ih hf
  | rollback s₀ k ih => exact ih hf

theorem Fails.avoids {a : α} (hp : p.Fails) : p.Avoids a := by
  induction p with
  | ret b => exact False.elim hp
  | raise e => trivial
  | stmt u k ih => exact False.elim hp
  | mark m k ih => exact ih hp
  | rollback s₀ k ih => exact ih hp

end Prog

/-- Something that programs are asked for. -/
structure Task (ι : Type v) (κ σ ε α β : Type u) (τ : Type w) (δ : Type x) (η : Type y)
    (ρ : Type z) where
  /-- the part of the store it is about -/
  view : σ → τ
  /-- the part that it leaves alone -/
  rest : σ → ρ
  /-- program `i` finds the note -/
  seen : ι → σ → Prop
  /-- where it is noted -/
  ledger : Ledger σ δ η
  note : δ
  /-- the programs that do it -/
  doers : Prog κ σ ε β → Prop
  /-- what is answered when it is done -/
  answer : α

namespace Task

variable (T : Task ι κ σ ε α β τ δ η ρ)

/-- A change that neither does anything about the task nor touches the note. -/
structure Idle (u : σ → σ) : Prop where
  view : ∀ s, T.view (u s) = T.view s
  seen : ∀ s i, T.seen i (u s) ↔ T.seen i s

/-- A change that leaves the note. -/
structure Notes (u : σ → σ) : Prop where
  view : ∀ s, T.view (u s) = T.view s
  seen : ∀ s i, T.seen i (u s)
  gives : T.ledger.Gives T.note u

/-- Leave the note and answer. -/
def finish (u : σ → σ) (after : β → α) (b : β) : Prog κ σ ε α :=
  Prog.modify u >>= fun _ => .ret (after b)

/-- The program does the task and leaves the note. -/
def Acts (p : Prog κ σ ε α) : Prop :=
  ∃ body u after, T.doers body ∧ body.Agree T.view T.rest 0 body ∧ T.Notes u ∧
    p = (body >>= finish u after)

/-- While or after another program does the task: a program that only looks around goes on so,
turns out to have been asked for something else, or misses the note. -/
def Late (i : ι) : Prog κ σ ε α → Prop
  | .ret _ => True
  | .raise _ => True
  | .stmt u k => T.Idle u ∧ ∀ s, (k s).Avoids T.answer ∨ Late i (k s) ∨
      ¬ T.seen i s ∧ (k s).Bids T.ledger T.note
  | .mark _ _ => False
  | .rollback _ _ => False

/-- Before anybody has begun with the task: from a store with the view `v` and without the note
the program goes on so, turns out to have been asked for something else, or begins with it. -/
def Fresh (v : τ) (i : ι) : Prog κ σ ε α → Prop
  | .ret a => a ≠ T.answer
  | .raise _ => True
  | .stmt u k => T.Late i (.stmt u k) ∧ ∀ s, T.view s = v → ¬ T.seen i s →
      (k s).Avoids T.answer ∨ Fresh v i (k s) ∨ T.Acts (k s)
  | .mark _ _ => False
  | .rollback _ _ => False

/-- A program at the task: run alone from `s₀` it would have got to where it is. -/
inductive Doing (s₀ s : σ) : Thread κ σ ε α → Prop
  | intro {body q p : Prog κ σ ε β} {u pending : σ → σ} {after : β → α} {t : σ}
      {blocks : List (σ → σ)} {held : List κ} (hdoer : T.doers body) (hnotes : T.Notes u)
      (hagree : q.Agree T.view T.rest blocks.length p) (hrun : p.run t = body.run s₀)
      (hview : T.view (pending s) = T.view t)
      (hpending : ∀ s s', T.view s = T.view s' → T.view (pending s) = T.view (pending s'))
      (hout : blocks = [] → pending = id) :
      Doing s₀ s ⟨q >>= finish u after, pending, blocks, held⟩

/-- How far the task has come. -/
inductive Phase (s₀ : σ) (P : Pool ι κ σ ε α) : Prop
  | fresh (hview : T.view P.store = T.view s₀) (hseen : ∀ i, ¬ T.seen i P.store)
      (hall : ∀ i, (P.threads i).Outside ∧ T.Fresh (T.view s₀) i (P.threads i).prog)
  | doing (i : ι) (hi : T.Doing s₀ P.store (P.threads i))
      (hothers : ∀ j, j ≠ i → (P.threads j).Outside ∧ T.Late j (P.threads j).prog)
  | done {body : Prog κ σ ε β} {b : β} {t : σ} (hdoer : T.doers body)
      (hrun : body.run s₀ = (.ok b, t)) (hview : T.view P.store = T.view t)
      (hseen : ∀ i, T.seen i P.store)
      (hall : ∀ i, (P.threads i).Outside ∧ T.Late i (P.threads i).prog)

variable {T} {s₀ s s' : σ} {v : τ} {i : ι} {p : Prog κ σ ε α} {th : Thread κ σ ε α}

theorem Fresh.late (hp : T.Fresh v i p) : T.Late i p := by
  cases p with
  | ret a => trivial
  | raise e => trivial
  | stmt u k => exact hp.1
  | mark m k => exact hp
  | rollback s₀ k => exact hp

/-! ### Looking around -/

/-- The program only looks around, and under the condition `C` nobody has begun yet. -/
def Around (T : Task ι κ σ ε α β τ δ η ρ) (C : Prop) (v : τ) (i : ι) (p : Prog κ σ ε α) : Prop :=
  T.Late i p ∧ (C → T.Fresh v i p)

/-- How a program that has read the store `s` goes on: it gives another answer, looks around
further, or begins. -/
inductive Onward (T : Task ι κ σ ε α β τ δ η ρ) (C : Prop) (v : τ) (i : ι) (s : σ)
    (p : Prog κ σ ε α) : Prop
  | avoids (h : p.Avoids T.answer)
  | around (C' : Prop) (h : T.Around C' v i p) (hC : C → T.view s = v → ¬ T.seen i s → C')
  | begins (hmissed : ¬ T.seen i s) (h : p.Avoids T.answer ∨ p.Bids T.ledger T.note)
      (hacts : C → T.view s = v → T.Acts p)

variable {C : Prop}

theorem around_stmt {u : σ → σ} {k : σ → Prog κ σ ε α} (hu : T.Idle u)
    (hk : ∀ s, T.Onward C v i s (k s)) : T.Around C v i (.stmt u k) := by
  have hlate : T.Late i (.stmt u k) := by
    refine ⟨hu, fun s => ?_⟩
    cases hk s with
    | avoids h => exact .inl h
    | around C' h hC => exact .inr (.inl h.1)
    | begins hmissed h hacts => exact h.imp_right fun hbids => .inr ⟨hmissed, hbids⟩
  refine ⟨hlate, fun hC => ⟨hlate, fun s hs hseen => ?_⟩⟩
  cases hk s with
  | avoids h => exact .inl h
  | around C' h hC' => exact .inr (.inl (h.2 (hC' hC hs hseen)))
  | begins hmissed h hacts => exact .inr (.inr (hacts hC hs))

theorem around_select_bind {γ : Type u} {g : σ → γ} {f : γ → Prog κ σ ε α}
    (hf : ∀ s, T.Onward C v i s (f (g s))) : T.Around C v i (Prog.select g >>= f) :=
  around_stmt ⟨fun _ => rfl, fun _ _ => Iff.rfl⟩ hf

theorem around_modify_bind {u : σ → σ} {f : PUnit → Prog κ σ ε α} (hu : T.Idle u)
    (hf : ∀ s, T.Onward C v i s (f ⟨⟩)) : T.Around C v i (Prog.modify u >>= f) :=
  around_stmt hu hf

theorem around_ret {a : α} (ha : C → a ≠ T.answer) : T.Around C v i (.ret a) := ⟨trivial, ha⟩

/-! ### At the task -/

/-- What is outside the view does not matter to a program at the task. -/
theorem Doing.of_view (h : T.Doing s₀ s th) (hs : T.view s' = T.view s) : T.Doing s₀ s' th := by
  obtain ⟨hdoer, hnotes, hagree, hrun, hview, hpending, hout⟩ := h
  exact ⟨hdoer, hnotes, hagree, hrun, (hpending s' s hs).trans hview, hpending, hout⟩

/-- What does not look at the note cannot be stopped by it from leaving it. -/
theorem Notes.avoids_or_bids {q q' : Prog κ σ ε β} {u : σ → σ} {n : ℕ} (hu : T.Notes u)
    (hagree : q.Agree T.view T.rest n q') (after : β → α)
    (hstores : ∀ s, ∃ s', T.view s = T.view s' ∧ T.ledger.Valid s' ∧ T.ledger.Held s' T.note) :
    (q >>= finish u after).Avoids T.answer ∨ (q >>= finish u after).Bids T.ledger T.note := by
  by_cases hpass : ∃ b, q.Passes (fun _ => True) b ∧ after b = T.answer
  · obtain ⟨b, hb, -⟩ := hpass
    have hheld := hagree.symm.passes (hagree.passes hb hstores) hstores
    exact .inr (hheld.bids_bind (.inl hu.gives))
  · refine .inl (Prog.Avoids.bind fun b hb _ => ?_)
    exact fun hanswer => hpass ⟨b, hb, hanswer⟩

theorem Doing.avoids_or_bids (h : T.Doing s₀ s th)
    (hstores : ∀ s, ∃ s', T.view s = T.view s' ∧ T.ledger.Valid s' ∧ T.ledger.Held s' T.note) :
    th.prog.Avoids T.answer ∨ th.prog.Bids T.ledger T.note := by
  cases h with
  | intro hdoer hnotes hagree => exact hnotes.avoids_or_bids hagree _ hstores

/-- A program at the task has not answered yet. -/
theorem Doing.outcome_ne (h : T.Doing s₀ s th) (a : α) : th.outcome ≠ some (.ok a) := by
  cases h with
  | @intro body q p u pending after t blocks held =>
    cases q <;> exact fun hended => by cases hended

/-- A program that begins with the task. -/
theorem Acts.doing {held : List κ} (h : T.Acts p) (hs : T.view s = T.view s₀) :
    T.Doing s₀ s ⟨p, id, [], held⟩ := by
  obtain ⟨body, u, after, hdoer, hagree, hnotes, rfl⟩ := h
  exact ⟨hdoer, hnotes, hagree, rfl, hs, fun _ _ h => h, fun _ => rfl⟩

section

variable [DecidableEq ι] {P : Pool ι κ σ ε α}

/-- A program at the task goes on with it. -/
theorem doing_put {body q p : Prog κ σ ε β} {u pending : σ → σ} {after : β → α} {t : σ}
    {blocks : List (σ → σ)} {held : List κ} (hdoer : T.doers body) (hnotes : T.Notes u)
    (hagree : q.Agree T.view T.rest blocks.length p) (hrun : p.run t = body.run s₀)
    (hview : T.view (pending P.store) = T.view t)
    (hpending : ∀ s s', T.view s = T.view s' → T.view (pending s) = T.view (pending s')) :
    T.Doing s₀ (P.put i ⟨q >>= finish u after, pending, blocks, held⟩).store
      ((P.put i ⟨q >>= finish u after, pending, blocks, held⟩).threads i) := by
  cases blocks with
  | nil =>
    rw [Pool.put_of_nil rfl]
    simp only [Function.update_self]
    exact ⟨hdoer, hnotes, hagree, hrun, hview, fun _ _ h => h, fun _ => rfl⟩
  | cons b bs =>
    rw [Pool.put_of_ne_nil (List.cons_ne_nil b bs)]
    simp only [Function.update_self]
    exact ⟨hdoer, hnotes, hagree, hrun, hview, hpending, fun h => absurd h (List.cons_ne_nil b bs)⟩

variable [Fintype ι] [DecidableEq κ]

/-- A program that does not answer `a` never will. -/
theorem avoids_step {a : α} {j : ι} (h : (P.threads j).prog.Avoids a) (i : ι) :
    ((P.step i).threads j).prog.Avoids a := by
  by_cases hji : j = i
  swap
  · rwa [Pool.threads_step_of_ne hji]
  subst hji
  rcases hj : P.threads j with ⟨prog, pending, blocks, held⟩
  rw [hj] at h
  rw [Pool.step, hj]
  cases prog with
  | ret b => rwa [hj]
  | raise e => rwa [hj]
  | stmt u k =>
    rw [Pool.prog_put]
    exact h _
  | mark m k =>
    cases m with
    | enter => rwa [Pool.prog_put]
    | leave => rwa [Pool.prog_put]
    | lock r =>
      dsimp only
      split
      · rwa [Pool.prog_put]
      · rwa [hj]
  | rollback s₀ k => rwa [Pool.prog_put]

/-- The move of a program at the task: it goes on with it, leaves the note, or raises. -/
theorem Doing.step (h : T.Doing s₀ P.store (P.threads i)) :
    (P.threads i).prog.Avoids T.answer ∨ T.Doing s₀ (P.step i).store ((P.step i).threads i) ∨
      ∃ body b t u a, T.doers body ∧ body.run s₀ = (.ok b, t) ∧ T.Notes u ∧
        T.view P.store = T.view t ∧ (P.step i).store = u P.store ∧
        (P.step i).threads i = .start (.ret a) := by
  generalize hth : P.threads i = th at h
  cases h with
  | @intro body q p u pending after t blocks held hdoer hnotes hagree hrun hview hpending hout =>
  generalize hn : blocks.length = n at hagree
  cases hagree with
  | ret b =>
    -- at the end of the task, outside every block, the note is written
    obtain rfl := List.length_eq_zero_iff.mp hn
    obtain rfl := hout rfl
    have hstep : P.step i = P.put i ⟨.ret (after b), u, [], held⟩ := by
      rw [Pool.step, hth]
      rfl
    refine .inr (.inr ⟨body, b, t, u, after b, hdoer, hrun.symm, hnotes, hview, ?_, ?_⟩)
    · rw [hstep, Pool.put_of_nil rfl]
    · rw [hstep, Pool.put_of_nil rfl]
      simp only [Function.update_self]
  | raise n e => exact .inl trivial
  | @stmt n u₁ u₁' k k' hu hrest hrest' hk =>
    subst hn
    have hstep : P.step i = P.put i
        ⟨k (pending P.store) >>= finish u after, fun s => u₁ (pending s), blocks, held⟩ := by
      rw [Pool.step, hth]
      rfl
    rw [hstep]
    -- the statement and the one it agrees with see and leave the same
    refine .inr (.inl (doing_put hdoer hnotes (hk _ _ hview) hrun (hu _ _ hview) fun s s' h => ?_))
    exact (hu _ _ (hpending s s' h)).trans (hu _ _ rfl).symm
  | @enter n k k' hk =>
    subst hn
    have hstep : P.step i = P.put i ⟨k >>= finish u after, pending, pending :: blocks, held⟩ := by
      rw [Pool.step, hth]
      rfl
    rw [hstep]
    exact .inr (.inl (doing_put hdoer hnotes hk hrun hview hpending))
  | @leave n k k' hk =>
    have hstep : P.step i = P.put i ⟨k >>= finish u after, pending, blocks.tail, held⟩ := by
      rw [Pool.step, hth]
      rfl
    have hlength : blocks.tail.length = n := by
      rw [List.length_tail, hn]
      rfl
    subst hlength
    rw [hstep]
    exact .inr (.inl (doing_put hdoer hnotes hk hrun hview hpending))
  | @lock n r k k' hk =>
    subst hn
    have hstep : P.step i =
        if P.Free i r then P.put i ⟨k >>= finish u after, pending, blocks, r :: held⟩ else P := by
      rw [Pool.step, hth]
      rfl
    rw [hstep]
    split
    · exact .inr (.inl (doing_put hdoer hnotes hk hrun hview hpending))
    · rw [hth]
      exact .inr (.inl ⟨hdoer, hnotes, .lock r hk, hrun, hview, hpending, hout⟩)
  | rollback n hk hk' => exact .inl (hk.elim (g := .raise) fun _ => trivial).avoids

variable {j : ι}

/-- The move of a program that only looks around: what it does is idle, and what it goes on with
depends on the store it has read. -/
theorem step_outside (hout : (P.threads i).Outside) (h : T.Late i (P.threads i).prog) :
    P.step i = P ∨ ∃ u k, (P.threads i).prog = .stmt u k ∧
      P.step i = ⟨u P.store, Function.update P.threads i (.start (k P.store))⟩ := by
  rcases hi : P.threads i with ⟨prog, pending, blocks, held⟩
  rw [hi] at hout h
  obtain ⟨rfl, rfl⟩ : blocks = [] ∧ pending = id := hout
  cases prog with
  | ret a => exact .inl (by rw [Pool.step, hi])
  | raise e => exact .inl (by rw [Pool.step, hi])
  | stmt u k =>
    refine .inr ⟨u, k, rfl, ?_⟩
    rw [Pool.step, hi]
    exact Pool.put_of_nil rfl
  | mark m k => exact False.elim h
  | rollback s₀ k => exact False.elim h

omit [Fintype ι] [DecidableEq κ] in
/-- Programs that only look around still do when one of them has moved. -/
theorem late_update (hothers : (P.threads j).Outside ∧ T.Late j (P.threads j).prog)
    (hi : T.Late i p) :
    ((Function.update P.threads i (.start p)) j).Outside ∧
      T.Late j ((Function.update P.threads i (.start p)) j).prog := by
  by_cases hji : j = i
  · subst hji
    rw [Function.update_self]
    exact ⟨⟨rfl, rfl⟩, hi⟩
  · rwa [Function.update_of_ne hji]

/-- The phases follow one another, unless a program turns out to have been asked for something
else. -/
theorem phase_step
    (hstores : ∀ s, ∃ s', T.view s = T.view s' ∧ T.ledger.Valid s' ∧ T.ledger.Held s' T.note)
    (h : T.Phase s₀ P) (i : ι) (hrivals : (P.step i).NoRivals T.ledger) :
    (∃ j, ((P.step i).threads j).prog.Avoids T.answer) ∨ T.Phase s₀ (P.step i) := by
  cases h with
  | fresh hview hseen hall =>
    obtain ⟨hout, hfresh⟩ := hall i
    rcases step_outside hout hfresh.late with hsame | ⟨u, k, hprog, hstep⟩
    · rw [hsame]
      exact .inr (.fresh hview hseen hall)
    rw [hprog] at hfresh
    obtain ⟨⟨hidle, -⟩, hnext⟩ := hfresh
    rcases hnext P.store hview (hseen i) with havoids | hgoes | hacts
    · -- the answer can no longer be the one asked for
      refine .inl ⟨i, ?_⟩
      simpa [hstep, Thread.start] using havoids
    · rw [hstep]
      refine .inr (.fresh ((hidle.view _).trans hview) (fun j hj => ?_) fun j => ?_)
      · exact hseen j ((hidle.seen _ j).mp hj)
      · by_cases hji : j = i
        · subst hji
          simpa only [Function.update_self] using ⟨⟨rfl, rfl⟩, hgoes⟩
        · simpa only [Function.update_of_ne hji] using hall j
    · -- it has found the task undone and is the one that does it
      rw [hstep]
      refine .inr (.doing i ?_ fun j hji => ?_)
      · simp only [Function.update_self]
        exact hacts.doing ((hidle.view _).trans hview)
      · simp only [Function.update_of_ne hji]
        exact ⟨(hall j).1, (hall j).2.late⟩
  | doing a ha hothers =>
    by_cases hia : i = a
    · subst hia
      rcases ha.step with havoids | hgoes |
        ⟨body, b, t, u, c, hdoer, hrun, hnotes, hview, hstore, hth⟩
      · exact .inl ⟨i, avoids_step havoids i⟩
      · refine .inr (.doing i hgoes fun j hji => ?_)
        rw [Pool.threads_step_of_ne hji]
        exact hothers j hji
      · -- the note is left, and everybody sees it from here on
        refine .inr (.done hdoer hrun ?_ (fun j => ?_) fun j => ?_)
        · rw [hstore, hnotes.view, hview]
        · rw [hstore]
          exact hnotes.seen _ j
        · by_cases hji : j = i
          · subst hji
            rw [hth]
            exact ⟨⟨rfl, rfl⟩, trivial⟩
          · rw [Pool.threads_step_of_ne hji]
            exact hothers j hji
    · obtain ⟨hout, hlate⟩ := hothers i hia
      rcases step_outside hout hlate with hsame | ⟨u, k, hprog, hstep⟩
      · rw [hsame]
        exact .inr (.doing a ha hothers)
      rw [hprog] at hlate
      obtain ⟨hidle, hnext⟩ := hlate
      have hdoing : T.Doing s₀ (P.step i).store ((P.step i).threads a) := by
        rw [Pool.threads_step_of_ne (Ne.symm hia), hstep]
        exact ha.of_view (hidle.view _)
      have hnow : ((P.step i).threads i).prog = k P.store := by
        rw [hstep]
        simp [Thread.start]
      rcases hnext P.store with havoids | hgoes | ⟨-, hbids⟩
      · exact .inl ⟨i, by rwa [hnow]⟩
      · refine .inr (.doing a hdoing fun j hja => ?_)
        rw [hstep]
        exact late_update (hothers j hja) hgoes
      · -- two programs between the look and the note
        rcases hdoing.avoids_or_bids hstores with havoids | hbids'
        · exact .inl ⟨a, havoids⟩
        · exact absurd (hrivals i a T.note (.inl (by rwa [hnow])) (.inl hbids')) hia
  | done hdoer hrun hview hseen hall =>
    obtain ⟨hout, hlate⟩ := hall i
    rcases step_outside hout hlate with hsame | ⟨u, k, hprog, hstep⟩
    · rw [hsame]
      exact .inr (.done hdoer hrun hview hseen hall)
    rw [hprog] at hlate
    obtain ⟨hidle, hnext⟩ := hlate
    rcases hnext P.store with havoids | hgoes | ⟨hmissed, -⟩
    · refine .inl ⟨i, ?_⟩
      simpa [hstep, Thread.start] using havoids
    · rw [hstep]
      refine .inr (.done hdoer hrun ((hidle.view _).trans hview) (fun j => ?_) fun j => ?_)
      · exact (hidle.seen _ j).mpr (hseen j)
      · exact late_update (hall j) hgoes
    · exact absurd (hseen i) hmissed

/-- The phases over a run in which no two programs are between the look and the note. -/
theorem phase_exec
    (hstores : ∀ s, ∃ s', T.view s = T.view s' ∧ T.ledger.Valid s' ∧ T.ledger.Held s' T.note)
    (h : (∃ j, (P.threads j).prog.Avoids T.answer) ∨ T.Phase s₀ P) (schedule : List ι)
    (hrivals : ∀ l, l <+: schedule → (P.exec l).NoRivals T.ledger) :
    (∃ j, ((P.exec schedule).threads j).prog.Avoids T.answer) ∨ T.Phase s₀ (P.exec schedule) := by
  induction schedule generalizing P with
  | nil => exact h
  | cons i schedule ih =>
    have hbegins : ∀ l, l <+: schedule → i :: l <+: i :: schedule := fun l hl =>
      List.cons_prefix_cons.mpr ⟨rfl, hl⟩
    refine ih ?_ fun l hl => hrivals (i :: l) (hbegins l hl)
    rcases h with ⟨j, hj⟩ | hphase
    · exact .inl ⟨j, avoids_step hj i⟩
    · exact phase_step hstores hphase i (hrivals [i] (hbegins [] List.nil_prefix))

/-- When all programs have given the answer and no two were between the look and the note at the
same time, the thing has been done, once and as if alone. -/
theorem done_exec [Nonempty ι]
    (hstores : ∀ s, ∃ s', T.view s = T.view s' ∧ T.ledger.Valid s' ∧ T.ledger.Held s' T.note)
    {progs : ι → Prog κ σ ε α} (hfresh : ∀ i, T.Fresh (T.view s₀) i (progs i))
    (hseen : ∀ i, ¬ T.seen i s₀) (schedule : List ι)
    (hrivals : ∀ l, l <+: schedule → ((Pool.start s₀ progs).exec l).NoRivals T.ledger)
    (hanswer : ∀ i, ((Pool.start s₀ progs).exec schedule).outcomes i = some (.ok T.answer)) :
    ∃ body b t, T.doers body ∧ body.run s₀ = (.ok b, t) ∧
      T.view ((Pool.start s₀ progs).exec schedule).store = T.view t := by
  have hended : ∀ i, ∃ held pending blocks, ((Pool.start s₀ progs).exec schedule).threads i =
      ⟨.ret T.answer, pending, blocks, held⟩ := by
    intro i
    have hi := hanswer i
    rw [Pool.outcomes, Thread.outcome] at hi
    rcases hth : ((Pool.start s₀ progs).exec schedule).threads i with ⟨prog, pending, blocks, held⟩
    rw [hth] at hi
    cases prog <;> cases hi
    exact ⟨held, pending, blocks, rfl⟩
  have hstart : T.Phase s₀ (.start s₀ progs) := .fresh rfl hseen fun i => ⟨⟨rfl, rfl⟩, hfresh i⟩
  rcases phase_exec hstores (.inr hstart) schedule hrivals with ⟨j, hj⟩ | hphase
  · obtain ⟨held, pending, blocks, hth⟩ := hended j
    rw [hth] at hj
    exact absurd rfl hj
  · cases hphase with
    | fresh hview hseen hall =>
      obtain ⟨held, pending, blocks, hth⟩ := hended (Classical.arbitrary ι)
      have hne := (hall (Classical.arbitrary ι)).2
      rw [hth] at hne
      exact absurd rfl hne
    | doing j hj hothers => exact absurd (hanswer j) (hj.outcome_ne T.answer)
    | done hdoer hrun hview => exact ⟨_, _, _, hdoer, hrun, hview⟩

end

end Task

end Process
