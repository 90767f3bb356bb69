import FluxTrack.Process.Pool

/-!
# Programs that answer their exceptions

A program with a handler around it never raises: the handler answers the exception. Since the
handler comes after every block, the program moves as it would without it. In a run of a pool
any next statement may fail; the blocks the program is in are then undone, its locks are given
back, and its handler answers.

## Main definitions

* `Prog.rescue`, `Pool.rescue` — programs with a handler around them
* `Pool.Move`, `Pool.play` — a run in which statements may fail

## Main results

* `rescue_play` — a pool with handlers plays as the pool without them
* `Exclusive.play`, `play_rescue` — the rule for exclusive blocks, with failing statements
-/

namespace Process

universe u v

variable {ι : Type v} {κ σ ε α : Type u}

/-- Answer an exception of the program. -/
def Prog.rescue (g : ε → α) (p : Prog κ σ ε α) : Prog κ σ ε α := p.elim .ret fun e => .ret (g e)

/-- The answer to an outcome. -/
def answer (g : ε → α) : Except ε α → α
  | .ok a => a
  | .error e => g e

/-- A program in progress, with a handler. -/
def Thread.rescue (g : ε → α) (th : Thread κ σ ε α) : Thread κ σ ε α :=
  { th with prog := th.prog.rescue g }

theorem Thread.outcome_rescue (g : ε → α) (th : Thread κ σ ε α) :
    (th.rescue g).outcome = th.outcome.map fun result => .ok (answer g result) := by
  obtain ⟨prog, pending, blocks, held⟩ := th
  cases prog <;> rfl

namespace Pool

/-- The programs of a pool, each with the handler. -/
def rescue (g : ε → α) (P : Pool ι κ σ ε α) : Pool ι κ σ ε α :=
  ⟨P.store, fun i => (P.threads i).rescue g⟩

variable {P : Pool ι κ σ ε α} {g : ε → α} {i : ι}

theorem outcomes_rescue : (P.rescue g).outcomes =
    fun i => (P.outcomes i).map fun result => .ok (answer g result) :=
  funext fun i => Thread.outcome_rescue g (P.threads i)

theorem free_rescue {r : κ} : (P.rescue g).Free i r ↔ P.Free i r := Iff.rfl

/-- A move of a run: a program goes on, or its next statement fails. -/
inductive Move (ι : Type v) (ε : Type u)
  | go (i : ι)
  | fail (i : ι) (e : ε)

variable [DecidableEq ι]

/-- Program `i` goes on as `p`, outside every block and with nothing pending, unless it has
ended. -/
def divert (P : Pool ι κ σ ε α) (i : ι) (p : Prog κ σ ε α) : Pool ι κ σ ε α :=
  if (P.outcomes i).isSome then P
  else ⟨P.store, Function.update P.threads i (.start p)⟩

theorem rescue_put (th : Thread κ σ ε α) :
    (P.put i th).rescue g = (P.rescue g).put i (th.rescue g) := by
  -- outside every block the pending writes reach the store
  by_cases hb : th.blocks = []
  · rw [put_of_nil hb, @put_of_nil _ _ _ _ _ _ (P.rescue g) i (th.rescue g) hb]
    exact congrArg (Pool.mk _) (Function.comp_update (Thread.rescue g) P.threads i _)
  · rw [put_of_ne_nil hb, @put_of_ne_nil _ _ _ _ _ _ (P.rescue g) i (th.rescue g) hb]
    exact congrArg (Pool.mk _) (Function.comp_update (Thread.rescue g) P.threads i th)

theorem rescue_divert (p : Prog κ σ ε α) :
    (P.divert i p).rescue g = (P.rescue g).divert i (p.rescue g) := by
  rw [divert, divert, outcomes_rescue, Option.isSome_map]
  split
  · rfl
  · exact congrArg (Pool.mk _) (Function.comp_update (Thread.rescue g) P.threads i (.start p))

variable [Fintype ι] [DecidableEq κ]

/-- A run in which the handler `h` goes on where a statement has failed. -/
def play (h : ε → Prog κ σ ε α) (P : Pool ι κ σ ε α) : List (Move ι ε) → Pool ι κ σ ε α
  | [] => P
  | .go i :: moves => (P.step i).play h moves
  | .fail i e :: moves => (P.divert i (h e)).play h moves

theorem play_append (h : ε → Prog κ σ ε α) (P : Pool ι κ σ ε α) (moves more : List (Move ι ε)) :
    P.play h (moves ++ more) = (P.play h moves).play h more := by
  induction moves generalizing P with
  | nil => rfl
  | cons m moves ih => cases m <;> exact ih _

/-- A move changes the outcome of one program at most. -/
theorem outcomes_play_of_ne {h : ε → Prog κ σ ε α} {m : Move ι ε} {i j : ι}
    (hi : (P.play h [m]).outcomes i ≠ P.outcomes i) (hj : j ≠ i) :
    (P.play h [m]).outcomes j = P.outcomes j := by
  have hother : ∀ k, (∀ l, l ≠ k → (P.play h [m]).outcomes l = P.outcomes l) →
      (P.play h [m]).outcomes j = P.outcomes j := by
    intro k hk
    by_cases hik : i = k
    · exact hk j (hik ▸ hj)
    · exact absurd (hk i hik) hi
  cases m with
  | go k => exact hother k fun l hl => congrArg Thread.outcome (threads_step_of_ne hl)
  | fail k e =>
    refine hother k fun l hl => congrArg Thread.outcome ?_
    change (P.divert k (h e)).threads l = P.threads l
    rw [divert]
    split
    · rfl
    · exact Function.update_of_ne hl _ _

/-- With handlers every program makes the moves it makes without. -/
theorem rescue_step (P : Pool ι κ σ ε α) (i : ι) : (P.step i).rescue g = (P.rescue g).step i := by
  obtain ⟨th, hth⟩ : ∃ th, P.threads i = th := ⟨_, rfl⟩
  have hth' : (P.rescue g).threads i = th.rescue g := congrArg (Thread.rescue g) hth
  obtain ⟨prog, pending, blocks, held⟩ := th
  rw [step, step, hth, hth']
  -- a handler waits at the end of a program and does not touch the statements before
  cases prog with
  | ret a => rfl
  | raise e => rfl
  | stmt u k => exact rescue_put _
  | mark m k =>
    cases m with
    | enter => exact rescue_put _
    | leave => exact rescue_put _
    | lock r =>
      change (if P.Free i r then _ else P).rescue g =
        if (P.rescue g).Free i r then _ else P.rescue g
      by_cases hfree : P.Free i r
      · rw [if_pos hfree, if_pos (free_rescue.mpr hfree)]
        exact rescue_put _
      · rw [if_neg hfree, if_neg (mt free_rescue.mp hfree)]
  | rollback s₀ k => exact rescue_put _

theorem rescue_play (P : Pool ι κ σ ε α) (moves : List (Move ι ε)) :
    (P.play .raise moves).rescue g = (P.rescue g).play (fun e => .ret (g e)) moves := by
  induction moves generalizing P with
  | nil => rfl
  | cons m moves ih =>
    cases m with
    | go i => rw [play, play, ih, rescue_step]
    | fail i e =>
      rw [play, play, ih, rescue_divert]
      rfl

/-! ### Exclusive blocks with failing statements -/

variable {r : κ} {body : ι → Prog κ σ ε α}

omit [Fintype ι] [DecidableEq κ] in
/-- A program that fails gives its lock back and has changed nothing. -/
theorem Exclusive.divert (h : Exclusive r body P) (i : ι) (e : ε) :
    Exclusive r body (P.divert i (.raise e)) := by
  rw [Pool.divert]
  -- a program that has ended is not disturbed
  split
  · exact h
  constructor
  · intro j
    by_cases hj : j = i
    · subst hj
      simp only [Function.update_self]
      exact .raised e
    · simp only [Function.update_of_ne hj]
      exact h.turn j
  · intro j hheld k hk
    by_cases hj : j = i
    · subst hj
      simp only [Function.update_self] at hheld
      cases hheld
    · simp only [Function.update_of_ne hj] at hheld
      by_cases hki : k = i
      · subst hki
        simp only [Function.update_self]
        exact List.not_mem_nil
      · simp only [Function.update_of_ne hki]
        exact h.alone j hheld k hk

/-- What the blocks preserve when they run alone, and failures as well, holds in every pool
that a run reaches, whatever statements fail in it. -/
theorem Exclusive.play {Φ : σ → (ι → Option (Except ε α)) → Prop} (hbody : ∀ i, (body i).Nested)
    (hΦ : ∀ s out i, Φ s out → out i = none →
      Φ ((block r body i).run s).2 (Function.update out i (some ((block r body i).run s).1)))
    (hfail : ∀ s out i e, Φ s out → out i = none →
      Φ s (Function.update out i (some (.error e))))
    (h : Exclusive r body P) (hP : Φ P.store P.outcomes) (moves : List (Move ι ε)) :
    Φ (P.play .raise moves).store (P.play .raise moves).outcomes := by
  induction moves generalizing P with
  | nil => exact hP
  | cons m moves ih =>
    cases m with
    | go i =>
      obtain ⟨hnext, hserial⟩ := h.step hbody i
      refine ih hnext ?_
      -- a move either shows nothing, or it ends the block of its program
      rcases hserial with ⟨hstore, hout⟩ | ⟨hnone, hstore, hout⟩
      · rwa [hstore, hout]
      · rw [hstore, hout]
        exact hΦ _ _ i hP hnone
    | fail i e =>
      refine ih (h.divert i e) ?_
      rw [Pool.divert]
      split
      · exact hP
      · rename_i hopen
        rw [Bool.not_eq_true, Option.isSome_eq_false_iff, Option.isNone_iff_eq_none] at hopen
        have hout : outcomes ⟨P.store, Function.update P.threads i (.start (.raise e))⟩ =
            Function.update P.outcomes i (some (.error e)) :=
          Function.comp_update Thread.outcome P.threads i _
        rw [hout]
        exact hfail _ _ i e hP hopen

/-- The same of blocks that answer their exceptions. -/
theorem play_rescue {Φ : σ → (ι → Option (Except ε α)) → Prop} (hbody : ∀ i, (body i).Nested)
    (hΦ : ∀ s out i, Φ s out → out i = none →
      Φ ((block r body i).run s).2
        (Function.update out i (some (.ok (answer g ((block r body i).run s).1)))))
    (hfail : ∀ s out i e, Φ s out → out i = none →
      Φ s (Function.update out i (some (.ok (g e)))))
    {s : σ} (hs : Φ s fun _ => none) (moves : List (Move ι ε)) :
    Φ ((start s fun i => (block r body i).rescue g).play (fun e => .ret (g e)) moves).store
      ((start s fun i => (block r body i).rescue g).play (fun e => .ret (g e)) moves).outcomes := by
  -- the invariant is asked of the answers instead of the outcomes
  let answered : Except ε α → Except ε α := fun result => .ok (answer g result)
  have hupdate : ∀ (out : ι → Option (Except ε α)) (i : ι) (result : Except ε α),
      (fun j => (Function.update out i (some result) j).map answered) =
        Function.update (fun j => (out j).map answered) i (some (answered result)) :=
    fun out i result => Function.comp_update (Option.map answered) out i (some result)
  have hstart : (start s fun i => (block r body i).rescue g) =
      (start s (block r body)).rescue g := rfl
  rw [hstart, ← rescue_play, outcomes_rescue]
  refine Exclusive.play (Φ := fun s out => Φ s fun i => (out i).map answered) hbody
    (fun s out i h hi => ?_) (fun s out i e h hi => ?_) (exclusive_start s) hs moves
  · rw [hupdate]
    exact hΦ s _ i h (by rw [hi, Option.map_none])
  · rw [hupdate]
    exact hfail s _ i e h (by rw [hi, Option.map_none])

end Pool

end Process
