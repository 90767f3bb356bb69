import FluxTrack.Process.Prog

/-!
# Programs under interference

A program that runs beside others: between two of its statements the store may
change in any way. `Exec p s evs q t` says that `p`, started in the store `s`,
arrives at `q` in the store `t` after the events `evs`, which are its own
statements, the changes made by others, and the undoing of its own blocks.
Nothing is assumed about the changes by others; what a result needs of them it
states as a condition on the events.

## Main definitions

* `Process.Event`, `Process.Exec` — events and executions
* `Prog.Ensures` — every statement of a program satisfies a condition on the
  statements before it, the store it finds and the store it leaves, whatever
  others do in between

## Main results

* `Ensures.elim`, `Ensures.bind`, `Ensures.atomic`, `Ensures.forEach` — the rules
* `Ensures.of_exec` — a program that ensures a condition meets it in every execution
* `Prog.exec_play` — an execution with given changes by others
* `Exec.chain`, `Chain.stable` — the events of an execution follow on each other,
  so a property every event keeps is kept
-/

namespace Process

universe u

/-- What happens to the store while a program runs beside others. -/
inductive Event (σ : Type u)
  /-- a statement of the program -/
  | own (s t : σ)
  /-- a change made by others -/
  | env (s t : σ)
  /-- the end of a block of the program that is undone -/
  | undo (s t : σ)

variable {κ σ ε α β : Type u}

/-- The program `p` in the store `s` arrives at `q` in the store `t` through `evs`. -/
inductive Exec : Prog κ σ ε α → σ → List (Event σ) → Prog κ σ ε α → σ → Prop
  | refl (p : Prog κ σ ε α) (s : σ) : Exec p s [] p s
  | env {p q : Prog κ σ ε α} {s s' t : σ} {evs : List (Event σ)} :
      Exec p s' evs q t → Exec p s (.env s s' :: evs) q t
  | stmt {u : σ → σ} {k : σ → Prog κ σ ε α} {q : Prog κ σ ε α} {s t : σ}
      {evs : List (Event σ)} :
      Exec (k s) (u s) evs q t → Exec (.stmt u k) s (.own s (u s) :: evs) q t
  | mark {m : Mark κ} {k q : Prog κ σ ε α} {s t : σ} {evs : List (Event σ)} :
      Exec k s evs q t → Exec (.mark m k) s evs q t
  | rollback {s₀ : σ} {k q : Prog κ σ ε α} {s s' t : σ} {evs : List (Event σ)} :
      Exec k s' evs q t → Exec (.rollback s₀ k) s (.undo s s' :: evs) q t

/-- The store before an event. -/
def Event.before : Event σ → σ
  | own s _ | env s _ | undo s _ => s

/-- The store after an event. -/
def Event.after : Event σ → σ
  | own _ t | env _ t | undo _ t => t

/-- The own statements among the events, as stores before and after. -/
def owns (evs : List (Event σ)) : List (σ × σ) :=
  evs.filterMap fun
    | .own s t => some (s, t)
    | _ => none

/-- Every event starts in the store the event before it left. -/
def Chain : σ → List (Event σ) → σ → Prop
  | s, [], t => s = t
  | s, ev :: evs, t => ev.before = s ∧ Chain ev.after evs t

theorem chain_append {s t : σ} {evs evs' : List (Event σ)} :
    Chain s (evs ++ evs') t ↔ ∃ s', Chain s evs s' ∧ Chain s' evs' t := by
  induction evs generalizing s with
  | nil => simp [Chain]
  | cons ev evs ih => simp only [List.cons_append, Chain, ih, exists_and_left, and_assoc]

/-- A property of the store that every event keeps is kept along a chain. -/
theorem Chain.stable {X : σ → Prop} {s t : σ} {evs : List (Event σ)} (h : Chain s evs t)
    (hs : X s) (hevs : ∀ ev ∈ evs, X ev.before → X ev.after) : X t := by
  induction evs generalizing s with
  | nil => exact h ▸ hs
  | cons ev evs ih =>
    obtain ⟨rfl, h⟩ := h
    exact ih h (hevs ev List.mem_cons_self hs) fun ev' hev' =>
      hevs ev' (List.mem_cons_of_mem ev hev')

/-- The events of an execution form a chain. -/
theorem Exec.chain {p q : Prog κ σ ε α} {s t : σ} {evs : List (Event σ)}
    (h : Exec p s evs q t) : Chain s evs t := by
  induction h with
  | refl p s => rfl
  | env h ih => exact ⟨rfl, ih⟩
  | stmt h ih => exact ⟨rfl, ih⟩
  | mark h ih => exact ih
  | rollback h ih => exact ⟨rfl, ih⟩

/-- The events of a program that runs to its end while others make the change `w n`
right before its statement number `n`, with the program and the store at the end. -/
def Prog.play (w : ℕ → σ → σ) :
    ℕ → Prog κ σ ε α → σ → List (Event σ) × Prog κ σ ε α × σ
  | _, .ret a, s => ([], .ret a, s)
  | _, .raise e, s => ([], .raise e, s)
  | n, .stmt u k, s =>
    let next := (k (w n s)).play w (n + 1) (u (w n s))
    (.env s (w n s) :: .own (w n s) (u (w n s)) :: next.1, next.2)
  | n, .mark _ k, s => k.play w n s
  | n, .rollback s₀ k, s =>
    let next := k.play w n s₀
    (.undo s s₀ :: next.1, next.2)

theorem Prog.exec_play (w : ℕ → σ → σ) (n : ℕ) (p : Prog κ σ ε α) (s : σ) :
    Exec p s (p.play w n s).1 (p.play w n s).2.1 (p.play w n s).2.2 := by
  induction p generalizing n s with
  | ret a => exact .refl _ _
  | raise e => exact .refl _ _
  | stmt u k ih => exact .env (.stmt (ih _ _ _))
  | mark m k ih => exact .mark (ih _ _)
  | rollback s₀ k ih => exact .rollback (ih _ _)

/-- The changes made by others are the ones they were given to make. -/
theorem Prog.env_mem_play {w : ℕ → σ → σ} {n : ℕ} {p : Prog κ σ ε α} {s s₁ t₁ : σ}
    (h : .env s₁ t₁ ∈ (p.play w n s).1) : ∃ m, t₁ = w m s₁ := by
  induction p generalizing n s with
  | ret a => cases h
  | raise e => cases h
  | stmt u k ih =>
    rcases List.mem_cons.mp h with heq | h
    · cases heq
      exact ⟨n, rfl⟩
    · exact ih _ ((List.mem_cons.mp h).resolve_left (by simp))
  | mark m k ih => exact ih h
  | rollback s₀ k ih => exact ih ((List.mem_cons.mp h).resolve_left (by simp))

/-- The events around own statement number `n` of an execution. -/
theorem exists_split_of_owns {pre : List (Event σ)} {H₁ H₂ : List (σ × σ)} {s₀ t₀ : σ}
    (h : owns pre = H₁ ++ (s₀, t₀) :: H₂) :
    ∃ pre₁ mid, pre = pre₁ ++ .own s₀ t₀ :: mid ∧ owns pre₁ = H₁ ∧ owns mid = H₂ := by
  induction pre generalizing H₁ with
  | nil => simp [owns] at h
  | cons ev pre ih =>
    cases ev with
    | own s t =>
      cases H₁ with
      | nil =>
        obtain ⟨hst, hrest⟩ := List.cons.inj h
        cases hst
        exact ⟨[], pre, rfl, rfl, hrest⟩
      | cons st H₁ =>
        obtain ⟨hst, hrest⟩ := List.cons.inj h
        obtain ⟨pre₁, mid, rfl, hpre, hmid⟩ := ih hrest
        exact ⟨.own s t :: pre₁, mid, rfl, by rw [← hst, ← hpre]; rfl, hmid⟩
    | env s t =>
      obtain ⟨pre₁, mid, rfl, hpre, hmid⟩ := ih h
      exact ⟨.env s t :: pre₁, mid, rfl, hpre, hmid⟩
    | undo s t =>
      obtain ⟨pre₁, mid, rfl, hpre, hmid⟩ := ih h
      exact ⟨.undo s t :: pre₁, mid, rfl, hpre, hmid⟩

/-! ### What a program ensures -/

namespace Prog

/-- The program raises without any further statement. -/
def Fails : Prog κ σ ε α → Prop
  | ret _ => False
  | raise _ => True
  | stmt _ _ => False
  | mark _ k => k.Fails
  | rollback _ k => k.Fails

/-- Every statement satisfies `R` of the own statements before it, the store it
finds and the store it leaves, and every result satisfies `Q`; a block that is
undone ends the program. -/
def Ensures (R : List (σ × σ) → σ → σ → Prop) (Q : List (σ × σ) → α → Prop) :
    List (σ × σ) → Prog κ σ ε α → Prop
  | H, ret a => Q H a
  | _, raise _ => True
  | H, stmt u k => ∀ s, R H s (u s) ∧ Ensures R Q (H ++ [(s, u s)]) (k s)
  | H, mark _ k => Ensures R Q H k
  | _, rollback _ k => k.Fails

variable {R : List (σ × σ) → σ → σ → Prop} {Q : List (σ × σ) → α → Prop}
  {Q' : List (σ × σ) → β → Prop} {H : List (σ × σ)} {p : Prog κ σ ε α}
  {f : α → Prog κ σ ε β} {g : ε → Prog κ σ ε β}

theorem Fails.ensures (h : p.Fails) : p.Ensures R Q H := by
  induction p generalizing H with
  | ret a => exact False.elim h
  | raise e => trivial
  | stmt u k ih => exact False.elim h
  | mark m k ih => exact ih h
  | rollback s₀ k ih => exact h

theorem Fails.elim (h : p.Fails) (hg : ∀ e, (g e).Fails) : (p.elim f g).Fails := by
  induction p with
  | ret a => exact False.elim h
  | raise e => exact hg e
  | stmt u k ih => exact False.elim h
  | mark m k ih => exact ih h
  | rollback s₀ k ih => exact ih h

theorem Ensures.mono {Q₂ : List (σ × σ) → α → Prop} (hp : p.Ensures R Q H)
    (hQ : ∀ H' a, Q H' a → Q₂ H' a) : p.Ensures R Q₂ H := by
  induction p generalizing H with
  | ret a => exact hQ H a hp
  | raise e => trivial
  | stmt u k ih => exact fun s => ⟨(hp s).1, ih s (hp s).2⟩
  | mark m k ih => exact ih hp
  | rollback s₀ k ih => exact hp

/-- The rule for a continued program whose exceptions end it. -/
theorem Ensures.elim (hp : p.Ensures R Q H) (hf : ∀ a H', Q H' a → (f a).Ensures R Q' H')
    (hg : ∀ e, (g e).Fails) : (p.elim f g).Ensures R Q' H := by
  induction p generalizing H with
  | ret a => exact hf a H hp
  | raise e => exact (hg e).ensures
  | stmt u k ih => exact fun s => ⟨(hp s).1, ih s (hp s).2⟩
  | mark m k ih => exact ih hp
  | rollback s₀ k ih => exact Fails.elim hp hg

theorem Ensures.bind (hp : p.Ensures R Q H) (hf : ∀ a H', Q H' a → (f a).Ensures R Q' H') :
    (p >>= f).Ensures R Q' H :=
  hp.elim hf fun _ => trivial

theorem Ensures.atomic (hR : ∀ s, R H s s) (hp : ∀ s, p.Ensures R Q (H ++ [(s, s)])) :
    (Prog.atomic p).Ensures R Q H := fun s =>
  ⟨hR s, (hp s).elim (fun _ _ hQ => hQ) fun _ => trivial⟩

/-- The rule for a program that is one statement. -/
theorem ensures_whole (h : ∀ s, R H s (p.run s).2 ∧
    ∀ a, (p.run s).1 = .ok a → Q (H ++ [(s, (p.run s).2)]) a) : p.whole.Ensures R Q H := by
  intro s
  obtain ⟨hR, hQ⟩ := h s
  refine ⟨hR, ?_⟩
  dsimp only
  split
  · rename_i a hrun
    exact hQ a hrun
  · trivial

/-- The rule for a loop: the invariant speaks of the elements still to come. -/
theorem Ensures.forEach {ι : Type*} {f : ι → Prog κ σ ε PUnit}
    (Inv : List ι → List (σ × σ) → Prop)
    (hstep : ∀ i l H, Inv (i :: l) H → (f i).Ensures R (fun H' _ => Inv l H') H)
    {l : List ι} (h : Inv l H) :
    (Prog.forEach l f : Prog κ σ ε PUnit).Ensures R (fun H' _ => Inv [] H') H := by
  induction l generalizing H with
  | nil => exact h
  | cons i l ih => exact (hstep i l H h).bind fun _ H' hinv => ih hinv

theorem ensures_select_bind {γ : Type u} {g : σ → γ} {f : γ → Prog κ σ ε α} :
    (select g >>= f).Ensures R Q H ↔ ∀ s, R H s s ∧ (f (g s)).Ensures R Q (H ++ [(s, s)]) :=
  Iff.rfl

theorem ensures_modify_bind {u : σ → σ} {f : PUnit → Prog κ σ ε α} :
    (modify u >>= f).Ensures R Q H ↔
      ∀ s, R H s (u s) ∧ (f ⟨⟩).Ensures R Q (H ++ [(s, u s)]) :=
  Iff.rfl

theorem ensures_modifyGet_bind {γ : Type u} {g : σ → γ} {u : σ → σ} {f : γ → Prog κ σ ε α} :
    (modifyGet g u >>= f).Ensures R Q H ↔
      ∀ s, R H s (u s) ∧ (f (g s)).Ensures R Q (H ++ [(s, u s)]) :=
  Iff.rfl

theorem ensures_lock_bind {r : κ} {f : PUnit → Prog κ σ ε α} :
    (lock r >>= f).Ensures R Q H ↔ (f ⟨⟩).Ensures R Q H :=
  Iff.rfl

/-- A program that raises without a statement does not return. -/
theorem Fails.run_ne_ok {a : α} {s t : σ} (h : p.Fails) : p.run s ≠ (.ok a, t) := by
  induction p generalizing s with
  | ret a => exact False.elim h
  | raise e => exact fun heq => nomatch heq
  | stmt u k ih => exact False.elim h
  | mark m k ih => exact ih h
  | rollback s₀ k ih => exact ih h

theorem Fails.own_notMem {q : Prog κ σ ε α} {s t : σ} {evs : List (Event σ)}
    (h : Exec p s evs q t) (hp : p.Fails) : ∀ s₁ t₁, .own s₁ t₁ ∉ evs := by
  induction h with
  | refl p s => exact fun _ _ => List.not_mem_nil
  | env h ih => exact fun s₁ t₁ hmem => ih hp s₁ t₁ (by simpa using hmem)
  | stmt h ih => exact False.elim hp
  | mark h ih => exact ih hp
  | rollback h ih => exact fun s₁ t₁ hmem => ih hp s₁ t₁ (by simpa using hmem)

/-- In every execution the own statements meet what the program ensures, and no
block is undone before the last of them. -/
theorem Ensures.of_exec {q : Prog κ σ ε α} {s t : σ} {evs : List (Event σ)}
    (h : Exec p s evs q t) (hp : p.Ensures R Q H) :
    ∀ pre s₁ t₁ post, evs = pre ++ .own s₁ t₁ :: post →
      R (H ++ owns pre) s₁ t₁ ∧ ∀ s₂ t₂, .undo s₂ t₂ ∉ pre := by
  induction h generalizing H with
  | refl p s =>
    intro pre s₁ t₁ post heq
    exact absurd heq (by simp)
  | env h ih =>
    intro pre s₁ t₁ post heq
    cases pre with
    | nil => cases heq
    | cons ev pre =>
      obtain ⟨rfl, rfl⟩ := List.cons.inj heq
      obtain ⟨hR, hundo⟩ := ih hp pre s₁ t₁ post rfl
      exact ⟨hR, fun s₂ t₂ hmem => hundo s₂ t₂ (by simpa using hmem)⟩
  | stmt h ih =>
    intro pre s₁ t₁ post heq
    cases pre with
    | nil =>
      cases heq
      rw [owns, List.filterMap_nil, List.append_nil]
      exact ⟨(hp _).1, fun _ _ => List.not_mem_nil⟩
    | cons ev pre =>
      obtain ⟨rfl, rfl⟩ := List.cons.inj heq
      obtain ⟨hR, hundo⟩ := ih (hp _).2 pre s₁ t₁ post rfl
      rw [List.append_assoc] at hR
      exact ⟨hR, fun s₂ t₂ hmem => hundo s₂ t₂ (by simpa using hmem)⟩
  | mark h ih => exact ih hp
  | rollback h ih =>
    intro pre s₁ t₁ post heq
    have hmem : Event.own s₁ t₁ ∈ pre ++ .own s₁ t₁ :: post := by simp
    rw [← heq, List.mem_cons] at hmem
    exact absurd (hmem.resolve_left (by simp)) (Fails.own_notMem h hp s₁ t₁)

end Prog

end Process
