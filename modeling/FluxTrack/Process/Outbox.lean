import FluxTrack.Process.Prog
import Mathlib.Data.Set.Insert

/-!
# An outbox that is drained

A worker takes the entries of an outbox one after another, makes an attempt at each target of the
entry, and then marks the entry as done. It may be cut off anywhere, and what it was at then is
taken once more by the next worker. So an entry is tried at a target at most once more often than a
worker has been cut off at it, and what is done has been tried at all of its targets.

## Main definitions

* `Prog.Follows`, `Prog.move`, `Prog.halted` — programs whose statements are the moves of a protocol
* `Outbox`, `Drainer`, `Outbox.Move` — the outbox, the worker, what the worker does
* `Outbox.Fair` — the invariant

## Main results

* `Follows.bind`, `Follows.forEach` — the rules for programs
* `Outbox.Fair.move`, `Outbox.Fair.cut`, `Outbox.Fair.start` — the rules for the outbox
* `Outbox.Fair.count_le` — how often an entry is tried at a target
-/

namespace Process

/-! ### Protocols -/

namespace Prog

universe u

variable {κ σ ε α β : Type u} {χ : Type*} {R : χ → σ → σ → χ → Prop} {E : χ → Except ε α → Prop}

/-- From the control state on each statement makes a move of the protocol, and the program ends as
`E` says. -/
def Follows (R : χ → σ → σ → χ → Prop) (E : χ → Except ε α → Prop) : χ → Prog κ σ ε α → Prop
  | c, ret a => E c (.ok a)
  | c, raise e => E c (.error e)
  | c, stmt u k => ∀ s, ∃ c', R c s (u s) c' ∧ (k s).Follows R E c'
  | c, mark _ k => k.Follows R E c
  | c, rollback s₀ k => ∀ s, ∃ c', R c s s₀ c' ∧ k.Follows R E c'

theorem Follows.elim {E' : χ → Except ε β → Prop} {c : χ} {p : Prog κ σ ε β} {f : β → Prog κ σ ε α}
    {g : ε → Prog κ σ ε α} (hp : p.Follows R E' c) (hf : ∀ c' b, E' c' (.ok b) → (f b).Follows R E c')
    (hg : ∀ c' e, E' c' (.error e) → (g e).Follows R E c') : (p.elim f g).Follows R E c := by
  induction p generalizing c with
  | ret b => exact hf c b hp
  | raise e => exact hg c e hp
  | stmt u k ih =>
    intro s
    obtain ⟨c', hmove, hk⟩ := hp s
    exact ⟨c', hmove, ih s hk⟩
  | mark m k ih => exact ih hp
  | rollback s₀ k ih =>
    intro s
    obtain ⟨c', hmove, hk⟩ := hp s
    exact ⟨c', hmove, ih hk⟩

theorem Follows.bind {E' : χ → Except ε β → Prop} {c : χ} {p : Prog κ σ ε β} {f : β → Prog κ σ ε α}
    (hp : p.Follows R E' c) (hf : ∀ c' b, E' c' (.ok b) → (f b).Follows R E c')
    (he : ∀ c' e, E' c' (.error e) → E c' (.error e)) : (p >>= f).Follows R E c :=
  hp.elim hf he

theorem follows_select_bind {c : χ} {g : σ → β} {f : β → Prog κ σ ε α}
    (h : ∀ s, ∃ c', R c s s c' ∧ (f (g s)).Follows R E c') :
    ((select g : Prog κ σ ε β) >>= f).Follows R E c := h

theorem follows_modify_bind {c : χ} {u : σ → σ} {f : PUnit → Prog κ σ ε α}
    (h : ∀ s, ∃ c', R c s (u s) c' ∧ (f ⟨⟩).Follows R E c') :
    ((modify u : Prog κ σ ε PUnit) >>= f).Follows R E c := h

theorem follows_modifyGet_bind {c : χ} {g : σ → β} {u : σ → σ} {f : β → Prog κ σ ε α}
    (h : ∀ s, ∃ c', R c s (u s) c' ∧ (f (g s)).Follows R E c') :
    ((modifyGet g u : Prog κ σ ε β) >>= f).Follows R E c := h

/-- The program has ended. -/
def halted : Prog κ σ ε α → Bool
  | ret _ | raise _ => true
  | stmt _ _ | mark _ _ | rollback _ _ => false

/-- A program that has ended has done so as `E` says. -/
theorem Follows.of_halted {c : χ} {p : Prog κ σ ε α} (hp : p.Follows R E c) (h : p.halted = true) :
    ∃ r, E c r := by
  cases p with
  | ret a => exact ⟨_, hp⟩
  | raise e => exact ⟨_, hp⟩
  | stmt | mark | rollback => cases h

/-- One move of a program; one that has ended stays. -/
def move : Prog κ σ ε α → σ → Prog κ σ ε α × σ
  | ret a, s => (ret a, s)
  | raise e, s => (raise e, s)
  | stmt u k, s => (k s, u s)
  | mark _ k, s => (k, s)
  | rollback s₀ k, _ => (k, s₀)

/-- A move of the program is one of the protocol, or nothing happens. -/
theorem Follows.move {c : χ} {p : Prog κ σ ε α} (hp : p.Follows R E c) (s : σ) :
    ∃ c', (R c s (p.move s).2 c' ∨ c' = c ∧ (p.move s).2 = s) ∧ (p.move s).1.Follows R E c' := by
  cases p with
  | ret a => exact ⟨c, .inr ⟨rfl, rfl⟩, hp⟩
  | raise e => exact ⟨c, .inr ⟨rfl, rfl⟩, hp⟩
  | stmt u k =>
    obtain ⟨c', hmove, hk⟩ := hp s
    exact ⟨c', .inl hmove, hk⟩
  | mark m k => exact ⟨c, .inr ⟨rfl, rfl⟩, hp⟩
  | rollback s₀ k =>
    obtain ⟨c', hmove, hk⟩ := hp s
    exact ⟨c', .inl hmove, hk⟩

end Prog

/-! ### The outbox -/

variable {ν τ : Type*}

/-- The entries `ν` that are done, and the attempts at targets `τ`. -/
structure Outbox (ν τ : Type*) where
  done : Set ν
  attempts : List (ν × τ)

/-- Where a worker is: the entries to come, the one it is at, and the targets left for it. -/
structure Drainer (ν τ : Type*) where
  queue : List ν
  current : Option (ν × List τ)

namespace Outbox

variable {plans plans' : Set (ν × List τ)} {before : Set ν} {lost : List ν} {O O' : Outbox ν τ}
  {w w' : Drainer ν τ}

/-- What a worker does; the targets of an entry are taken from the plans. -/
inductive Move (plans : Set (ν × List τ)) (O : Outbox ν τ) :
    Drainer ν τ → Outbox ν τ → Drainer ν τ → Prop
  | take {n : ν} {q : List ν} {ts : List τ} (plan : (n, ts) ∈ plans) (nodup : ts.Nodup) :
      Move plans O ⟨n :: q, none⟩ O ⟨q, some (n, ts)⟩
  | attempt {n : ν} {t : τ} {q : List ν} {ts : List τ} :
      Move plans O ⟨q, some (n, t :: ts)⟩ { O with attempts := O.attempts ++ [(n, t)] }
        ⟨q, some (n, ts)⟩
  | settle {n : ν} {q : List ν} :
      Move plans O ⟨q, some (n, [])⟩ { O with done := insert n O.done } ⟨q, none⟩

variable [DecidableEq ν] [DecidableEq τ]

/-- Attempts are bounded by the workers that were lost, and what is done has been tried as
planned. -/
structure Fair (plans : Set (ν × List τ)) (before : Set ν) (lost : List ν) (O : Outbox ν τ)
    (w : Drainer ν τ) : Prop where
  count_le : ∀ n t, O.attempts.count (n, t) ≤ lost.count n + 1
  done : ∀ n ∈ O.done, n ∈ before ∨ ∃ ts, (n, ts) ∈ plans ∧ ∀ t ∈ ts, (n, t) ∈ O.attempts
  /-- what is not done and not in progress has been tried by lost workers only -/
  idle : ∀ n, n ∉ O.done → (∀ ts, w.current ≠ some (n, ts)) → ∀ t,
    O.attempts.count (n, t) ≤ lost.count n
  queue : w.queue.Nodup ∧ ∀ n ∈ w.queue, n ∉ O.done ∧ ∀ ts, w.current ≠ some (n, ts)
  current : ∀ n ts, w.current = some (n, ts) → n ∉ O.done ∧ ts.Nodup ∧
    (∃ us, (n, us) ∈ plans ∧ ∀ t ∈ us, t ∈ ts ∨ (n, t) ∈ O.attempts) ∧
    ∀ t ∈ ts, O.attempts.count (n, t) ≤ lost.count n

theorem Fair.mono (h : O.Fair plans before lost w) (hplans : plans ⊆ plans') :
    O.Fair plans' before lost w where
  count_le := h.count_le
  done n hn := by
    refine (h.done n hn).imp_right ?_
    rintro ⟨ts, hts, hall⟩
    exact ⟨ts, hplans hts, hall⟩
  idle := h.idle
  queue := h.queue
  current n ts hcurrent := by
    obtain ⟨hdone, hnodup, ⟨us, hus, hall⟩, hcount⟩ := h.current n ts hcurrent
    exact ⟨hdone, hnodup, ⟨us, hplans hus, hall⟩, hcount⟩

/-- Nothing has been tried. -/
theorem fair_nil (plans : Set (ν × List τ)) (before : Set ν) :
    (⟨before, []⟩ : Outbox ν τ).Fair plans before [] ⟨[], none⟩ where
  count_le _ _ := Nat.zero_le _
  done _ hn := .inl hn
  idle _ _ _ _ := le_refl _
  queue := ⟨List.nodup_nil, fun _ hn => absurd hn List.not_mem_nil⟩
  current _ _ hcurrent := nomatch hcurrent

theorem Fair.take {n : ν} {q : List ν} {ts : List τ} (h : O.Fair plans before lost ⟨n :: q, none⟩)
    (hplan : (n, ts) ∈ plans) (hnodup : ts.Nodup) :
    O.Fair plans before lost ⟨q, some (n, ts)⟩ where
  count_le := h.count_le
  done := h.done
  idle m hm _ := h.idle m hm fun _ => Option.some_ne_none _ ∘ Eq.symm
  queue := by
    obtain ⟨hq, hfree⟩ := h.queue
    obtain ⟨hn, hq⟩ := List.nodup_cons.mp hq
    refine ⟨hq, fun m hm => ⟨(hfree m (List.mem_cons_of_mem n hm)).1, fun us heq => ?_⟩⟩
    cases heq
    exact hn hm
  current m us heq := by
    cases heq
    have hfree := (h.queue.2 n List.mem_cons_self).1
    exact ⟨hfree, hnodup, ⟨ts, hplan, fun t ht => .inl ht⟩,
      fun t _ => h.idle n hfree (fun _ => Option.some_ne_none _ ∘ Eq.symm) t⟩

theorem count_append_of_ne {l : List (ν × τ)} {p p' : ν × τ} (h : p' ≠ p) :
    (l ++ [p']).count p = l.count p := by
  rw [List.count_append, List.count_singleton, if_neg (by simpa using h), Nat.add_zero]

theorem Fair.attempt {n : ν} {t : τ} {q : List ν} {ts : List τ}
    (h : O.Fair plans before lost ⟨q, some (n, t :: ts)⟩) :
    ({ O with attempts := O.attempts ++ [(n, t)] } : Outbox ν τ).Fair plans before lost
      ⟨q, some (n, ts)⟩ := by
  obtain ⟨hfree, hnodup, ⟨us, hus, hall⟩, hcount⟩ := h.current n (t :: ts) rfl
  obtain ⟨ht, hts⟩ := List.nodup_cons.mp hnodup
  have hmore : ∀ p ∈ O.attempts, p ∈ O.attempts ++ [(n, t)] := fun p hp =>
    List.mem_append_left _ hp
  refine ⟨fun m u => ?_, fun m hm => ?_, fun m hm hidle u => ?_, ⟨h.queue.1, ?_⟩,
    fun m vs heq => ?_⟩
  · by_cases hp : (n, t) = (m, u)
    · cases hp
      -- the targets that are left have been tried only by workers that were cut off
      have hbound := hcount t List.mem_cons_self
      rw [List.count_append, List.count_singleton_self]
      omega
    · rw [count_append_of_ne hp]
      exact h.count_le m u
  · refine (h.done m hm).imp_right ?_
    rintro ⟨vs, hvs, htried⟩
    exact ⟨vs, hvs, fun u hu => hmore _ (htried u hu)⟩
  · have hne : (n, t) ≠ (m, u) := by
      intro heq
      cases heq
      exact hidle ts rfl
    rw [count_append_of_ne hne]
    refine h.idle m hm (fun vs heq => ?_) u
    cases heq
    exact hidle ts rfl
  · intro m hm
    refine ⟨(h.queue.2 m hm).1, fun vs heq => ?_⟩
    cases heq
    exact (h.queue.2 n hm).2 _ rfl
  · cases heq
    -- the target moves from those that are left to those that have been tried
    refine ⟨hfree, hts, ⟨us, hus, fun u hu => ?_⟩, fun u hu => ?_⟩
    · rcases hall u hu with hleft | htried
      · rcases List.mem_cons.mp hleft with rfl | hleft
        · exact .inr (List.mem_append_right _ (List.mem_singleton.mpr rfl))
        · exact .inl hleft
      · exact .inr (hmore _ htried)
    · have hne : (n, t) ≠ (n, u) := by
        intro heq
        cases heq
        exact ht hu
      rw [count_append_of_ne hne]
      exact hcount u (List.mem_cons_of_mem t hu)

theorem Fair.settle {n : ν} {q : List ν} (h : O.Fair plans before lost ⟨q, some (n, [])⟩) :
    ({ O with done := insert n O.done } : Outbox ν τ).Fair plans before lost ⟨q, none⟩ := by
  obtain ⟨-, -, ⟨us, hus, hall⟩, -⟩ := h.current n [] rfl
  refine ⟨h.count_le, fun m hm => ?_, fun m hm _ u => ?_, ⟨h.queue.1, fun m hm => ?_⟩,
    fun m vs heq => nomatch heq⟩
  · rcases Set.mem_insert_iff.mp hm with rfl | hm
    · exact .inr ⟨us, hus, fun t ht => (hall t ht).resolve_left List.not_mem_nil⟩
    · exact h.done m hm
  · have hne : m ∉ O.done ∧ m ≠ n :=
      ⟨fun hdone => hm (Set.mem_insert_of_mem n hdone), fun heq => hm (heq ▸ Set.mem_insert _ _)⟩
    refine h.idle m hne.1 (fun vs heq => ?_) u
    cases heq
    exact hne.2 rfl
  · obtain ⟨hdone, hidle⟩ := h.queue.2 m hm
    refine ⟨fun hmem => ?_, fun _ => Option.some_ne_none _ ∘ Eq.symm⟩
    rcases Set.mem_insert_iff.mp hmem with rfl | hmem
    · exact hidle [] rfl
    · exact hdone hmem

/-- Every move of the worker keeps the invariant. -/
theorem Fair.move (h : O.Fair plans before lost w) (hmove : O.Move plans w O' w') :
    O'.Fair plans before lost w' := by
  cases hmove with
  | take hplan hnodup => exact h.take hplan hnodup
  | attempt => exact h.attempt
  | settle => exact h.settle

/-- A worker is cut off, which is counted for the entry it was at. -/
theorem Fair.cut (h : O.Fair plans before lost w) :
    O.Fair plans before ((w.current.map Prod.fst).toList ++ lost) ⟨[], none⟩ := by
  have hgrow : ∀ n, lost.count n ≤ ((w.current.map Prod.fst).toList ++ lost).count n := by
    intro n
    rw [List.count_append]
    exact Nat.le_add_left _ _
  refine ⟨fun n t => (h.count_le n t).trans (Nat.add_le_add_right (hgrow n) 1), h.done,
    fun n hn _ t => ?_, ⟨List.nodup_nil, fun n hn => absurd hn List.not_mem_nil⟩,
    fun n ts heq => nomatch heq⟩
  cases hcurrent : w.current with
  | none =>
    exact (h.idle n hn (fun ts heq => nomatch hcurrent.symm.trans heq) t).trans (le_refl _)
  | some p =>
    by_cases hp : p.1 = n
    · have hbound := h.count_le n t
      simp only [Option.map_some, Option.toList_some, hp, List.singleton_append, List.count_cons_self]
      exact hbound
    · refine (h.idle n hn (fun ts heq => hp ?_) t).trans (hcurrent ▸ hgrow n)
      exact congrArg Prod.fst (Option.some.inj (hcurrent.symm.trans heq))

/-- The next worker starts with entries that are not done. -/
theorem Fair.start {q : List ν} (h : O.Fair plans before lost ⟨[], none⟩) (hq : q.Nodup)
    (hfree : ∀ n ∈ q, n ∉ O.done) : O.Fair plans before lost ⟨q, none⟩ where
  count_le := h.count_le
  done := h.done
  idle := h.idle
  queue := ⟨hq, fun n hn => ⟨hfree n hn, fun _ => Option.some_ne_none _ ∘ Eq.symm⟩⟩
  current _ _ heq := nomatch heq

end Outbox

end Process
