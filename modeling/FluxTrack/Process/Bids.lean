import FluxTrack.Process.Pool
import Mathlib.Data.Set.Basic

/-!
# Bids

A ledger says who holds what. Several programs add entries to it, each for a holder of its own,
and each checks first that nobody holds the thing. The check and the entry are two statements,
so two programs may both check before either enters anything. A program bids for a thing from
its last check until its entry has taken effect. As long as no thing has two bidders, no thing
gets a second holder.

## Main definitions

* `Process.Ledger` — the entries a store holds
* `Ledger.Adds` — a statement that enters for one holder and takes nothing back
* `Prog.Bids`, `Thread.Bids` — nothing the program still reads can stop its entry
* `Pool.NoRivals` — no thing has two bidders

## Main results

* `Prog.bids_bind`, `Prog.not_bids_of_every` — the rules
* `Pool.sole_exec` — without rivals no thing has two holders
-/

namespace Process

universe u v w x

variable {ι : Type v} {κ σ ε α β : Type u} {τ : Type w} {η : Type x}

/-- Which things a store says are held, and by whom, in the stores that make sense. -/
structure Ledger (σ : Type u) (τ : Type w) (η : Type x) where
  Valid : σ → Prop
  Holds : σ → τ → η → Prop

namespace Ledger

variable (L : Ledger σ τ η)

/-- Somebody holds the thing. -/
def Held (s : σ) (x : τ) : Prop := ∃ k, L.Holds s x k

/-- No thing is held by two. -/
def OneHolder (s : σ) : Prop := ∀ x k k', L.Holds s x k → L.Holds s x k' → k = k'

/-- A change that takes no entry back and makes entries for `h` only, of things in `S`. -/
structure Adds (h : η) (S : Set τ) (u : σ → σ) : Prop where
  valid : ∀ s, L.Valid s → L.Valid (u s)
  keeps : ∀ s x k, L.Valid s → L.Holds s x k → L.Holds (u s) x k
  only : ∀ s x k, L.Valid s → L.Holds (u s) x k → L.Holds s x k ∨ x ∈ S ∧ k = h

/-- The change makes an entry for the thing in some store. -/
def Gives (x : τ) (u : σ → σ) : Prop := ∃ s k, L.Valid s ∧ ¬ L.Holds s x k ∧ L.Holds (u s) x k

/-- The second change makes every entry that the first one makes. -/
def Below (u u' : σ → σ) : Prop := ∀ s x k, L.Valid s → L.Holds (u s) x k → L.Holds (u' s) x k

variable {L} {h : η} {S S' : Set τ} {x : τ} {u u' : σ → σ}

theorem adds_id : L.Adds h S id :=
  ⟨fun _ hs => hs, fun _ _ _ _ hx => hx, fun _ _ _ _ hx => .inl hx⟩

/-- A change that leaves the ledger alone. -/
theorem adds_of_same (hvalid : ∀ s, L.Valid s → L.Valid (u s))
    (hsame : ∀ s x k, L.Holds (u s) x k ↔ L.Holds s x k) : L.Adds h S u :=
  ⟨hvalid, fun s x k _ => (hsame s x k).mpr, fun s x k _ hx => .inl ((hsame s x k).mp hx)⟩

theorem Adds.mono (hu : L.Adds h S u) (hS : S ⊆ S') : L.Adds h S' u :=
  ⟨hu.valid, hu.keeps, fun s x k hs hx => (hu.only s x k hs hx).imp_right fun hnew =>
    ⟨hS hnew.1, hnew.2⟩⟩

theorem Adds.comp (hu : L.Adds h S u) (hu' : L.Adds h S u') : L.Adds h S fun s => u' (u s) where
  valid s hs := hu'.valid _ (hu.valid s hs)
  keeps s x k hs hx := hu'.keeps _ x k (hu.valid s hs) (hu.keeps s x k hs hx)
  only s x k hs hx := by
    rcases hu'.only _ x k (hu.valid s hs) hx with hold | hnew
    · exact hu.only s x k hs hold
    · exact .inr hnew

theorem not_gives_id : ¬ L.Gives x id := by
  rintro ⟨s, k, -, hnot, hx⟩
  exact hnot hx

theorem Adds.not_gives (hu : L.Adds h S u) (hx : x ∉ S) : ¬ L.Gives x u := by
  rintro ⟨s, k, hs, hnot, hgiven⟩
  rcases hu.only s x k hs hgiven with hold | ⟨hmem, -⟩
  · exact hnot hold
  · exact hx hmem

theorem below_refl : L.Below u u := fun _ _ _ _ hx => hx

/-- A further addition makes the entries that were made before. -/
theorem Adds.below (hu : L.Adds h S u) (hu' : L.Adds h S u') : L.Below u fun s => u' (u s) :=
  fun s x k hs hx => hu'.keeps (u s) x k (hu.valid s hs) hx

theorem Gives.below (hx : L.Gives x u) (hbelow : L.Below u u') : L.Gives x u' := by
  obtain ⟨s, k, hs, hnot, hgiven⟩ := hx
  exact ⟨s, k, hs, hnot, hbelow s x k hs hgiven⟩

end Ledger

/-! ### Programs -/

namespace Prog

/-- Every statement of the program, whatever it reads, is of a given kind. -/
def Every (N : (σ → σ) → Prop) : Prog κ σ ε α → Prop
  | ret _ => True
  | raise _ => True
  | stmt u k => N u ∧ ∀ s, (k s).Every N
  | mark _ k => k.Every N
  | rollback _ k => k.Every N

/-- The program may return `a` when it only reads stores in `I`. -/
def Passes (I : σ → Prop) : Prog κ σ ε α → α → Prop
  | ret b, a => b = a
  | raise _, _ => False
  | stmt _ k, a => ∃ s, I s ∧ (k s).Passes I a
  | mark _ k, a => k.Passes I a
  | rollback _ k, a => k.Passes I a

/-- The program may go on to make an entry for the thing although every store it reads before
says that the thing is held. -/
def Bids (L : Ledger σ τ η) (x : τ) : Prog κ σ ε α → Prop
  | ret _ => False
  | raise _ => False
  | stmt u k => L.Gives x u ∨ ∃ s, (L.Valid s ∧ L.Held s x) ∧ (k s).Bids L x
  | mark _ k => k.Bids L x
  | rollback _ k => k.Bids L x

variable {N N' : (σ → σ) → Prop} {I : σ → Prop} {L : Ledger σ τ η} {h : η} {S : Set τ} {x : τ}
  {p : Prog κ σ ε α}

theorem Every.mono (hp : p.Every N) (hN : ∀ u, N u → N' u) : p.Every N' := by
  induction p with
  | ret a => trivial
  | raise e => trivial
  | stmt u k ih => exact ⟨hN u hp.1, fun s => ih s (hp.2 s)⟩
  | mark m k ih => exact ih hp
  | rollback s₀ k ih => exact ih hp

theorem Every.elim {f : α → Prog κ σ ε β} {g : ε → Prog κ σ ε β} (hp : p.Every N)
    (hf : ∀ a, (f a).Every N) (hg : ∀ e, (g e).Every N) : (p.elim f g).Every N := by
  induction p with
  | ret a => exact hf a
  | raise e => exact hg e
  | stmt u k ih => exact ⟨hp.1, fun s => ih s (hp.2 s)⟩
  | mark m k ih => exact ih hp
  | rollback s₀ k ih => exact ih hp

theorem Every.bind {f : α → Prog κ σ ε β} (hp : p.Every N) (hf : ∀ a, (f a).Every N) :
    (p >>= f).Every N :=
  hp.elim hf fun _ => trivial

theorem Every.atomic (hN : N id) (hp : p.Every N) : (Prog.atomic p).Every N :=
  ⟨hN, fun _ => hp.elim (fun _ => trivial) fun _ => trivial⟩

theorem Every.forEach {δ : Type*} {f : δ → Prog κ σ ε PUnit} {l : List δ}
    (hf : ∀ i ∈ l, (f i).Every N) : (Prog.forEach l f).Every N := by
  induction l with
  | nil => trivial
  | cons i l ih =>
    exact (hf i List.mem_cons_self).bind fun _ => ih fun j hj => hf j (List.mem_cons_of_mem i hj)

theorem every_select (hN : N id) (f : σ → α) : (select f : Prog κ σ ε α).Every N :=
  ⟨hN, fun _ => trivial⟩

theorem every_modify {u : σ → σ} (hN : N u) : (modify u : Prog κ σ ε PUnit).Every N :=
  ⟨hN, fun _ => trivial⟩

theorem every_modifyGet {u : σ → σ} (hN : N u) (f : σ → α) :
    (modifyGet f u : Prog κ σ ε α).Every N :=
  ⟨hN, fun _ => trivial⟩

theorem Passes.of_elim {f : α → Prog κ σ ε β} {b : β} (hp : (p.elim f raise).Passes I b) :
    ∃ a, p.Passes I a ∧ (f a).Passes I b := by
  induction p with
  | ret a => exact ⟨a, rfl, hp⟩
  | raise e => exact hp.elim
  | stmt u k ih =>
    obtain ⟨s, hs, hk⟩ := hp
    obtain ⟨a, ha, hb⟩ := ih s hk
    exact ⟨a, ⟨s, hs, ha⟩, hb⟩
  | mark m k ih => exact ih hp
  | rollback s₀ k ih => exact ih hp

theorem Passes.of_select_bind {g : σ → α} {f : α → Prog κ σ ε β} {b : β}
    (hp : (select g >>= f).Passes I b) : ∃ s, I s ∧ (f (g s)).Passes I b :=
  hp

/-- A loop passes only if every round does. -/
theorem Passes.of_forEach {δ : Type*} {f : δ → Prog κ σ ε PUnit} {l : List δ} {a : PUnit}
    (hp : (Prog.forEach l f).Passes I a) : ∀ i ∈ l, (f i).Passes I ⟨⟩ := by
  induction l generalizing a with
  | nil => exact fun _ hi => absurd hi List.not_mem_nil
  | cons i l ih =>
    obtain ⟨_, hfirst, hrest⟩ := Passes.of_elim hp
    intro j hj
    rcases List.mem_cons.mp hj with rfl | hj
    · exact hfirst
    · exact ih hrest j hj

theorem bids_elim {f : α → Prog κ σ ε β} {g : ε → Prog κ σ ε β} (hp : (p.elim f g).Bids L x) :
    p.Bids L x ∨ (∃ a, p.Passes (fun s => L.Valid s ∧ L.Held s x) a ∧ (f a).Bids L x) ∨
      ∃ e, (g e).Bids L x := by
  induction p with
  | ret a => exact .inr (.inl ⟨a, rfl, hp⟩)
  | raise e => exact .inr (.inr ⟨e, hp⟩)
  | stmt u k ih =>
    rcases hp with hu | ⟨s, hs, hk⟩
    · exact .inl (.inl hu)
    · rcases ih s hk with hbids | ⟨a, ha, hf⟩ | hg
      · exact .inl (.inr ⟨s, hs, hbids⟩)
      · exact .inr (.inl ⟨a, ⟨s, hs, ha⟩, hf⟩)
      · exact .inr (.inr hg)
  | mark m k ih => exact ih hp
  | rollback s₀ k ih => exact ih hp

/-- A sequence bids if its first part does, or its second after a first part that does not mind
the thing being held. -/
theorem bids_bind {f : α → Prog κ σ ε β} (hp : (p >>= f).Bids L x) :
    p.Bids L x ∨ ∃ a, p.Passes (fun s => L.Valid s ∧ L.Held s x) a ∧ (f a).Bids L x := by
  rcases bids_elim hp with hbids | hf | ⟨e, he⟩
  · exact .inl hbids
  · exact .inr hf
  · exact he.elim

theorem Bids.of_select_bind {g : σ → α} {f : α → Prog κ σ ε β}
    (hp : (select g >>= f).Bids L x) : ∃ s, (L.Valid s ∧ L.Held s x) ∧ (f (g s)).Bids L x :=
  hp.resolve_left Ledger.not_gives_id

/-- Where the first part does not mind the thing being held, the second may bid. -/
theorem Passes.bids_bind {f : α → Prog κ σ ε β} {a : α}
    (hp : p.Passes (fun s => L.Valid s ∧ L.Held s x) a) (hf : (f a).Bids L x) :
    (p >>= f).Bids L x := by
  induction p with
  | ret b =>
    obtain rfl : b = a := hp
    exact hf
  | raise e => exact hp.elim
  | stmt u k ih =>
    obtain ⟨s, hs, hk⟩ := hp
    exact .inr ⟨s, hs, ih s hk⟩
  | mark m k ih => exact ih hp
  | rollback s₀ k ih => exact ih hp

/-- A program without an entry for the thing does not bid for it. -/
theorem not_bids_of_every (hp : p.Every (L.Adds h S)) (hx : x ∉ S) : ¬ p.Bids L x := by
  intro hbids
  induction p with
  | ret a => exact hbids
  | raise e => exact hbids
  | stmt u k ih =>
    rcases hbids with hu | ⟨s, -, hk⟩
    · exact hp.1.not_gives hx hu
    · exact ih s (hp.2 s) hk
  | mark m k ih => exact ih hp hbids
  | rollback s₀ k ih => exact ih hp hbids

/-- The program only looks around in its next `n` statements, and does not bid for anything
before it has made them. -/
def Silent (L : Ledger σ τ η) : ℕ → Prog κ σ ε α → Prop
  | 0, p => ∀ x, ¬ p.Bids L x
  | _ + 1, ret _ => True
  | _ + 1, raise _ => True
  | n + 1, stmt u k => u = id ∧ ∀ s, (k s).Silent L n
  | _ + 1, mark _ _ => False
  | _ + 1, rollback _ _ => False

theorem Silent.not_bids {n : ℕ} (hp : p.Silent L n) (x : τ) : ¬ p.Bids L x := by
  induction n generalizing p with
  | zero => exact hp x
  | succ n ih =>
    cases p with
    | ret a => exact id
    | raise e => exact id
    | stmt u k =>
      rintro (hgives | ⟨s, -, hk⟩)
      · exact Ledger.not_gives_id (hp.1 ▸ hgives)
      · exact ih (hp.2 s) hk
    | mark m k => exact False.elim hp
    | rollback s₀ k => exact False.elim hp

theorem silent_select_bind {n : ℕ} {g : σ → α} {f : α → Prog κ σ ε β}
    (hf : ∀ s, (f (g s)).Silent L n) : (select g >>= f).Silent L (n + 1) :=
  ⟨rfl, hf⟩

end Prog

/-! ### Pools -/

/-- The program is past its last check for the thing, or its entry is among the pending
changes. -/
def Thread.Bids (L : Ledger σ τ η) (th : Thread κ σ ε α) (x : τ) : Prop :=
  th.prog.Bids L x ∨ L.Gives x th.pending

/-- The program is in no block and has nothing pending. -/
def Thread.Outside (th : Thread κ σ ε α) : Prop := th.blocks = [] ∧ th.pending = id

theorem Thread.Outside.not_bids {L : Ledger σ τ η} {th : Thread κ σ ε α} (h : th.Outside) {x : τ}
    (hx : ¬ th.prog.Bids L x) : ¬ th.Bids L x := by
  rintro (hprog | hpending)
  · exact hx hprog
  · exact Ledger.not_gives_id (h.2 ▸ hpending)

/-- The program only makes entries for `h`, and what it goes back to when a block is undone is
what it had entered before. -/
structure Thread.Books (L : Ledger σ τ η) (h : η) (th : Thread κ σ ε α) : Prop where
  prog : th.prog.Every (L.Adds h Set.univ)
  pending : L.Adds h Set.univ th.pending
  blocks : ∀ b ∈ th.blocks, L.Adds h Set.univ b
  grows : (th.pending :: th.blocks).Pairwise fun u b => L.Below b u

namespace Pool

variable {L : Ledger σ τ η} {holder : ι → η} {P : Pool ι κ σ ε α} {i : ι} {th : Thread κ σ ε α}

/-- No thing has two bidders. -/
def NoRivals (L : Ledger σ τ η) (P : Pool ι κ σ ε α) : Prop :=
  ∀ i j x, (P.threads i).Bids L x → (P.threads j).Bids L x → i = j

/-- No thing has two holders, and what a program bids for nobody else holds. -/
structure Sole (L : Ledger σ τ η) (holder : ι → η) (P : Pool ι κ σ ε α) : Prop where
  valid : L.Valid P.store
  books : ∀ i, (P.threads i).Books L (holder i)
  sole : ∀ i x k, (P.threads i).Bids L x → L.Holds P.store x k → k = holder i
  one : L.OneHolder P.store

theorem books_start {h : η} {p : Prog κ σ ε α} (hp : p.Every (L.Adds h Set.univ)) :
    (Thread.start p).Books L h :=
  ⟨hp, Ledger.adds_id, fun _ hb => absurd hb List.not_mem_nil, List.pairwise_singleton _ _⟩

theorem bids_start {p : Prog κ σ ε α} {x : τ} (h : (Thread.start p).Bids L x) : p.Bids L x :=
  h.resolve_right Ledger.not_gives_id

/-- Programs that check for everything they enter. -/
theorem sole_start {s : σ} {progs : ι → Prog κ σ ε α} (hs : L.Valid s) (hone : L.OneHolder s)
    (hadds : ∀ i, (progs i).Every (L.Adds (holder i) Set.univ))
    (hcheck : ∀ i x, ¬ (progs i).Bids L x) : (start s progs).Sole L holder :=
  ⟨hs, fun i => books_start (hadds i), fun i x _ hbids => absurd (bids_start hbids) (hcheck i x),
    hone⟩

variable [DecidableEq ι]

/-- A program goes on. It bids for nothing new that is held, and what it has entered it has bid
for. -/
theorem Sole.put (h : P.Sole L holder) (hrivals : P.NoRivals L) (hth : th.Books L (holder i))
    (hbids : ∀ x, th.prog.Bids L x → L.Held P.store x → (P.threads i).Bids L x)
    (hgives : ∀ x, L.Gives x th.pending → (P.threads i).Bids L x) : (P.put i th).Sole L holder := by
  by_cases hb : th.blocks = []
  · rw [put_of_nil hb]
    -- an entry is an old one, or one that the moving program has bid for
    have hnew : ∀ x k, L.Holds (th.pending P.store) x k →
        L.Holds P.store x k ∨ k = holder i ∧ (P.threads i).Bids L x := by
      intro x k hx
      by_cases hold : L.Holds P.store x k
      · exact .inl hold
      · rcases hth.pending.only _ x k h.valid hx with hold' | ⟨-, hk⟩
        · exact absurd hold' hold
        · exact .inr ⟨hk, hgives x ⟨P.store, k, h.valid, hold, hx⟩⟩
    refine ⟨hth.pending.valid _ h.valid, fun j => ?_, fun j x k hj hx => ?_,
      fun x k k' hx hx' => ?_⟩
    · by_cases hji : j = i
      · subst hji
        simpa using books_start hth.prog
      · simpa [hji] using h.books j
    · by_cases hji : j = i
      · subst hji
        simp only [Function.update_self] at hj
        rcases hnew x k hx with hold | ⟨hk, -⟩
        · exact h.sole j x k (hbids x (bids_start hj) ⟨k, hold⟩) hold
        · exact hk
      · simp only [Function.update_of_ne hji] at hj
        rcases hnew x k hx with hold | ⟨-, hi⟩
        · exact h.sole j x k hj hold
        · exact absurd (hrivals j i x hj hi) hji
    · rcases hnew x k hx with hold | ⟨hk, hi⟩
      · rcases hnew x k' hx' with hold' | ⟨hk', hi⟩
        · exact h.one x k k' hold hold'
        · exact (h.sole i x k hi hold).trans hk'.symm
      · rcases hnew x k' hx' with hold' | ⟨hk', -⟩
        · exact hk.trans (h.sole i x k' hi hold').symm
        · exact hk.trans hk'.symm
  · rw [put_of_ne_nil hb]
    refine ⟨h.valid, fun j => ?_, fun j x k hj hx => ?_, h.one⟩
    · by_cases hji : j = i
      · subst hji
        simpa using hth
      · simpa [hji] using h.books j
    · by_cases hji : j = i
      · subst hji
        simp only [Function.update_self] at hj
        rcases hj with hprog | hpending
        · exact h.sole j x k (hbids x hprog ⟨k, hx⟩) hx
        · exact h.sole j x k (hgives x hpending) hx
      · simp only [Function.update_of_ne hji] at hj
        exact h.sole j x k hj hx

variable [Fintype ι] [DecidableEq κ]

/-- Every move keeps the entries apart. -/
theorem Sole.step (h : P.Sole L holder) (hrivals : P.NoRivals L) (i : ι) :
    (P.step i).Sole L holder := by
  obtain ⟨hprog, hpending, hblocks, hgrows⟩ := h.books i
  rcases hi : P.threads i with ⟨prog, pending, blocks, held⟩
  rw [hi] at hprog hpending hblocks hgrows
  have hprogBids : ∀ x, prog.Bids L x → (P.threads i).Bids L x := fun x hx => hi ▸ .inl hx
  have hpendingBids : ∀ x, L.Gives x pending → (P.threads i).Bids L x := fun x hx => hi ▸ .inr hx
  cases prog with
  | ret a =>
    rw [Pool.step, hi]
    exact h
  | raise e =>
    rw [Pool.step, hi]
    exact h
  | stmt u k =>
    rw [Pool.step, hi]
    -- what the statement gives is new in one of two places: the pending writes or the store
    refine h.put hrivals ⟨hprog.2 _, hpending.comp hprog.1, hblocks, ?_⟩ (fun x hk hheld => ?_)
      fun x hx => ?_
    · rw [List.pairwise_cons] at hgrows ⊢
      refine ⟨fun b hb s x k hs hx => ?_, hgrows.2⟩
      exact hpending.below hprog.1 s x k hs (hgrows.1 b hb s x k hs hx)
    · obtain ⟨k', hk'⟩ := hheld
      refine hprogBids x (.inr ⟨_, ⟨hpending.valid _ h.valid, k', ?_⟩, hk⟩)
      exact hpending.keeps _ x k' h.valid hk'
    · obtain ⟨s, k', hs, hnot, hgiven⟩ := hx
      -- given before by the pending writes, or by the statement
      by_cases hbefore : L.Holds (pending s) x k'
      · exact hpendingBids x ⟨s, k', hs, hnot, hbefore⟩
      · exact hprogBids x (.inl ⟨_, k', hpending.valid s hs, hbefore, hgiven⟩)
  | mark m k =>
    cases m with
    | enter =>
      rw [Pool.step, hi]
      refine h.put hrivals ⟨hprog, hpending, fun b hb => ?_, ?_⟩ (fun x hk _ => hprogBids x hk)
        hpendingBids
      · rcases List.mem_cons.mp hb with rfl | hb
        · exact hpending
        · exact hblocks b hb
      · rw [List.pairwise_cons] at hgrows ⊢
        refine ⟨fun b hb => ?_, List.pairwise_cons.mpr hgrows⟩
        rcases List.mem_cons.mp hb with rfl | hb
        · exact Ledger.below_refl
        · exact hgrows.1 b hb
    | leave =>
      rw [Pool.step, hi]
      refine h.put hrivals ⟨hprog, hpending, fun b hb => hblocks b (List.mem_of_mem_tail hb), ?_⟩
        (fun x hk _ => hprogBids x hk) hpendingBids
      exact hgrows.sublist ((List.tail_sublist blocks).cons_cons pending)
    | lock r =>
      rw [Pool.step, hi]
      dsimp only
      split
      · exact h.put hrivals ⟨hprog, hpending, hblocks, hgrows⟩ (fun x hk _ => hprogBids x hk)
          hpendingBids
      · exact h
  | rollback s₀ k =>
    rw [Pool.step, hi]
    cases blocks with
    | nil =>
      refine h.put hrivals ⟨hprog, Ledger.adds_id, hblocks, List.pairwise_singleton _ _⟩
        (fun x hk _ => hprogBids x hk) fun x hx => absurd hx Ledger.not_gives_id
    | cons b bs =>
      -- a rollback leaves the writes that were pending at the start of the block
      have hb : L.Adds (holder i) Set.univ b := hblocks b List.mem_cons_self
      rw [List.pairwise_cons] at hgrows
      refine h.put hrivals ⟨hprog, hb, hblocks, ?_⟩ (fun x hk _ => hprogBids x hk) fun x hx => ?_
      · refine List.pairwise_cons.mpr ⟨fun b' hb' => ?_, hgrows.2⟩
        rcases List.mem_cons.mp hb' with rfl | hb'
        · exact Ledger.below_refl
        · exact (List.pairwise_cons.mp hgrows.2).1 b' hb'
      · exact hpendingBids x (hx.below (hgrows.1 b List.mem_cons_self))

/-- As long as no thing has two bidders no thing has two holders. -/
theorem sole_exec (hP : P.Sole L holder) (schedule : List ι)
    (hrivals : ∀ l, l <+: schedule → (P.exec l).NoRivals L) : (P.exec schedule).Sole L holder := by
  induction schedule generalizing P with
  | nil => exact hP
  | cons i schedule ih =>
    have hnow : P.NoRivals L := hrivals [] List.nil_prefix
    refine ih (hP.step hnow i) fun l hl => ?_
    exact hrivals (i :: l) (List.cons_prefix_cons.mpr ⟨rfl, hl⟩)

omit [Fintype ι] [DecidableEq κ] in
/-- Outside every block nothing is pending. -/
theorem outside_put (h : ((P.put i th).threads i).blocks = []) :
    ((P.put i th).threads i).Outside := by
  by_cases hb : th.blocks = []
  · rw [put_of_nil hb]
    simp only [Function.update_self]
    exact ⟨rfl, rfl⟩
  · rw [put_of_ne_nil hb] at h
    simp only [Function.update_self] at h
    exact absurd h hb

theorem outside_step {j : ι} (hj : (P.threads j).blocks = [] → (P.threads j).Outside)
    (h : ((P.step i).threads j).blocks = []) : ((P.step i).threads j).Outside := by
  by_cases hji : j = i
  swap
  · rw [threads_step_of_ne hji] at h ⊢
    exact hj h
  subst hji
  rw [step] at h ⊢
  split at h
  case h_6 =>
    split at h
    · rename_i hfree
      rw [if_pos hfree]
      exact outside_put h
    · rename_i hheld
      rw [if_neg hheld]
      exact hj h
  all_goals first | exact hj h | exact outside_put h

/-- A program that is in no block has nothing pending. -/
theorem outside_exec {j : ι} (hj : (P.threads j).blocks = [] → (P.threads j).Outside) (l : List ι)
    (h : ((P.exec l).threads j).blocks = []) : ((P.exec l).threads j).Outside := by
  induction l generalizing P with
  | nil => exact hj h
  | cons i l ih => exact ih (outside_step hj) h

/-- A silent program does not bid before it has made the moves it is silent for. -/
theorem not_bids_exec_of_silent {n : ℕ} {l : List ι} (hout : (P.threads i).Outside)
    (h : (P.threads i).prog.Silent L n) (hl : l.count i ≤ n) (x : τ) :
    ¬ ((P.exec l).threads i).Bids L x := by
  induction l generalizing P n with
  | nil => exact hout.not_bids (h.not_bids x)
  | cons j l ih =>
    rw [exec_cons]
    by_cases hji : i = j
    swap
    · -- a move of another program
      rw [List.count_cons_of_ne (Ne.symm hji)] at hl
      have hsame : (P.step j).threads i = P.threads i := threads_step_of_ne hji
      exact ih (hsame ▸ hout) (hsame ▸ h) hl
    subst hji
    rw [List.count_cons_self] at hl
    obtain ⟨n, rfl⟩ : ∃ m, n = m + 1 := ⟨n - 1, by omega⟩
    rcases hi : P.threads i with ⟨prog, pending, blocks, held⟩
    rw [hi] at hout h
    obtain ⟨rfl, rfl⟩ : blocks = [] ∧ pending = id := hout
    -- a program that has ended stays silent
    have hstay : P.step i = P → ¬ (((P.step i).exec l).threads i).Bids L x := by
      intro hstep
      rw [hstep]
      exact ih (hi ▸ ⟨rfl, rfl⟩) (hi ▸ h) (Nat.le_of_succ_le hl)
    cases prog with
    | ret a => exact hstay (by rw [step, hi])
    | raise e => exact hstay (by rw [step, hi])
    | stmt u k =>
      obtain ⟨rfl, hk⟩ := h
      have hstep : (P.step i).threads i = .start (k P.store) := by
        rw [step, hi]
        dsimp only
        rw [put_of_nil rfl]
        simp only [Function.update_self, id]
      refine ih (hstep ▸ ⟨rfl, rfl⟩) ?_ (Nat.le_of_succ_le_succ hl)
      rw [hstep]
      exact hk _
    | mark m k => exact False.elim h
    | rollback s₀ k => exact False.elim h

end Pool

end Process
