import FluxTrack.Process.Pool
import Mathlib.Data.List.Nodup
import Mathlib.Data.List.Perm.Basic

/-!
# Looking before inserting

Programs of a pool that insert an element into a collection only after a look at the
store that did not find it there. The look and the insertion are two statements, so
two programs may both look before either inserts; this is the only way to a
duplicate. An element is claimed by a program from the look that misses it until its
insertion takes effect, and as long as no element is ever claimed twice the collection
has no duplicates.

## Main definitions

* `Prog.Looks` — the program looks before it inserts
* `Prog.Awaits`, `Thread.Claims` — the element a program is going to insert
* `Pool.Apart` — no element is claimed by two programs

## Main results

* `Looks.elim`, `Looks.bind`, `Looks.atomic` — the rules
* `Pool.nodup_exec` — without double claims there are no duplicates
-/

namespace Process

universe u v w

variable {ι : Type v} {τ : Type w} {κ σ ε α β : Type u}

namespace Prog

/-- The program inserts an element into `elems` only after a statement that found it
missing; with `some x` it has just missed `x` and inserts it next. -/
def Looks (elems : σ → List τ) : Option τ → Prog κ σ ε α → Prop
  | o, ret _ => o = none
  | o, raise _ => o = none
  | none, stmt u k => (∀ s, (elems (u s)).Perm (elems s)) ∧
      ∀ s, (k s).Looks elems none ∨ ∃ x, x ∉ elems s ∧ (k s).Looks elems (some x)
  | some x, stmt u k =>
      ((∀ s, (elems (u s)).Perm (x :: elems s)) ∧ ∀ s, (k s).Looks elems none) ∨
      ((∀ s, u s = s) ∧ ∀ s, (k s).Looks elems (some x))
  | o, mark _ k => k.Looks elems o
  | o, rollback _ k => k.Looks elems o

/-- The next statement that changes anything inserts `x`. -/
def Awaits (elems : σ → List τ) (x : τ) : Prog κ σ ε α → Prop
  | ret _ => False
  | raise _ => False
  | stmt u k => (∀ s, (elems (u s)).Perm (x :: elems s)) ∨
      ((∀ s, u s = s) ∧ ∀ s, (k s).Awaits elems x)
  | mark _ k => k.Awaits elems x
  | rollback _ k => k.Awaits elems x

variable {elems : σ → List τ} {o : Option τ} {p : Prog κ σ ε α}

theorem Looks.awaits {x : τ} (h : p.Looks elems (some x)) : p.Awaits elems x := by
  induction p with
  | ret a => cases h
  | raise e => cases h
  | stmt u k ih =>
    rcases h with ⟨hu, -⟩ | ⟨hu, hk⟩
    · exact .inl hu
    · exact .inr ⟨hu, fun s => ih s (hk s)⟩
  | mark m k ih => exact ih h
  | rollback s₀ k ih => exact ih h

theorem looks_ret (a : α) : (ret a : Prog κ σ ε α).Looks elems none := rfl

theorem looks_raise (e : ε) : (raise e : Prog κ σ ε α).Looks elems none := rfl

theorem Looks.elim {f : α → Prog κ σ ε β} {g : ε → Prog κ σ ε β} (hp : p.Looks elems o)
    (hf : ∀ a, (f a).Looks elems none) (hg : ∀ e, (g e).Looks elems none) :
    (p.elim f g).Looks elems o := by
  induction p generalizing o with
  | ret a => exact hp ▸ hf a
  | raise e => exact hp ▸ hg e
  | stmt u k ih =>
    cases o with
    | none =>
      refine ⟨hp.1, fun s => ?_⟩
      rcases hp.2 s with hk | ⟨x, hx, hk⟩
      · exact .inl (ih s hk)
      · exact .inr ⟨x, hx, ih s hk⟩
    | some x =>
      rcases hp with ⟨hu, hk⟩ | ⟨hu, hk⟩
      · exact .inl ⟨hu, fun s => ih s (hk s)⟩
      · exact .inr ⟨hu, fun s => ih s (hk s)⟩
  | mark m k ih => exact ih hp
  | rollback s₀ k ih => exact ih hp

theorem Looks.bind {f : α → Prog κ σ ε β} (hp : p.Looks elems o)
    (hf : ∀ a, (f a).Looks elems none) : (p >>= f).Looks elems o :=
  hp.elim hf looks_raise

theorem Looks.atomic (hp : p.Looks elems o) : (Prog.atomic p).Looks elems o := by
  have hbody : ∀ s₀, (mark .enter (p.closing s₀) : Prog κ σ ε α).Looks elems o := fun s₀ =>
    hp.elim (fun _ => rfl) fun _ => rfl
  cases o with
  | none => exact ⟨fun _ => .rfl, fun s => .inl (hbody s)⟩
  | some x => exact .inr ⟨fun _ => rfl, hbody⟩

theorem Looks.forEach {δ : Type*} {f : δ → Prog κ σ ε PUnit} (hf : ∀ i, (f i).Looks elems none)
    (l : List δ) : (Prog.forEach l f).Looks elems none := by
  induction l with
  | nil => rfl
  | cons i l ih => exact (hf i).bind fun _ => ih

/-- A query, after which the program may go on to insert what it has missed. -/
theorem looks_select_bind {g : σ → β} {f : β → Prog κ σ ε α}
    (h : ∀ s, (f (g s)).Looks elems none ∨ ∃ x, x ∉ elems s ∧ (f (g s)).Looks elems (some x)) :
    (select g >>= f).Looks elems none :=
  ⟨fun _ => .rfl, h⟩

theorem looks_select (f : σ → α) : (select f : Prog κ σ ε α).Looks elems none :=
  ⟨fun _ => .rfl, fun _ => .inl rfl⟩

theorem looks_lock (r : κ) : (lock r : Prog κ σ ε PUnit).Looks elems none := rfl

/-- A statement that does not touch the collection. -/
theorem looks_modifyGet {u : σ → σ} (hu : ∀ s, elems (u s) = elems s) (f : σ → α) :
    (modifyGet f u : Prog κ σ ε α).Looks elems none :=
  ⟨fun s => .of_eq (hu s), fun _ => .inl rfl⟩

theorem looks_modify {u : σ → σ} (hu : ∀ s, elems (u s) = elems s) :
    (modify u : Prog κ σ ε PUnit).Looks elems none :=
  ⟨fun s => .of_eq (hu s), fun _ => .inl rfl⟩

end Prog

/-! ### Claims -/

/-- The program has missed `x`, and its insertion of `x` has not taken effect: it is
still to come or among the pending changes. -/
def Thread.Claims (elems : σ → List τ) (th : Thread κ σ ε α) (x : τ) : Prop :=
  th.prog.Awaits elems x ∨ ∀ s, x ∈ elems (th.pending s)

/-- No element is claimed by two programs. -/
def Pool.Apart (elems : σ → List τ) (P : Pool ι κ σ ε α) : Prop :=
  ∀ i j x, (P.threads i).Claims elems x → (P.threads j).Claims elems x → i = j

/-- A program that looks before it inserts, is going to insert `o`, has inserted `new` in
its pending changes, and goes back to the insertions `saved` when a block is undone. -/
structure Thread.Inserting (elems : σ → List τ) (th : Thread κ σ ε α) (o : Option τ)
    (new : List τ) (saved : List (List τ)) : Prop where
  looks : th.prog.Looks elems o
  pending : ∀ s, (elems (th.pending s)).Perm (new ++ elems s)
  blocks : List.Forall₂ (fun b l => ∀ s, (elems (b s)).Perm (l ++ elems s)) th.blocks saved
  nested : (new :: saved).Pairwise fun a b => b.Sublist a

theorem Thread.Inserting.claims {elems : σ → List τ} {th : Thread κ σ ε α} {o : Option τ}
    {new : List τ} {saved : List (List τ)} (h : th.Inserting elems o new saved) {x : τ}
    (hx : x ∈ o.toList ++ new) : th.Claims elems x := by
  rcases List.mem_append.mp hx with hx | hx
  · obtain rfl : o = some x := by simpa using hx
    exact .inl h.looks.awaits
  · exact .inr fun s => (h.pending s).mem_iff.mpr (List.mem_append_left _ hx)

namespace Pool

/-- Every program looks before it inserts, and what it claims is not there. -/
def Guarded (elems : σ → List τ) (P : Pool ι κ σ ε α) : Prop :=
  ∀ i, ∃ o new saved, (P.threads i).Inserting elems o new saved ∧
    (o.toList ++ new ++ elems P.store).Nodup

variable {elems : σ → List τ} {P : Pool ι κ σ ε α} {i : ι} {th : Thread κ σ ε α}

theorem guarded_start {s : σ} {progs : ι → Prog κ σ ε α} (hs : (elems s).Nodup)
    (h : ∀ i, (progs i).Looks elems none) : (start s progs).Guarded elems := fun i =>
  ⟨none, [], [], ⟨h i, fun _ => .rfl, .nil, List.pairwise_singleton _ _⟩, hs⟩

theorem Guarded.nodup [Nonempty ι] (h : P.Guarded elems) : (elems P.store).Nodup := by
  obtain ⟨o, new, saved, -, hnodup⟩ := h (Classical.arbitrary ι)
  exact hnodup.of_append_right

variable [DecidableEq ι]

/-- A program goes on; what it has inserted so far it has claimed. -/
theorem Guarded.put (h : P.Guarded elems) (hapart : P.Apart elems) {o : Option τ} (new : List τ)
    {saved : List (List τ)} (hth : th.Inserting elems o new saved)
    (hnodup : (o.toList ++ new ++ elems P.store).Nodup)
    (hclaims : ∀ x ∈ new, (P.threads i).Claims elems x) : (P.put i th).Guarded elems := by
  by_cases hb : th.blocks = []
  · rw [put_of_nil hb]
    have hstore := hth.pending P.store
    intro j
    by_cases hj : j = i
    · subst hj
      refine ⟨o, [], [], ?_, ?_⟩
      · simp only [Function.update_self]
        exact ⟨hth.looks, fun _ => .rfl, .nil, List.pairwise_singleton _ _⟩
      · rw [List.append_nil]
        refine ((hstore.append_left o.toList).nodup_iff).mpr ?_
        rwa [← List.append_assoc]
    · obtain ⟨o', new', saved', hth', hnodup'⟩ := h j
      refine ⟨o', new', saved', ?_, ?_⟩
      · simpa only [Function.update_of_ne hj] using hth'
      · refine ((hstore.append_left _).nodup_iff).mpr ?_
        -- the claims of the two programs are apart
        have hdisj : List.Disjoint (o'.toList ++ new') new := by
          intro x hx hnew
          exact hj (hapart j i x (hth'.claims hx) (hclaims x hnew))
        have hnew : (new ++ elems P.store).Nodup :=
          (List.append_assoc .. ▸ hnodup).of_append_right
        refine List.Nodup.append hnodup'.of_append_left hnew ?_
        exact List.disjoint_append_right.mpr ⟨hdisj, List.disjoint_of_nodup_append hnodup'⟩
  · rw [put_of_ne_nil hb]
    intro j
    by_cases hj : j = i
    · subst hj
      exact ⟨o, new, saved, by simpa only [Function.update_self] using hth, hnodup⟩
    · obtain ⟨o', new', saved', hth', hnodup'⟩ := h j
      exact ⟨o', new', saved', by simpa only [Function.update_of_ne hj] using hth', hnodup'⟩

variable [Fintype ι] [DecidableEq κ]

/-- Every move keeps the guard. -/
theorem Guarded.step (h : P.Guarded elems) (hapart : P.Apart elems) (i : ι) :
    (P.step i).Guarded elems := by
  obtain ⟨o, new, saved, hth, hnodup⟩ := h i
  have hclaims : ∀ x ∈ o.toList ++ new, (P.threads i).Claims elems x := fun x hx => hth.claims hx
  have hnew : ∀ x ∈ new, (P.threads i).Claims elems x := fun x hx =>
    hclaims x (List.mem_append_right _ hx)
  rcases hi : P.threads i with ⟨prog, pending, blocks, held⟩
  rw [hi] at hth
  obtain ⟨hlooks, hpending, hblocks, hnested⟩ := hth
  cases prog with
  | ret a =>
    rw [Pool.step, hi]
    exact h
  | raise e =>
    rw [Pool.step, hi]
    exact h
  | stmt u k =>
    rw [Pool.step, hi]
    have hview := hpending P.store
    cases o with
    | none =>
      -- nothing claimed: the statement keeps the elements and may claim one it does not see
      have hkeep : ∀ s, (elems (u (pending s))).Perm (new ++ elems s) := fun s =>
        (hlooks.1 _).trans (hpending s)
      rcases hlooks.2 (pending P.store) with hk | ⟨x, hx, hk⟩
      · exact h.put hapart new ⟨hk, hkeep, hblocks, hnested⟩ hnodup hnew
      · refine h.put hapart new ⟨hk, hkeep, hblocks, hnested⟩ ?_ hnew
        rw [hview.mem_iff] at hx
        exact List.nodup_cons.mpr ⟨hx, hnodup⟩
    | some x =>
      rcases hlooks with ⟨hu, hk⟩ | ⟨hu, hk⟩
      · -- the insertion that was claimed
        refine h.put hapart (o := none) (x :: new) ⟨hk _, fun s => ?_, hblocks, ?_⟩ hnodup
          hclaims
        · exact (hu _).trans ((hpending s).cons x)
        · rw [List.pairwise_cons] at hnested ⊢
          exact ⟨fun l hl => (hnested.1 l hl).trans (List.sublist_cons_self x new), hnested.2⟩
      · refine h.put hapart new ⟨hk _, fun s => ?_, hblocks, hnested⟩ hnodup hnew
        exact (List.Perm.of_eq (congrArg elems (hu (pending s)))).trans (hpending s)
  | mark m k =>
    cases m with
    | enter =>
      rw [Pool.step, hi]
      refine h.put hapart new ⟨hlooks, hpending, .cons hpending hblocks, ?_⟩
        hnodup hnew
      rw [List.pairwise_cons] at hnested ⊢
      -- the block keeps what was new when it was entered
      refine ⟨fun l hl => ?_, List.pairwise_cons.mpr hnested⟩
      rcases List.mem_cons.mp hl with rfl | hl
      · exact .refl _
      · exact hnested.1 l hl
    | leave =>
      rw [Pool.step, hi]
      cases hblocks with
      | nil => exact h.put hapart new ⟨hlooks, hpending, .nil, hnested⟩ hnodup hnew
      | cons hb hbs =>
        refine h.put hapart new ⟨hlooks, hpending, hbs, ?_⟩ hnodup hnew
        rw [List.pairwise_cons, List.pairwise_cons] at hnested
        exact List.pairwise_cons.mpr ⟨fun l hl => hnested.1 l (List.mem_cons_of_mem _ hl),
          hnested.2.2⟩
    | lock r =>
      rw [Pool.step, hi]
      dsimp only
      split
      · exact h.put hapart new ⟨hlooks, hpending, hblocks, hnested⟩ hnodup hnew
      · exact h
  | rollback s₀ k =>
    rw [Pool.step, hi]
    cases hblocks with
    | nil =>
      have hnil : (o.toList ++ [] ++ elems P.store).Nodup :=
        hnodup.sublist
          (List.Sublist.append_right (List.Sublist.append_left (List.nil_sublist _) _) _)
      exact h.put hapart [] ⟨hlooks, fun _ => .rfl, .nil, List.pairwise_singleton _ _⟩
        hnil fun _ hx => absurd hx List.not_mem_nil
    | @cons b l bs ls hb hbs =>
      rw [List.pairwise_cons] at hnested
      -- what goes back to the start of the block gives up what was new since
      have hsub : l.Sublist new := hnested.1 l List.mem_cons_self
      refine h.put hapart l ⟨hlooks, hb, .cons hb hbs, ?_⟩ ?_
        fun x hx => hnew x (hsub.subset hx)
      · refine List.pairwise_cons.mpr ⟨fun l' hl' => ?_, hnested.2⟩
        rcases List.mem_cons.mp hl' with rfl | hl'
        · exact .refl _
        · exact (List.pairwise_cons.mp hnested.2).1 l' hl'
      · exact hnodup.sublist (List.Sublist.append_right (List.Sublist.append_left hsub _) _)

/-- As long as no element is claimed twice there are no duplicates. -/
theorem nodup_exec (hP : P.Guarded elems) (schedule : List ι)
    (hapart : ∀ l, l <+: schedule → (P.exec l).Apart elems) :
    (P.exec schedule).Guarded elems := by
  induction schedule generalizing P with
  | nil => exact hP
  | cons i schedule ih =>
    have hnow : P.Apart elems := hapart [] (List.nil_prefix)
    refine ih (hP.step hnow i) fun l hl => ?_
    exact hapart (i :: l) (List.cons_prefix_cons.mpr ⟨rfl, hl⟩)

end Pool

end Process
