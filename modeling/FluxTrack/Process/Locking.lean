import FluxTrack.Process.Pool
import Mathlib.Data.Set.Basic

/-!
# Facts under locks

What a program in a pool may rely on about the store the others see. A fact with a
lock is made false only by a program that holds the lock, and a fact without one is
never made false; so a program that finds a fact while it holds the lock knows it
until it gives the lock back, and a program that only commits changes of this kind
does not disturb the others.

## Main definitions

* `Process.Facts` — facts with their locks; `Facts.Kept` is what a commit must respect
* `Process.View` — what a program in progress has pending, holds and knows
* `Prog.Guards` — every commit of the program keeps the invariant and the facts of others

## Main results

* `Guards.elim`, `Guards.bind`, `guards_select_bind`, `guards_modify_bind`,
  `guards_lock_bind`, `Guards.atomic`, `Guards.block` — the rules
* `Pool.Sound.exec` — in a pool of such programs the invariant holds along every schedule
-/

namespace Process

universe u v w

variable {ι : Type v} {φ : Type w} {κ σ ε α β : Type u}

/-- Facts about a store, each with the lock under which it may be made false, if any. -/
structure Facts (φ : Type w) (κ σ : Type u) where
  Holds : φ → σ → Prop
  lock : φ → Option κ

/-- A change made under the locks `held` makes no fact false that has another lock or none. -/
def Facts.Kept (F : Facts φ κ σ) (held : List κ) (s t : σ) : Prop :=
  ∀ f, F.Holds f s → (∀ r ∈ F.lock f, r ∉ held) → F.Holds f t

/-- The facts that hold and that only a program with one of the locks could make false. -/
def Facts.sure (F : Facts φ κ σ) (held : List κ) (s : σ) : Set φ :=
  {f | F.Holds f s ∧ ∀ r ∈ F.lock f, r ∈ held}

/-- What a program in progress has pending, the blocks it is in, the locks it holds and the
facts it has found. -/
structure View (φ : Type w) (κ σ : Type u) where
  pending : σ → σ
  blocks : List (σ → σ)
  held : List κ
  found : Set φ

namespace View

/-- A program outside every block. -/
def outside : View φ κ σ := ⟨id, [], [], ∅⟩

/-- A program that has entered its outermost block. -/
def entered : View φ κ σ := ⟨id, [id], [], ∅⟩

variable (I : σ → Prop) (F : Facts φ κ σ)

/-- A store that the program may see committed. -/
def Finds (v : View φ κ σ) (s : σ) : Prop := I s ∧ ∀ f ∈ v.found, F.Holds f s

/-- The pending changes may take effect. -/
def Commits (v : View φ κ σ) : Prop :=
  ∀ s, v.Finds I F s → I (v.pending s) ∧ F.Kept v.held s (v.pending s)

/-- The program goes on with `X`; outside every block its changes take effect first. -/
def Goes (v : View φ κ σ) (X : View φ κ σ → Prop) : Prop :=
  match v.blocks with
  | [] => v.Commits I F ∧ X outside
  | _ :: _ => X v

/-- The program has made the change `t` and has found what holds in `s` under its locks. -/
def after (v : View φ κ σ) (s : σ) (t : σ → σ) : View φ κ σ :=
  ⟨fun s => t (v.pending s), v.blocks, v.held, F.sure v.held s⟩

/-- The program is inside the blocks `b`; it has a change of the kind `R` pending, holds the
locks `L`, and has found the facts `K` under its locks. -/
structure Inside (b : List (σ → σ)) (R : σ → σ → Prop) (L : List κ) (K : Set φ)
    (v : View φ κ σ) : Prop where
  blocks : v.blocks = b
  pending : ∀ s, R s (v.pending s)
  held : ∀ r ∈ L, r ∈ v.held
  found : ∀ f ∈ K, f ∈ v.found ∧ ∀ r ∈ F.lock f, r ∈ v.held

variable {I F} {v : View φ κ σ} {X Y : View φ κ σ → Prop} {s : σ} {t : σ → σ} {f : φ}

theorem Goes.mono (h : v.Goes I F X) (hXY : ∀ v, X v → Y v) : v.Goes I F Y := by
  unfold Goes at h ⊢
  split at h
  · exact ⟨h.1, hXY _ h.2⟩
  · exact hXY _ h

theorem goes_of_ne_nil (hv : v.blocks ≠ []) : v.Goes I F X ↔ X v := by
  unfold Goes
  split
  · contradiction
  · rfl

theorem goes_of_nil (hv : v.blocks = []) : v.Goes I F X ↔ v.Commits I F ∧ X outside := by
  rw [Goes, hv]

section Inside

variable {b b' : List (σ → σ)} {R S : σ → σ → Prop} {L : List κ} {K : Set φ}

/-- A statement adds to what is pending and to what has been found. -/
theorem Inside.after (h : v.Inside F b R L K) (hs : v.Finds I F s)
    (ht : ∀ s s', R s s' → S s (t s')) :
    (v.after F s t).Inside F b S L (K ∪ F.sure L s) where
  blocks := h.blocks
  pending s := ht s _ (h.pending s)
  held := h.held
  found f hf := by
    have hsure : F.Holds f s ∧ ∀ r ∈ F.lock f, r ∈ v.held := by
      rcases hf with hf | hf
      · exact ⟨hs.2 f (h.found f hf).1, (h.found f hf).2⟩
      · exact ⟨hf.1, fun r hr => h.held r (hf.2 r hr)⟩
    exact ⟨hsure, hsure.2⟩

theorem Inside.lock (h : v.Inside F b R L K) (r : κ) :
    View.Inside F b R (r :: L) K { v with held := r :: v.held } where
  blocks := h.blocks
  pending := h.pending
  held r' hr' := by
    rcases List.mem_cons.mp hr' with rfl | hr'
    · exact List.mem_cons_self
    · exact List.mem_cons_of_mem r (h.held r' hr')
  found f hf := ⟨(h.found f hf).1, fun r' hr' => List.mem_cons_of_mem r ((h.found f hf).2 r' hr')⟩

theorem Inside.mono {K' : Set φ} (h : v.Inside F b R L K) (hK : K' ⊆ K) :
    v.Inside F b R L K' :=
  ⟨h.blocks, h.pending, h.held, fun f hf => h.found f (hK hf)⟩

theorem Inside.withBlocks (h : v.Inside F b R L K) (b' : List (σ → σ)) :
    View.Inside F b' R L K { v with blocks := b' } :=
  ⟨rfl, h.pending, h.held, h.found⟩

theorem entered_inside (hR : ∀ s, R s s) :
    (entered : View φ κ σ).Inside F [id] R [] ∅ :=
  ⟨rfl, hR, fun _ hr => absurd hr List.not_mem_nil, fun _ hf => hf.elim⟩

end Inside

/-- Where nothing is pending, a commit changes nothing. -/
theorem commits_of_id (hv : v.pending = id) : v.Commits I F := by
  intro s hs
  rw [hv]
  exact ⟨hs.1, fun _ hf _ => hf⟩

end View

/-! ### Sound programs -/

namespace Prog

variable (I : σ → Prop) (F : Facts φ κ σ)

/-- Whatever the others commit in between, every commit of the program keeps the invariant and
the facts of others; `Q` and `E` speak of the view at a result and at an exception. -/
def Guards (Q : View φ κ σ → α → Prop) (E : View φ κ σ → ε → Prop) :
    Prog κ σ ε α → View φ κ σ → Prop
  | ret a, v => Q v a
  | raise e, v => E v e
  | stmt t k, v => ∀ s, v.Finds I F s →
    (v.after F s t).Goes I F fun v' => Guards Q E (k (v.pending s)) v'
  | mark .enter k, v => Guards Q E k { v with blocks := v.pending :: v.blocks }
  | mark .leave k, v => View.Goes I F { v with blocks := v.blocks.tail } fun v' => Guards Q E k v'
  | mark (.lock r) k, v => View.Goes I F { v with held := r :: v.held } fun v' => Guards Q E k v'
  | rollback _ k, v =>
    View.Goes I F { v with pending := v.blocks.headD id } fun v' => Guards Q E k v'

variable {I F} {Q : View φ κ σ → α → Prop} {Q' : View φ κ σ → β → Prop}
  {E E' : View φ κ σ → ε → Prop} {p : Prog κ σ ε α} {v : View φ κ σ}

/-- The rule for a continued program. -/
theorem Guards.elim {f : α → Prog κ σ ε β} {g : ε → Prog κ σ ε β} (hp : p.Guards I F Q E v)
    (hf : ∀ a v', Q v' a → (f a).Guards I F Q' E' v')
    (hg : ∀ e v', E v' e → (g e).Guards I F Q' E' v') : (p.elim f g).Guards I F Q' E' v := by
  induction p generalizing v with
  | ret a => exact hf a v hp
  | raise e => exact hg e v hp
  | stmt t k ih => exact fun s hs => (hp s hs).mono fun v' h => ih (v.pending s) h
  | mark m k ih =>
    cases m with
    | enter => exact ih hp
    | leave => exact View.Goes.mono hp fun v' h => ih h
    | lock r => exact View.Goes.mono hp fun v' h => ih h
  | rollback s₀ k ih => exact View.Goes.mono hp fun v' h => ih h

theorem Guards.bind {f : α → Prog κ σ ε β} (hp : p.Guards I F Q E v)
    (hf : ∀ a v', Q v' a → (f a).Guards I F Q' E v') : (p >>= f).Guards I F Q' E v :=
  hp.elim hf fun _ _ he => he

theorem Guards.mono {Q₂ : View φ κ σ → α → Prop} (hp : p.Guards I F Q E v)
    (hQ : ∀ a v', Q v' a → Q₂ v' a) : p.Guards I F Q₂ E v := by
  rw [← elim_ret_raise p]
  exact hp.elim (fun a v' h => hQ a v' h) fun _ _ he => he

/-! ### Inside a block -/

section Inside

variable {x : σ → σ} {bs : List (σ → σ)} {R S : σ → σ → Prop} {L : List κ} {K : Set φ}

/-- A program inside the blocks `b` raises. -/
abbrev Raised (b : List (σ → σ)) (v : View φ κ σ) (_ : ε) : Prop := v.blocks = b

/-- The rule for a statement inside a block. -/
theorem guards_stmt {t : σ → σ} {k : σ → Prog κ σ ε α} (h : v.Inside F (x :: bs) R L K)
    (ht : ∀ s s', R s s' → S s (t s'))
    (hk : ∀ s s' v', I s → (∀ f ∈ K, F.Holds f s) → R s s' →
      v'.Inside F (x :: bs) S L (K ∪ F.sure L s) → (k s').Guards I F Q E v') :
    (stmt t k).Guards I F Q E v := by
  intro s hs
  refine (View.goes_of_ne_nil (v := v.after F s t) ?_).mpr ?_
  · rw [show (v.after F s t).blocks = x :: bs from h.blocks]
    exact List.cons_ne_nil x bs
  · exact hk s _ _ hs.1 (fun f hf => hs.2 f (h.found f hf).1) (h.pending s) (h.after hs ht)

theorem guards_select_bind {γ : Type u} {g : σ → γ} {f : γ → Prog κ σ ε α}
    (h : v.Inside F (x :: bs) R L K)
    (hf : ∀ s s' v', I s → (∀ f ∈ K, F.Holds f s) → R s s' →
      v'.Inside F (x :: bs) R L (K ∪ F.sure L s) → (f (g s')).Guards I F Q E v') :
    (select g >>= f).Guards I F Q E v :=
  guards_stmt h (fun _ _ hR => hR) hf

theorem guards_modify_bind {t : σ → σ} {f : PUnit → Prog κ σ ε α}
    (h : v.Inside F (x :: bs) R L K) (ht : ∀ s s', R s s' → S s (t s'))
    (hf : ∀ s v', v'.Inside F (x :: bs) S L (K ∪ F.sure L s) → (f ⟨⟩).Guards I F Q E v') :
    (modify t >>= f).Guards I F Q E v :=
  guards_stmt h ht fun s _ v' _ _ _ hv' => hf s v' hv'

theorem guards_lock_bind {r : κ} {f : PUnit → Prog κ σ ε α} (h : v.Inside F (x :: bs) R L K)
    (hf : ∀ v', v'.Inside F (x :: bs) R (r :: L) K → (f ⟨⟩).Guards I F Q E v') :
    (lock r >>= f).Guards I F Q E v := by
  refine (View.goes_of_ne_nil (v := { v with held := r :: v.held }) ?_).mpr ?_
  · rw [show View.blocks { v with held := r :: v.held } = x :: bs from h.blocks]
    exact List.cons_ne_nil x bs
  · exact hf _ (h.lock r)

/-- The rule for a block inside another. -/
theorem Guards.atomic (h : v.Inside F (x :: bs) R L K)
    (hp : ∀ y v', v'.Inside F (y :: x :: bs) R L K → p.Guards I F
      (fun v' a => v'.blocks = y :: x :: bs ∧ Q { v' with blocks := x :: bs } a)
      (Raised (y :: x :: bs)) v') :
    (Prog.atomic p).Guards I F Q (Raised (x :: bs)) v := by
  refine guards_stmt h (S := R) (fun _ _ hR => hR) fun s s' v' _ _ _ hv' => ?_
  have hentered := hp v'.pending { v' with blocks := v'.pending :: x :: bs }
    ⟨rfl, hv'.pending, hv'.held, fun f hf => hv'.found f (.inl hf)⟩
  change (p.elim _ _).Guards I F Q _ { v' with blocks := v'.pending :: v'.blocks }
  rw [hv'.blocks]
  refine hentered.elim (fun a w hw => ?_) fun e w hw => ?_
  · obtain ⟨pending, blocks, held, found⟩ := w
    obtain ⟨rfl, hQ⟩ := hw
    exact hQ
  · obtain ⟨pending, blocks, held, found⟩ := w
    obtain rfl : blocks = v'.pending :: x :: bs := hw
    exact (rfl : x :: bs = x :: bs)

end Inside

/-! ### Outside every block -/

/-- The program starts and ends outside every block. -/
abbrev Free (I : σ → Prop) (F : Facts φ κ σ) (p : Prog κ σ ε α) : Prop :=
  p.Guards I F (fun v _ => v = .outside) (fun v _ => v = .outside) .outside

theorem Free.bind {f : α → Prog κ σ ε β} (hp : p.Free I F) (hf : ∀ a, (f a).Free I F) :
    (p >>= f).Free I F :=
  Guards.bind hp fun a v' hv' => by
    subst hv'
    exact hf a

theorem free_pure (a : α) : (pure a : Prog κ σ ε α).Free I F := rfl

theorem free_raise (e : ε) : (raise e : Prog κ σ ε α).Free I F := rfl

theorem free_stmt {t : σ → σ} {k : σ → Prog κ σ ε α}
    (ht : ∀ s, I s → I (t s) ∧ F.Kept [] s (t s)) (hk : ∀ s, (k s).Free I F) :
    (stmt t k).Free I F :=
  fun s _ => ⟨fun s' hs' => ht s' hs'.1, hk s⟩

theorem free_select (g : σ → α) : (select g : Prog κ σ ε α).Free I F :=
  free_stmt (fun _ hs => ⟨hs, fun _ hf _ => hf⟩) fun _ => rfl

theorem free_modify {t : σ → σ} (ht : ∀ s, I s → I (t s) ∧ F.Kept [] s (t s)) :
    (modify t : Prog κ σ ε PUnit).Free I F :=
  free_stmt ht fun _ => rfl

theorem free_modifyGet {g : σ → α} {t : σ → σ} (ht : ∀ s, I s → I (t s) ∧ F.Kept [] s (t s)) :
    (modifyGet g t : Prog κ σ ε α).Free I F :=
  free_stmt ht fun _ => rfl

/-- The rule for an outermost block: at a result its changes may take effect. -/
theorem Guards.block (hp : p.Guards I F (fun v _ => v.blocks = [id] ∧ v.Commits I F)
    (Raised [id]) .entered) : (Prog.atomic p).Free I F := by
  refine fun s _ => ⟨View.commits_of_id rfl, hp.elim (fun a v' h => ?_) fun e v' hblocks => ?_⟩
  · obtain ⟨pending, blocks, held, found⟩ := v'
    obtain ⟨rfl, hcommits⟩ := h
    exact ⟨hcommits, rfl⟩
  · obtain ⟨pending, blocks, held, found⟩ := v'
    obtain rfl : blocks = [id] := hblocks
    exact ⟨View.commits_of_id rfl, rfl⟩

end Prog

/-! ### Pools of guarded programs -/

namespace Pool

variable (I : σ → Prop) (F : Facts φ κ σ)

/-- The invariant holds of the store, no two programs hold the same lock, and every program is
guarded in view of the facts it has found, which still hold. -/
structure Sound (P : Pool ι κ σ ε α) : Prop where
  store : I P.store
  alone : ∀ i j, i ≠ j → ∀ r ∈ (P.threads i).held, r ∉ (P.threads j).held
  thread : ∀ i, ∃ found : Set φ, (∀ f ∈ found, F.Holds f P.store ∧
      ∀ r ∈ F.lock f, r ∈ (P.threads i).held) ∧
    (P.threads i).prog.Guards I F (fun _ _ => True) (fun _ _ => True)
      ⟨(P.threads i).pending, (P.threads i).blocks, (P.threads i).held, found⟩

variable {I F} {P : Pool ι κ σ ε α} {i : ι}

theorem sound_start {s : σ} {progs : ι → Prog κ σ ε α} (hs : I s)
    (hprogs : ∀ i, (progs i).Free I F) : Sound I F (Pool.start s progs) where
  store := hs
  alone _ _ _ _ hr := absurd hr List.not_mem_nil
  thread i := by
    refine ⟨∅, fun _ hf => hf.elim, ?_⟩
    rw [← Prog.elim_ret_raise ((Pool.start s progs).threads i).prog]
    exact (hprogs i).elim (fun _ _ _ => trivial) fun _ _ _ => trivial

variable [DecidableEq ι]

/-- A program goes on. Outside every block its changes take effect, and they break no fact
another program has found, since that one holds the lock of the fact. -/
theorem Sound.put (h : Sound I F P) {th : Thread κ σ ε α} {found : Set φ}
    (hfound : ∀ f ∈ found, F.Holds f P.store ∧ ∀ r ∈ F.lock f, r ∈ th.held)
    (halone : ∀ j, j ≠ i → ∀ r ∈ th.held, r ∉ (P.threads j).held)
    (hgoes : View.Goes I F ⟨th.pending, th.blocks, th.held, found⟩
      fun v => th.prog.Guards I F (fun _ _ => True) (fun _ _ => True) v) :
    Sound I F (P.put i th) := by
  by_cases hb : th.blocks = []
  · -- outside every block the writes reach the store and the locks are given back
    obtain ⟨hcommits, hguards⟩ := (View.goes_of_nil
      (v := ⟨th.pending, th.blocks, th.held, found⟩) hb).mp hgoes
    obtain ⟨hstore, hkept⟩ := hcommits P.store ⟨h.store, fun f hf => (hfound f hf).1⟩
    rw [put_of_nil hb]
    refine ⟨hstore, fun j k hjk r hr => ?_, fun j => ?_⟩
    · by_cases hj : j = i
      · subst hj
        simp [Thread.start] at hr
      · by_cases hk : k = i
        · subst hk
          simp [Thread.start]
        · simp only [Function.update_of_ne hj] at hr
          simp only [Function.update_of_ne hk]
          exact h.alone j k hjk r hr
    · by_cases hj : j = i
      · subst hj
        simp only [Function.update_self]
        exact ⟨∅, fun _ hf => hf.elim, hguards⟩
      · simp only [Function.update_of_ne hj]
        obtain ⟨found', hfound', hguards'⟩ := h.thread j
        refine ⟨found', fun f hf => ⟨?_, (hfound' f hf).2⟩, hguards'⟩
        obtain ⟨hholds, hlock⟩ := hfound' f hf
        exact hkept f hholds fun r hr hheld => halone j hj r hheld (hlock r hr)
  · -- inside a block only the program itself sees its writes
    have hguards := (View.goes_of_ne_nil
      (v := ⟨th.pending, th.blocks, th.held, found⟩) hb).mp hgoes
    rw [put_of_ne_nil hb]
    refine ⟨h.store, fun j k hjk r hr => ?_, fun j => ?_⟩
    · by_cases hj : j = i
      · subst hj
        simp only [Function.update_self] at hr
        simp only [Function.update_of_ne hjk.symm]
        exact halone k hjk.symm r hr
      · simp only [Function.update_of_ne hj] at hr
        by_cases hk : k = i
        · subst hk
          simp only [Function.update_self]
          exact fun hr' => halone j hj r hr' hr
        · simp only [Function.update_of_ne hk]
          exact h.alone j k hjk r hr
    · by_cases hj : j = i
      · subst hj
        simp only [Function.update_self]
        exact ⟨found, hfound, hguards⟩
      · simp only [Function.update_of_ne hj]
        exact h.thread j

variable [Fintype ι] [DecidableEq κ]

/-- Every move keeps a pool sound. -/
theorem Sound.step (h : Sound I F P) (i : ι) : Sound I F (P.step i) := by
  obtain ⟨th, hth⟩ : ∃ th, P.threads i = th := ⟨_, rfl⟩
  obtain ⟨found, hfound, hguards⟩ := h.thread i
  have halone : ∀ j, j ≠ i → ∀ r ∈ th.held, r ∉ (P.threads j).held := fun j hj r hr =>
    h.alone i j hj.symm r (by rwa [hth])
  rw [hth] at hfound hguards
  obtain ⟨p, pending, blocks, held⟩ := th
  cases p with
  | ret a =>
    have hstep : P.step i = P := by
      rw [Pool.step, hth]
    rw [hstep]
    exact h
  | raise e =>
    have hstep : P.step i = P := by
      rw [Pool.step, hth]
    rw [hstep]
    exact h
  | stmt t k =>
    have hstep : P.step i =
        P.put i ⟨k (pending P.store), fun s => t (pending s), blocks, held⟩ := by
      rw [Pool.step, hth]
    rw [hstep]
    -- the facts it may have found are those of the store it reads
    exact h.put (fun _ hf => hf) halone
      (hguards P.store ⟨h.store, fun f hf => (hfound f hf).1⟩)
  | mark m k =>
    cases m with
    | enter =>
      have hstep : P.step i = P.put i ⟨k, pending, pending :: blocks, held⟩ := by
        rw [Pool.step, hth]
      rw [hstep]
      exact h.put hfound halone hguards
    | leave =>
      have hstep : P.step i = P.put i ⟨k, pending, blocks.tail, held⟩ := by
        rw [Pool.step, hth]
      rw [hstep]
      exact h.put hfound halone hguards
    | lock r =>
      by_cases hfree : P.Free i r
      · have hstep : P.step i = P.put i ⟨k, pending, blocks, r :: held⟩ := by
          rw [Pool.step, hth]
          exact if_pos hfree
        rw [hstep]
        -- a free lock is held by nobody else
        refine h.put (fun f hf => ⟨(hfound f hf).1, fun r' hr' =>
          List.mem_cons_of_mem r ((hfound f hf).2 r' hr')⟩) (fun j hj r' hr' => ?_) hguards
        rcases List.mem_cons.mp hr' with rfl | hr'
        · exact hfree j hj
        · exact halone j hj r' hr'
      · have hstep : P.step i = P := by
          rw [Pool.step, hth]
          exact if_neg hfree
        rw [hstep]
        exact h
  | rollback s₀ k =>
    have hstep : P.step i = P.put i ⟨k, blocks.headD id, blocks, held⟩ := by
      rw [Pool.step, hth]
    rw [hstep]
    exact h.put hfound halone hguards

/-- The rule for guarded programs: the invariant holds of every store that a schedule reaches. -/
theorem Sound.exec (h : Sound I F P) (schedule : List ι) : I (P.exec schedule).store := by
  induction schedule generalizing P with
  | nil => exact h.store
  | cons i schedule ih => exact ih (h.step i)

end Pool

end Process
