import Mathlib.Data.Set.Insert
import Mathlib.Logic.Relation

/-!
# Delivery until there is a receipt

Senders keep what they have to deliver in an outbox and try again until they are told that there
is a receipt. Attempts may get lost, overlap or be made twice, and an answer may never arrive. A
receipt is given for what has been accepted into an outbox, and a sender removes only what it has
been told of. So nothing is lost: what was accepted is in its outbox or has a receipt.

## Main definitions

* `Post` — the outboxes, the receipts and what the senders have been told
* `Post.Move` — what may happen
* `Post.Safe` — the invariant

## Main results

* `Post.Safe.move`, `Post.Safe.run` — the rule for one move and for any number of them
* `Post.Safe.receipt_of_notMem` — what was accepted and is no longer in its outbox has a receipt
-/

namespace Process

variable {δ κ : Type*}

/-- The outboxes of the senders `δ`, whose entries have the keys `κ`. -/
structure Post (δ κ : Type*) where
  /-- what has ever been put into an outbox -/
  accepted : Set (δ × κ)
  outbox : Set (δ × κ)
  receipts : Set κ
  /-- the receipts that a sender has been told of -/
  told : Set (δ × κ)

namespace Post

/-- What may happen: an entry under a new key is accepted, an accepted one gets its receipt, a
sender is told of receipts or forgets about them, and it removes what it has been told of. -/
inductive Move (P : Post δ κ) : Post δ κ → Prop
  | accept (d : δ) (k : κ) (fresh : ∀ e, (e, k) ∉ P.accepted) (unused : k ∉ P.receipts) :
      Move P { P with accepted := insert (d, k) P.accepted, outbox := insert (d, k) P.outbox }
  | receive (d : δ) (k : κ) (known : (d, k) ∈ P.accepted) :
      Move P { P with receipts := insert k P.receipts }
  | tell (news : Set (δ × κ)) (true_ : ∀ p ∈ news, p.2 ∈ P.receipts) :
      Move P { P with told := P.told ∪ news }
  | forget (rest : Set (δ × κ)) (sub : rest ⊆ P.told) : Move P { P with told := rest }
  | remove (d : δ) (k : κ) (told : (d, k) ∈ P.told) :
      Move P { P with outbox := P.outbox \ {(d, k)} }

/-- Nothing is lost, nobody is told a lie, and there are no receipts but for what was accepted,
beside those in `before`. -/
structure Safe (before : Set κ) (P : Post δ κ) : Prop where
  kept : ∀ d k, (d, k) ∈ P.accepted → (d, k) ∈ P.outbox ∨ k ∈ P.receipts
  outbox : P.outbox ⊆ P.accepted
  told : ∀ d k, (d, k) ∈ P.told → k ∈ P.receipts
  receipts : ∀ k ∈ P.receipts, k ∈ before ∨ ∃ d, (d, k) ∈ P.accepted
  /-- an entry belongs to one sender -/
  owner : ∀ d e k, (d, k) ∈ P.accepted → (e, k) ∈ P.accepted → d = e
  before : before ⊆ P.receipts

variable {before : Set κ} {P Q : Post δ κ}

/-- Before anything is accepted there are no more receipts than before. -/
theorem safe_start (before : Set κ) : (⟨∅, ∅, before, ∅⟩ : Post δ κ).Safe before where
  kept _ _ h := absurd h (Set.notMem_empty _)
  outbox := Set.Subset.rfl
  told _ _ h := absurd h (Set.notMem_empty _)
  receipts _ h := .inl h
  owner _ _ _ h := absurd h (Set.notMem_empty _)
  before := Set.Subset.rfl

theorem Safe.accept (h : P.Safe before) {d : δ} {k : κ} (fresh : ∀ e, (e, k) ∉ P.accepted) :
    Safe before
      { P with accepted := insert (d, k) P.accepted, outbox := insert (d, k) P.outbox } where
  kept e l hel := by
    rcases Set.mem_insert_iff.mp hel with heq | hel
    · exact .inl (Set.mem_insert_iff.mpr (.inl heq))
    · exact (h.kept e l hel).imp_left (Set.mem_insert_of_mem _)
  outbox := Set.insert_subset_insert h.outbox
  told := h.told
  receipts l hl := (h.receipts l hl).imp_right fun ⟨e, he⟩ => ⟨e, Set.mem_insert_of_mem _ he⟩
  owner e f l he hf := by
    -- nobody had an entry under the new key
    rcases Set.mem_insert_iff.mp he with heq | he <;> rcases Set.mem_insert_iff.mp hf with hfq | hf
    · exact (congrArg Prod.fst heq).trans (congrArg Prod.fst hfq).symm
    · cases heq
      exact absurd hf (fresh f)
    · cases hfq
      exact absurd he (fresh e)
    · exact h.owner e f l he hf
  before := h.before

theorem Safe.receive (h : P.Safe before) {d : δ} {k : κ} (known : (d, k) ∈ P.accepted) :
    Safe before { P with receipts := insert k P.receipts } where
  kept e l hel := (h.kept e l hel).imp_right (Set.mem_insert_of_mem k)
  outbox := h.outbox
  told e l hel := Set.mem_insert_of_mem k (h.told e l hel)
  receipts l hl := by
    rcases Set.mem_insert_iff.mp hl with rfl | hl
    · exact .inr ⟨d, known⟩
    · exact h.receipts l hl
  owner := h.owner
  before := h.before.trans (Set.subset_insert k _)

/-- Only what has a receipt is removed. -/
theorem Safe.remove (h : P.Safe before) {d : δ} {k : κ} (told : (d, k) ∈ P.told) :
    Safe before { P with outbox := P.outbox \ {(d, k)} } where
  kept e l hel := by
    rcases h.kept e l hel with hout | hreceipt
    · by_cases heq : (e, l) = (d, k)
      · cases heq
        exact .inr (h.told d k told)
      · exact .inl ⟨hout, heq⟩
    · exact .inr hreceipt
  outbox _ hp := h.outbox hp.1
  told := h.told
  receipts := h.receipts
  owner := h.owner
  before := h.before

/-- Every move keeps the invariant. -/
theorem Safe.move (h : P.Safe before) (hmove : P.Move Q) : Q.Safe before := by
  cases hmove with
  | accept d k fresh unused => exact h.accept fresh
  | receive d k known => exact h.receive known
  | tell news hnews =>
    refine ⟨h.kept, h.outbox, fun d k hdk => ?_, h.receipts, h.owner, h.before⟩
    exact hdk.elim (h.told d k) (hnews (d, k))
  | forget rest hrest =>
    exact ⟨h.kept, h.outbox, fun d k hdk => h.told d k (hrest hdk), h.receipts, h.owner, h.before⟩
  | remove d k told => exact h.remove told

/-- Any number of moves keep the invariant. -/
theorem Safe.run (h : P.Safe before) (hrun : Relation.ReflTransGen Move P Q) : Q.Safe before := by
  induction hrun with
  | refl => exact h
  | tail _ hmove ih => exact ih.move hmove

/-- What is no longer in its outbox has a receipt. -/
theorem Safe.receipt_of_notMem (h : P.Safe before) {d : δ} {k : κ} (hacc : (d, k) ∈ P.accepted)
    (hout : (d, k) ∉ P.outbox) : k ∈ P.receipts :=
  (h.kept d k hacc).resolve_left hout

end Post

end Process
