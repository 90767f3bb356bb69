import Mathlib.Data.List.Nodup
import Mathlib.Data.List.Pairwise
import Mathlib.Data.List.Perm.Basic
import Mathlib.Data.Set.Basic
import Mathlib.Tactic.Common

/-!
# Greedy clusters

A list is walked from the front. An entry that is not in a cluster yet heads a new one, of
itself and of everything in the list it is related to. Nothing keeps an entry from being taken
into a second cluster, so that the clusters make up the list once only if no entry is related
to two heads.

## Main definitions

* `cluster`, `gather` — the cluster of a head, and the walk
* `heads` — the entries that head a cluster
* `Headed` — a choice of heads by which every other entry has exactly one head, ahead of it

## Main results

* `gather_eq` — the walk makes the clusters of the heads
* `exists_mem_cluster` — every entry is in a cluster
* `pairwise_disjoint_iff_headed` — the clusters are disjoint exactly if the list can be headed
* `flatten_perm_of_disjoint` — disjoint clusters make up the list
-/

namespace Clusters

variable {α κ : Type*}

/-- The entry with those related to it. -/
def cluster (r : α → α → Bool) (all : List α) (a : α) : List α := a :: all.filter (r a)

/-- Walk the entries that are left; `used` has the keys that are in a cluster. -/
def gather [BEq κ] (k : α → κ) (r : α → α → Bool) (all : List α) :
    List κ → List α → List (List α)
  | _, [] => []
  | used, a :: rest =>
    if used.contains (k a) then gather k r all used rest
    else cluster r all a :: gather k r all (used ++ (cluster r all a).map k) rest

/-- The entries that are left and not related to a head before them. -/
def heads (r : α → α → Bool) : List α → List α → List α
  | _, [] => []
  | before, a :: rest =>
    if before.any fun h => r h a then heads r before rest
    else a :: heads r (before ++ [a]) rest

/-- `a` comes before `b`. -/
def Before (l : List α) (a b : α) : Prop := ∃ i j : ℕ, i < j ∧ l[i]? = some a ∧ l[j]? = some b

/-- No two heads are related, and every other entry is related to one head, which is ahead of
it, and to no other. -/
structure Headed (r : α → α → Bool) (l : List α) (H : Set α) : Prop where
  apart : ∀ a ∈ l, ∀ b ∈ l, a ∈ H → b ∈ H → r a b = false
  led : ∀ b ∈ l, b ∉ H → ∃ a ∈ H, r a b = true ∧ Before l a b
  once : ∀ b ∈ l, ∀ a ∈ l, ∀ c ∈ l, a ∈ H → c ∈ H → r a b = true → r c b = true → a = c

section

variable {r : α → α → Bool} {all before l rest : List α} {a b c : α}

theorem Before.left_mem (h : Before l a b) : a ∈ l := by
  obtain ⟨i, -, -, hi, -⟩ := h
  exact List.mem_of_getElem? hi

theorem Before.cons (h : Before l a b) : Before (c :: l) a b := by
  obtain ⟨i, j, hij, hi, hj⟩ := h
  exact ⟨i + 1, j + 1, Nat.succ_lt_succ hij, hi, hj⟩

theorem before_head (hb : b ∈ l) : Before (a :: l) a b := by
  obtain ⟨j, hj⟩ := List.mem_iff_getElem?.mp hb
  exact ⟨0, j + 1, Nat.succ_pos j, rfl, hj⟩

theorem length_filter_eq_one {p : α → Bool} (hexists : ∃ a ∈ l, p a = true)
    (hpair : l.Pairwise fun a b => p a = true → p b = false) : (l.filter p).length = 1 := by
  obtain ⟨a, ha, hp⟩ := hexists
  have hfilter := hpair.filter p
  rcases heq : l.filter p with _ | ⟨b, _ | ⟨c, rest⟩⟩
  · exact absurd (List.mem_filter.mpr ⟨ha, hp⟩) (heq ▸ List.not_mem_nil)
  · rfl
  · -- two entries that pass would rule each other out
    have hall : ∀ x ∈ l.filter p, p x = true := fun x hx => (List.mem_filter.mp hx).2
    rw [heq] at hfilter hall
    have hc := (List.pairwise_cons.mp hfilter).1 c List.mem_cons_self (hall b List.mem_cons_self)
    rw [hall c (List.mem_cons_of_mem b List.mem_cons_self)] at hc
    cases hc

theorem mem_cluster : b ∈ cluster r all a ↔ b = a ∨ b ∈ all ∧ r a b = true := by
  rw [cluster, List.mem_cons, List.mem_filter]

theorem heads_sublist (r : α → α → Bool) (before l : List α) : (heads r before l).Sublist l := by
  induction l generalizing before with
  | nil => exact List.Sublist.refl _
  | cons a l ih =>
    rw [heads]
    split
    · exact (ih before).trans (List.sublist_cons_self a l)
    · exact (ih _).cons_cons a

/-- No head is related to one that comes before it. -/
theorem not_related_of_mem_heads (hb : b ∈ heads r before l) :
    ∀ h ∈ before, r h b = false := by
  induction l generalizing before with
  | nil => cases hb
  | cons a l ih =>
    rw [heads] at hb
    split at hb
    · exact ih hb
    · rename_i hnone
      intro h hh
      rcases List.mem_cons.mp hb with rfl | hb
      · simpa using fun hr => hnone (List.any_eq_true.mpr ⟨h, hh, hr⟩)
      · exact ih hb h (List.mem_append_left _ hh)

theorem pairwise_heads (r : α → α → Bool) (before l : List α) :
    (heads r before l).Pairwise fun a b => r a b = false := by
  induction l generalizing before with
  | nil => exact List.Pairwise.nil
  | cons a l ih =>
    rw [heads]
    split
    · exact ih before
    · exact List.pairwise_cons.mpr ⟨fun b hb =>
        not_related_of_mem_heads hb a (List.mem_append_right _ List.mem_cons_self), ih _⟩

/-- What heads no cluster is related to a head that comes before it. -/
theorem mem_heads_or_led (hb : b ∈ l) :
    b ∈ heads r before l ∨
      ∃ h, r h b = true ∧ (h ∈ before ∨ h ∈ heads r before l ∧ Before l h b) := by
  induction l generalizing before with
  | nil => cases hb
  | cons a l ih =>
    rw [heads]
    split
    · rename_i hsome
      rcases List.mem_cons.mp hb with rfl | hbl
      · obtain ⟨h, hh, hr⟩ := List.any_eq_true.mp hsome
        exact .inr ⟨h, hr, .inl hh⟩
      · rcases ih hbl with hhead | ⟨h, hr, hh | ⟨hhead, hbefore⟩⟩
        · exact .inl hhead
        · exact .inr ⟨h, hr, .inl hh⟩
        · exact .inr ⟨h, hr, .inr ⟨hhead, hbefore.cons⟩⟩
    · rcases List.mem_cons.mp hb with rfl | hbl
      · exact .inl List.mem_cons_self
      · rcases @ih (before ++ [a]) hbl with hhead | ⟨h, hr, hh | ⟨hhead, hbefore⟩⟩
        · exact .inl (List.mem_cons_of_mem a hhead)
        · rcases List.mem_append.mp hh with hh | hh
          · exact .inr ⟨h, hr, .inl hh⟩
          · -- the head is the entry just met, and all that are left come after it
            obtain rfl := List.mem_singleton.mp hh
            exact .inr ⟨h, hr, .inr ⟨List.mem_cons_self, before_head hbl⟩⟩
        · exact .inr ⟨h, hr, .inr ⟨List.mem_cons_of_mem a hhead, hbefore.cons⟩⟩

/-- Every entry is in the cluster of a head. -/
theorem exists_mem_cluster (hb : b ∈ l) : ∃ a ∈ heads r [] l, b ∈ cluster r l a := by
  rcases @mem_heads_or_led _ r [] l b hb with hhead | ⟨h, hr, hnil | ⟨hhead, -⟩⟩
  · exact ⟨b, hhead, mem_cluster.mpr (.inl rfl)⟩
  · cases hnil
  · exact ⟨h, hhead, mem_cluster.mpr (.inr ⟨hb, hr⟩)⟩

/-! ### The walk -/

/-- An entry that is left is in a cluster made so far iff it is related to a head so far. -/
theorem contains_used_iff [BEq κ] [LawfulBEq κ] {k : α → κ} {done hs : List α}
    (hnodup : ((done ++ a :: rest).map k).Nodup) (hhs : hs ⊆ done) :
    ((hs.flatMap (cluster r (done ++ a :: rest))).map k).contains (k a) =
      hs.any fun h => r h a := by
  have hinj := List.inj_on_of_nodup_map hnodup
  have ha : a ∈ done ++ a :: rest := List.mem_append_right done List.mem_cons_self
  have hnew : a ∉ done := by
    intro hmem
    have hdisjoint := (List.nodup_append.mp (List.Nodup.of_map k hnodup)).2.2
    exact hdisjoint a hmem a List.mem_cons_self rfl
  rw [Bool.eq_iff_iff, List.contains_iff_mem, List.mem_map, List.any_eq_true]
  constructor
  · rintro ⟨x, hx, hkey⟩
    obtain ⟨h, hh, hx⟩ := List.mem_flatMap.mp hx
    have hmem : h ∈ done ++ a :: rest := List.mem_append_left _ (hhs hh)
    rcases mem_cluster.mp hx with rfl | ⟨hxl, hr⟩
    · rw [hinj hmem ha hkey] at hh
      exact absurd (hhs hh) hnew
    · exact ⟨h, hh, by rwa [hinj hxl ha hkey] at hr⟩
  · rintro ⟨h, hh, hr⟩
    exact ⟨a, List.mem_flatMap.mpr ⟨h, hh, mem_cluster.mpr (.inr ⟨ha, hr⟩)⟩, rfl⟩

theorem gather_eq_of_append [BEq κ] [LawfulBEq κ] {k : α → κ} {done hs : List α}
    (hnodup : ((done ++ rest).map k).Nodup) (hhs : hs ⊆ done) :
    gather k r (done ++ rest) ((hs.flatMap (cluster r (done ++ rest))).map k) rest =
      (heads r hs rest).map (cluster r (done ++ rest)) := by
  induction rest generalizing done hs with
  | nil => rfl
  | cons a rest ih =>
    have hassoc : done ++ a :: rest = (done ++ [a]) ++ rest := by simp
    rw [gather, heads, contains_used_iff hnodup hhs]
    split
    · rw [hassoc] at hnodup ⊢
      exact ih hnodup fun h hh => List.mem_append_left _ (hhs hh)
    · -- the entry is the next head, and its cluster is used from here on
      rw [List.map_cons]
      congr 1
      have hused : ((hs.flatMap (cluster r (done ++ a :: rest))).map k) ++
          (cluster r (done ++ a :: rest) a).map k =
          ((hs ++ [a]).flatMap (cluster r (done ++ a :: rest))).map k := by
        simp
      rw [hused, hassoc]
      rw [hassoc] at hnodup
      refine ih hnodup fun h hh => ?_
      rcases List.mem_append.mp hh with hh | hh
      · exact List.mem_append_left _ (hhs hh)
      · exact List.mem_append_right _ hh

/-- The walk makes the clusters of the heads. -/
theorem gather_eq [BEq κ] [LawfulBEq κ] {k : α → κ} (hnodup : (l.map k).Nodup) :
    gather k r l [] l = (heads r [] l).map (cluster r l) :=
  @gather_eq_of_append _ _ r l _ _ k [] [] hnodup (List.Subset.refl [])

/-! ### Disjoint clusters -/

section

variable (hsymm : ∀ a ∈ l, ∀ b ∈ l, r a b = true → r b a = true)
include hsymm

theorem not_related_of_heads (hirrefl : ∀ a ∈ l, r a a = false) (ha : a ∈ heads r [] l)
    (hb : b ∈ heads r [] l) : r a b = false := by
  have hmem := (heads_sublist r [] l).subset
  have hboth : (heads r [] l).Pairwise fun a b => r a b = false ∧ r b a = false :=
    (pairwise_heads r [] l).imp_of_mem fun {x y} hx hy hxy => ⟨hxy, by
      rw [Bool.eq_false_iff] at hxy ⊢
      exact fun hyx => hxy (hsymm y (hmem hy) x (hmem hx) hyx)⟩
  by_cases hab : a = b
  · rw [hab]
    exact hirrefl b (hmem hb)
  · have hswap : Std.Symm fun a b => r a b = false ∧ r b a = false := ⟨fun _ _ => And.symm⟩
    exact (hboth.forall ha hb hab).1

/-- The heads are the only choice of heads there is. -/
theorem mem_heads_iff_of_headed (hirrefl : ∀ a ∈ l, r a a = false) (hnodup : l.Nodup)
    {H : Set α} (hH : Headed r l H) (hb : b ∈ l) : b ∈ heads r [] l ↔ b ∈ H := by
  obtain ⟨j, hj⟩ := List.mem_iff_getElem?.mp hb
  -- on the place of the entry: of those before it, the heads are known
  induction j using Nat.strong_induction_on generalizing b with
  | _ j ih =>
    have hearlier : ∀ a, Before l a b → (a ∈ heads r [] l ↔ a ∈ H) := by
      rintro a ⟨i, j', hij, hi, hj'⟩
      have hsame : j = j' :=
        (List.getElem?_inj (List.getElem?_eq_some_iff.mp hj).1 hnodup).mp (hj.trans hj'.symm)
      exact ih i (hsame ▸ hij) (List.mem_of_getElem? hi) hi
    constructor
    · intro hhead
      by_contra hnot
      -- it would have a head before it, which the walk has found as well
      obtain ⟨a, ha, hr, hbefore⟩ := hH.led b hb hnot
      have hapart := not_related_of_heads hsymm hirrefl ((hearlier a hbefore).mpr ha) hhead
      rw [hr] at hapart
      cases hapart
    · intro hmem
      rcases @mem_heads_or_led _ r [] l b hb with hhead | ⟨h, hr, hnil | ⟨hhead, hbefore⟩⟩
      · exact hhead
      · cases hnil
      · have hapart := hH.apart h hbefore.left_mem b hb ((hearlier h hbefore).mp hhead) hmem
        rw [hr] at hapart
        cases hapart

/-- The clusters are disjoint exactly if there is a choice of heads by which every other entry
has one head. -/
theorem pairwise_disjoint_iff_headed (hirrefl : ∀ a ∈ l, r a a = false) (hnodup : l.Nodup) :
    ((heads r [] l).map (cluster r l)).Pairwise List.Disjoint ↔ ∃ H, Headed r l H := by
  have hmem := (heads_sublist r [] l).subset
  rw [List.pairwise_map]
  constructor
  · intro hdisjoint
    refine ⟨{a | a ∈ heads r [] l}, fun a _ b _ ha hb => not_related_of_heads hsymm hirrefl ha hb,
      fun b hb hnot => ?_, fun b hb a _ c _ ha hc hab hcb => ?_⟩
    · rcases @mem_heads_or_led _ r [] l b hb with hhead | ⟨h, hr, hnil | ⟨hhead, hbefore⟩⟩
      · exact absurd hhead hnot
      · cases hnil
      · exact ⟨h, hhead, hr, hbefore⟩
    · by_contra hne
      have hswap : Std.Symm fun a c => (cluster r l a).Disjoint (cluster r l c) :=
        ⟨fun _ _ h _ hx hy => h hy hx⟩
      exact hdisjoint.forall ha hc hne (mem_cluster.mpr (.inr ⟨hb, hab⟩))
        (mem_cluster.mpr (.inr ⟨hb, hcb⟩))
  · rintro ⟨H, hH⟩
    have hheads : ∀ a ∈ heads r [] l, a ∈ H := fun a ha =>
      (mem_heads_iff_of_headed hsymm hirrefl hnodup hH (hmem ha)).mp ha
    refine (hnodup.sublist (heads_sublist r [] l)).imp_of_mem ?_
    intro a c ha hc hne x hxa hxc
    -- an entry in two clusters is a head related to another one, or has two heads
    have hac := not_related_of_heads hsymm hirrefl ha hc
    rcases mem_cluster.mp hxa with rfl | ⟨hx, hax⟩ <;> rcases mem_cluster.mp hxc with heq | ⟨-, hcx⟩
    · exact hne heq
    · have hca := not_related_of_heads hsymm hirrefl hc ha
      rw [hcx] at hca
      cases hca
    · rw [heq, hac] at hax
      cases hax
    · exact hne (hH.once x hx a (hmem ha) c (hmem hc) (hheads a ha) (hheads c hc) hax hcx)

end

/-- Disjoint clusters are the list in another order. -/
theorem flatten_perm_of_disjoint (hirrefl : ∀ a ∈ l, r a a = false) (hnodup : l.Nodup)
    (hdisjoint : ((heads r [] l).map (cluster r l)).Pairwise List.Disjoint) :
    ((heads r [] l).map (cluster r l)).flatten.Perm l := by
  have hmem := (heads_sublist r [] l).subset
  refine (List.perm_ext_iff_of_nodup ?_ hnodup).mpr fun x => ?_
  · refine List.nodup_flatten.mpr ⟨fun c hc => ?_, hdisjoint⟩
    obtain ⟨a, ha, rfl⟩ := List.mem_map.mp hc
    refine List.nodup_cons.mpr ⟨fun hself => ?_, hnodup.filter _⟩
    have hr := (List.mem_filter.mp hself).2
    rw [hirrefl a (hmem ha)] at hr
    cases hr
  · rw [List.mem_flatten]
    constructor
    · rintro ⟨c, hc, hx⟩
      obtain ⟨a, ha, rfl⟩ := List.mem_map.mp hc
      rcases mem_cluster.mp hx with rfl | ⟨hxl, -⟩
      · exact hmem ha
      · exact hxl
    · intro hx
      obtain ⟨a, ha, hxa⟩ := @exists_mem_cluster _ r l x hx
      exact ⟨_, List.mem_map_of_mem ha, hxa⟩

end

end Clusters
