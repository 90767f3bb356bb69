import FluxTrack.Data.Builtins
import Mathlib.Data.Int.CardIntervalMod
import Mathlib.Data.List.GetD

/-!
# Dealing in turn

Things are dealt out to hands, one after another and from the first hand again after the last.
Where not everything may go to every hand, the things with the same hands are dealt out
together, a group at a time.

## Main definitions

* `deal` — one group
* `dealGroups` — group by group

## Main results

* `count_deal_le` — no hand gets more than one thing more than another one
* `mem_hands_of_mem_dealGroups`, `exists_mem_dealGroups` — what goes to a hand, and that all does
* `countP_dealGroups_le` — the shares within a group
-/

namespace RoundRobin

variable {α β κ : Type*}

/-- Deal the things out to the hands in turn; `d` is for no hands at all. -/
def deal (d : β) (hands : List β) (things : List α) : List (α × β) :=
  things.zipIdx.map fun e => (e.1, hands.getD (e.2 % hands.length) d)

/-- Deal out the things by their hands; those without hands are left. -/
def dealGroups [BEq β] (d : β) (hands : α → List β) (things : List α) : List (α × β) :=
  ((things.map hands).eraseDups).flatMap fun h =>
    if h.isEmpty then [] else deal d h (things.filter fun x => hands x == h)

section

variable {d : β} {ys : List β} {xs : List α} {x : α} {y y' : β}

theorem map_fst_deal (d : β) (ys : List β) (xs : List α) : (deal d ys xs).map Prod.fst = xs := by
  rw [deal, List.map_map]
  exact List.zipIdx_map_fst 0 xs

theorem map_snd_deal (d : β) (ys : List β) (xs : List α) :
    (deal d ys xs).map Prod.snd =
      (List.range xs.length).map fun i => ys.getD (i % ys.length) d := by
  rw [deal, List.map_map, List.range_eq_range', ← List.zipIdx_map_snd 0 xs, List.map_map]
  rfl

theorem deal_map (d : β) (ys : List β) (f : α → κ) (xs : List α) :
    deal d ys (xs.map f) = (deal d ys xs).map (Prod.map f id) := by
  rw [deal, deal, List.zipIdx_map, List.map_map, List.map_map]
  rfl

theorem mem_hands_of_mem_deal (hys : ys ≠ []) (h : (x, y) ∈ deal d ys xs) : y ∈ ys := by
  obtain ⟨e, -, heq⟩ := List.mem_map.mp h
  have hlt : e.2 % ys.length < ys.length := Nat.mod_lt _ (List.length_pos_iff.mpr hys)
  rw [← (Prod.mk.inj heq).2, List.getD_eq_getElem _ _ hlt]
  exact List.getElem_mem hlt

/-! ### The shares -/

theorem countP_range_mod (n m p : ℕ) :
    (List.range m).countP (fun i => decide (i ≡ p [MOD n])) = m.count (· ≡ p [MOD n]) := by
  induction m with
  | zero => rfl
  | succ m ih =>
    rw [List.range_succ, List.countP_append, ih, Nat.count_succ, List.countP_singleton]
    simp only [decide_eq_true_eq]

/-- The hand in place `p` gets a thing in every full turn, and one in the last turn if that
reaches it. -/
theorem count_deal [BEq β] [LawfulBEq β] (hnodup : ys.Nodup) {p : ℕ} (hp : p < ys.length) :
    ((deal d ys xs).map Prod.snd).count ys[p] =
      xs.length / ys.length + if p < xs.length % ys.length then 1 else 0 := by
  have hpos : 0 < ys.length := Nat.zero_lt_of_lt hp
  have hturn : ∀ i, (ys.getD (i % ys.length) d == ys[p]) = decide (i ≡ p [MOD ys.length]) := by
    intro i
    have hi : i % ys.length < ys.length := Nat.mod_lt i hpos
    rw [List.getD_eq_getElem _ _ hi, Bool.eq_iff_iff, beq_iff_eq, decide_eq_true_eq, Nat.ModEq,
      Nat.mod_eq_of_lt hp]
    exact hnodup.getElem_inj_iff
  rw [map_snd_deal, List.count, List.countP_map, Function.comp_def, funext hturn,
    countP_range_mod, Nat.count_modEq_card _ hpos, Nat.mod_eq_of_lt hp]

/-- No hand gets more than one thing more than another one. -/
theorem count_deal_le [BEq β] [LawfulBEq β] (hnodup : ys.Nodup) (hy : y ∈ ys) (hy' : y' ∈ ys) :
    ((deal d ys xs).map Prod.snd).count y ≤ ((deal d ys xs).map Prod.snd).count y' + 1 := by
  obtain ⟨p, hp, rfl⟩ := List.mem_iff_getElem.mp hy
  obtain ⟨p', hp', rfl⟩ := List.mem_iff_getElem.mp hy'
  rw [count_deal hnodup hp, count_deal hnodup hp']
  split <;> split <;> omega

theorem countP_mem_deal [DecidableEq α] [DecidableEq β] (hxs : xs.Nodup) :
    xs.countP (fun x => decide ((x, y) ∈ deal d ys xs)) =
      ((deal d ys xs).map Prod.snd).count y := by
  have hkeys : ((deal d ys xs).map Prod.fst).Nodup := by rwa [map_fst_deal]
  have hinj := List.inj_on_of_nodup_map hkeys
  conv_lhs => rw [← map_fst_deal d ys xs]
  rw [List.countP_map, List.count, List.countP_map]
  refine List.countP_congr fun e he => ?_
  rw [Function.comp_apply, Function.comp_apply, map_fst_deal, decide_eq_true_eq, beq_iff_eq]
  exact ⟨fun hmem => congrArg Prod.snd (hinj he hmem rfl), fun heq => heq ▸ he⟩

/-! ### The groups -/

section

variable [DecidableEq β] {hands : α → List β}

theorem mem_dealGroups : (x, y) ∈ dealGroups d hands xs ↔
    hands x ≠ [] ∧ (x, y) ∈ deal d (hands x) (xs.filter fun t => hands t == hands x) := by
  have hown : ∀ {h}, (x, y) ∈ deal d h (xs.filter fun t => hands t == h) →
      x ∈ xs ∧ hands x = h := by
    intro h hmem
    have hx := List.mem_map_of_mem (f := Prod.fst) hmem
    rw [map_fst_deal] at hx
    exact ⟨(List.mem_filter.mp hx).1, beq_iff_eq.mp (List.mem_filter.mp hx).2⟩
  rw [dealGroups, List.mem_flatMap]
  constructor
  · rintro ⟨h, -, hmem⟩
    split at hmem
    · cases hmem
    · rename_i hne
      obtain ⟨-, rfl⟩ := hown hmem
      exact ⟨fun hnil => hne (by rw [hnil]; rfl), hmem⟩
  · rintro ⟨hne, hmem⟩
    refine ⟨hands x, List.mem_eraseDups.mpr (List.mem_map_of_mem (hown hmem).1), ?_⟩
    rw [if_neg (by rwa [List.isEmpty_iff])]
    exact hmem

/-- A thing goes to one of its hands. -/
theorem mem_hands_of_mem_dealGroups (h : (x, y) ∈ dealGroups d hands xs) :
    x ∈ xs ∧ y ∈ hands x := by
  obtain ⟨hne, hmem⟩ := mem_dealGroups.mp h
  have hx := List.mem_map_of_mem (f := Prod.fst) hmem
  rw [map_fst_deal] at hx
  exact ⟨(List.mem_filter.mp hx).1, mem_hands_of_mem_deal hne hmem⟩

/-- Every thing with a hand is dealt out. -/
theorem exists_mem_dealGroups (hx : x ∈ xs) (hne : hands x ≠ []) :
    ∃ y, (x, y) ∈ dealGroups d hands xs := by
  have hgroup : x ∈ (deal d (hands x) (xs.filter fun t => hands t == hands x)).map Prod.fst := by
    rw [map_fst_deal]
    exact List.mem_filter.mpr ⟨hx, beq_self_eq_true _⟩
  obtain ⟨⟨_, y⟩, hmem, rfl⟩ := List.mem_map.mp hgroup
  exact ⟨y, mem_dealGroups.mpr ⟨hne, hmem⟩⟩

/-- No thing is dealt out twice. -/
theorem eq_of_mem_dealGroups (hxs : xs.Nodup) (h : (x, y) ∈ dealGroups d hands xs)
    (h' : (x, y') ∈ dealGroups d hands xs) : y = y' := by
  have hkeys : ((deal d (hands x) (xs.filter fun t => hands t == hands x)).map
      Prod.fst).Nodup := by
    rw [map_fst_deal]
    exact hxs.filter _
  exact congrArg Prod.snd (List.inj_on_of_nodup_map hkeys (mem_dealGroups.mp h).2
    (mem_dealGroups.mp h').2 rfl)

/-- Of the things with the same hands, none of these gets more than one more than another. -/
theorem countP_dealGroups_le [DecidableEq α] (hxs : xs.Nodup) (hnodup : ys.Nodup)
    (hy : y ∈ ys) (hy' : y' ∈ ys) :
    (xs.filter fun x => hands x == ys).countP
        (fun x => decide ((x, y) ∈ dealGroups d hands xs)) ≤
      (xs.filter fun x => hands x == ys).countP
        (fun x => decide ((x, y') ∈ dealGroups d hands xs)) + 1 := by
  have hshare : ∀ z, (xs.filter fun x => hands x == ys).countP
      (fun x => decide ((x, z) ∈ dealGroups d hands xs)) =
      ((deal d ys (xs.filter fun x => hands x == ys)).map Prod.snd).count z := by
    intro z
    rw [← countP_mem_deal (hxs.filter _)]
    refine List.countP_congr fun x hx => ?_
    obtain rfl := beq_iff_eq.mp (List.mem_filter.mp hx).2
    rw [decide_eq_true_eq, decide_eq_true_eq, mem_dealGroups,
      and_iff_right (List.ne_nil_of_mem hy)]
  rw [hshare, hshare]
  exact count_deal_le hnodup hy hy'

end

end

end RoundRobin
