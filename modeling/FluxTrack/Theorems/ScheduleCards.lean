import FluxTrack.Theorems.MergeLaws
import FluxTrack.Web.ScheduleCards

/-!
# A session on two cards

Merging is no equivalence: a section may share its room with a second one and its course with a
third. If the second and the third come first, each of them heads a card, and both cards take the
section in. The cards show every session once exactly if the sessions can be headed: by some of
them that do not merge with each other, such that every other one merges with one of these, ahead
of it, and with no other.

## Main definitions

* `Db.CardsPartition` — every session is on one card
* `Db.HeadedSessions` — the choice of heads

## Main results

* `cardsPartition_iff` — the lists of sessions the cards partition
-/

namespace FluxTrack

open Calendar Relational

/-- The cards show every session once: no two have a session in common, together they have all of
them, and their students add up to the enrolment of all. -/
structure Db.CardsPartition (db : Db) (sessions : List Session) : Prop where
  once : ∀ s ∈ sessions,
    ((db.groupMerged sessions).filter fun card => card.sessions.contains s).length = 1
  disjoint : (db.groupMerged sessions).Pairwise fun card card' =>
    ∀ s ∈ card.sessions, s ∉ card'.sessions
  union : ∀ s, s ∈ sessions ↔ ∃ card ∈ db.groupMerged sessions, s ∈ card.sessions
  students : ((db.groupMerged sessions).map ScheduleCard.students).sum =
    (sessions.map fun s => (db.scheduleOf s).enrolledCount).sum

/-- The sessions can be headed: no two heads merge, and every other session merges with one head,
which is ahead of it in the list, and with no other. -/
def Db.HeadedSessions (db : Db) (sessions : List Session) : Prop :=
  ∃ heads : Set Session,
    (∀ a ∈ sessions, ∀ b ∈ sessions, a ∈ heads → b ∈ heads → ¬ db.Merges a b) ∧
    (∀ b ∈ sessions, b ∉ heads → ∃ a ∈ heads,
      db.Merges a b ∧ Clusters.Before sessions a b) ∧
    ∀ b ∈ sessions, ∀ a ∈ sessions, ∀ c ∈ sessions, a ∈ heads → c ∈ heads →
      db.Merges a b → db.Merges c b → a = c

section

variable {db : Db} {sessions : List Session} {a b s : Session}

/-- In a list that holds each session once, the siblings are the sessions that merge. -/
theorem siblingOf_eq (hids : (sessions.map Session.id).Nodup) (hb : b ∈ sessions) :
    db.siblingOf sessions a b = mergesWith (db.mergeView a) (db.mergeView b) := by
  have hinj := List.inj_on_of_nodup_map hids
  have hviews : ∀ x ∈ sessions.map db.mergeView, ∀ y ∈ sessions.map db.mergeView,
      x.id = y.id → x = y := by
    intro x hx y hy hid
    obtain ⟨u, hu, rfl⟩ := List.mem_map.mp hx
    obtain ⟨v, hv, rfl⟩ := List.mem_map.mp hy
    rw [hinj hu hv hid]
  rw [Bool.eq_iff_iff, Db.siblingOf, List.contains_iff_mem]
  exact mem_mergedSiblingIds hviews (List.mem_map_of_mem hb)

theorem siblingOf_symm (hids : (sessions.map Session.id).Nodup) :
    ∀ a ∈ sessions, ∀ b ∈ sessions, db.siblingOf sessions a b = true →
      db.siblingOf sessions b a = true := by
  intro a ha b hb hsib
  rw [siblingOf_eq hids hb] at hsib
  rw [siblingOf_eq hids ha]
  exact mergesWith_symm hsib

theorem siblingOf_self (db : Db) (sessions : List Session) :
    ∀ a ∈ sessions, db.siblingOf sessions a a = false := by
  intro a _
  rw [Db.siblingOf, Bool.eq_false_iff, ne_eq, List.contains_iff_mem]
  exact not_mem_mergedSiblingIds_self

theorem siblingOf_iff (hids : (sessions.map Session.id).Nodup) (hb : b ∈ sessions) :
    db.siblingOf sessions a b = true ↔ db.Merges a b := by
  rw [siblingOf_eq hids hb]
  exact Iff.rfl

theorem headedSessions_iff (hids : (sessions.map Session.id).Nodup) :
    db.HeadedSessions sessions ↔ ∃ H, Clusters.Headed (db.siblingOf sessions) sessions H := by
  have hiff : ∀ {a b}, b ∈ sessions → (db.siblingOf sessions a b = true ↔ db.Merges a b) :=
    fun hb => siblingOf_iff hids hb
  refine exists_congr fun H => ⟨fun ⟨hapart, hled, honce⟩ => ⟨?_, ?_, ?_⟩, fun h => ⟨?_, ?_, ?_⟩⟩
  · intro a ha b hb hHa hHb
    rw [Bool.eq_false_iff, ne_eq, hiff hb]
    exact hapart a ha b hb hHa hHb
  · intro b hb hnot
    obtain ⟨a, ha, hmerge, hbefore⟩ := hled b hb hnot
    exact ⟨a, ha, (hiff hb).mpr hmerge, hbefore⟩
  · intro b hb a ha c hc
    rw [hiff hb, hiff hb]
    exact honce b hb a ha c hc
  · intro a ha b hb hHa hHb
    rw [← hiff hb, h.apart a ha b hb hHa hHb]
    exact Bool.false_ne_true
  · intro b hb hnot
    obtain ⟨a, ha, hsib, hbefore⟩ := h.led b hb hnot
    exact ⟨a, ha, (hiff hb).mp hsib, hbefore⟩
  · intro b hb a ha c hc
    rw [← hiff hb, ← hiff hb]
    exact h.once b hb a ha c hc

/-! ### The cards -/

/-- Cards without a common session show the list in another order. -/
theorem sessions_perm_of_disjoint (hids : (sessions.map Session.id).Nodup)
    (hdisjoint : ((db.groupMerged sessions).map ScheduleCard.sessions).Pairwise List.Disjoint) :
    ((db.groupMerged sessions).flatMap ScheduleCard.sessions).Perm sessions := by
  rw [sessions_groupMerged hids] at hdisjoint
  rw [List.flatMap_def, sessions_groupMerged hids]
  exact Clusters.flatten_perm_of_disjoint (siblingOf_self db sessions)
    (List.Nodup.of_map Session.id hids) hdisjoint

/-- The students of the cards are those of the sessions on them. -/
theorem sum_students_groupMerged (db : Db) (sessions : List Session) :
    ((db.groupMerged sessions).map ScheduleCard.students).sum =
      (((db.groupMerged sessions).flatMap ScheduleCard.sessions).map fun s =>
        (db.scheduleOf s).enrolledCount).sum := by
  rw [List.map_congr_left (students_groupMerged sessions), List.flatMap_def, List.map_flatten,
    List.sum_flatten, List.map_map, List.map_map]
  rfl

/-- The cards of a teacher's day leave no session out. -/
theorem exists_card_of_mem (hids : (sessions.map Session.id).Nodup) (hs : s ∈ sessions) :
    ∃ card ∈ db.groupMerged sessions, s ∈ card.sessions := by
  obtain ⟨a, ha, hmem⟩ := @Clusters.exists_mem_cluster _ (db.siblingOf sessions) sessions s hs
  have hcards := List.mem_map_of_mem (f := Clusters.cluster (db.siblingOf sessions) sessions) ha
  rw [← sessions_groupMerged hids] at hcards
  obtain ⟨card, hcard, heq⟩ := List.mem_map.mp hcards
  exact ⟨card, hcard, heq ▸ hmem⟩

/-- The cards partition the sessions exactly if the sessions can be headed. -/
theorem cardsPartition_iff (hids : (sessions.map Session.id).Nodup) :
    db.CardsPartition sessions ↔ db.HeadedSessions sessions := by
  have hnodup := List.Nodup.of_map Session.id hids
  rw [headedSessions_iff hids,
    ← Clusters.pairwise_disjoint_iff_headed (siblingOf_symm hids) (siblingOf_self db sessions)
      hnodup,
    ← sessions_groupMerged hids]
  constructor
  · intro h
    exact List.pairwise_map.mpr (h.disjoint.imp fun hcards s hs hs' => hcards s hs hs')
  · intro hdisjoint
    have hperm := sessions_perm_of_disjoint hids hdisjoint
    have hunion : ∀ s, s ∈ sessions ↔ ∃ card ∈ db.groupMerged sessions, s ∈ card.sessions :=
      fun s => hperm.mem_iff.symm.trans List.mem_flatMap
    refine ⟨fun s hs => ?_, List.pairwise_map.mp hdisjoint, hunion, ?_⟩
    · obtain ⟨card, hcard, hmem⟩ := (hunion s).mp hs
      refine Clusters.length_filter_eq_one ⟨card, hcard, List.contains_iff_mem.mpr hmem⟩
        ((List.pairwise_map.mp hdisjoint).imp fun hcards hs => ?_)
      rw [Bool.eq_false_iff, ne_eq, List.contains_iff_mem]
      exact hcards (List.contains_iff_mem.mp hs)
    · rw [sum_students_groupMerged]
      exact (hperm.map _).sum_nat

end

/-- The two sections in the first room are one card. -/
theorem cardsPartition_roommates : Campus.merged.CardsPartition Campus.roommates := by
  refine (cardsPartition_iff (by decide)).mpr ⟨{Campus.section9 1 1 1}, ?_, ?_, ?_⟩
  · rintro a - b - rfl rfl
    decide
  · intro b hb hnot
    have hsecond : b = Campus.section9 2 2 1 := by
      rcases List.mem_cons.mp hb with rfl | hb
      · exact absurd rfl hnot
      · exact List.mem_singleton.mp hb
    rw [hsecond]
    exact ⟨_, rfl, by decide, 0, 1, Nat.zero_lt_one, rfl, rfl⟩
  · rintro b - a - c - rfl rfl - -
    rfl

/-- The second section is on the card of the first one and on that of the third. -/
theorem cards_repeat_second_section :
    ¬ ∀ (db : Db) (sessions : List Session), (sessions.map Session.id).Nodup →
      db.CardsPartition sessions := by
  intro h
  have honce := (h Campus.merged Campus.sections (by decide)).once (Campus.section9 2 2 1)
    (by decide)
  revert honce
  decide

end FluxTrack
