import FluxTrack.Ops.Push
import FluxTrack.Process.Outbox

/-!
# What is pushed

The passes of the scheduler that push notifications, one pass at a time, each statement of it beside
anything that others do, and cut off anywhere.

## Main definitions

* `PassState`, `PassMove` — where a pass is, and what it does next
* `PushRun` — passes beside others
* `PushRun.Steady` — the invariant

## Main results

* `push_at_most_once` — how often a notification goes to a subscription
* `push_permitted` — what is pushed, and where
* `push_stamped_tried` — what is behind the stamp of a notification
-/

namespace FluxTrack

open Relational Process

/-! ### A pass -/

/-- Between which statements a pass is. -/
inductive PassPhase
  | rest
  /-- the next notification has been found not to be muted -/
  | asked
  /-- the endpoint of a subscription has been found to be gone -/
  | gone (sub : PushSubscription)

/-- The notifications to come, and the one in progress with the subscriptions left for it. -/
structure PassState where
  queue : List NotificationRow
  current : Option (NotificationRow × List PushSubscription)
  phase : PassPhase

/-- The worker of the outbox that a pass is. -/
def PassState.drainer (c : PassState) : Drainer ℕ ℕ where
  queue := c.queue.map NotificationRow.id
  current := c.current.map fun p => (p.1.id, p.2.map PushSubscription.id)

/-- The recipient has muted the type of the notification. -/
def PushWorld.Muted (w : PushWorld) (n : NotificationRow) : Prop := n.type ∈ w.mutedTypes n.user

instance (w : PushWorld) (n : NotificationRow) : Decidable (w.Muted n) :=
  inferInstanceAs (Decidable (n.type ∈ w.mutedTypes n.user))

/-- The attempt to push a notification to a subscription. -/
def attemptOf (n : NotificationRow) (sub : PushSubscription) : PushAttempt :=
  ⟨n.id, sub, n.title, n.body, if n.link = "" then "/notifications" else n.link⟩

theorem NotificationRow.key_stamped (now : ℤ) (n : NotificationRow) :
    key { n with pushedAt := some now } = key n := rfl

/-- The notification is stamped. -/
def PushWorld.stamp (w : PushWorld) (n : NotificationRow) : PushWorld :=
  { w with
    notifications := w.notifications.update (fun r => r.id == n.id)
      (fun r => { r with pushedAt := some w.now }) (NotificationRow.key_stamped w.now) }

/-- What the statements of a pass do. -/
inductive PassMove (vendor : ℕ → PushOutcome) :
    PassState → PushWorld → PushWorld → PassState → Prop
  | collect (w : PushWorld) : PassMove vendor ⟨[], none, .rest⟩ w w ⟨w.candidates, none, .rest⟩
  | mute {w : PushWorld} {n : NotificationRow} {q : List NotificationRow} (h : w.Muted n) :
      PassMove vendor ⟨n :: q, none, .rest⟩ w w ⟨q, some (n, []), .rest⟩
  | ask {w : PushWorld} {n : NotificationRow} {q : List NotificationRow} (h : ¬ w.Muted n) :
      PassMove vendor ⟨n :: q, none, .rest⟩ w w ⟨n :: q, none, .asked⟩
  | list {w : PushWorld} {n : NotificationRow} {q : List NotificationRow} :
      PassMove vendor ⟨n :: q, none, .asked⟩ w w ⟨q, some (n, w.subscriptionsOf n.user), .rest⟩
  | send {w : PushWorld} {n : NotificationRow} {q : List NotificationRow} {sub : PushSubscription}
      {subs : List PushSubscription} :
      PassMove vendor ⟨q, some (n, sub :: subs), .rest⟩ w
        { w with attempts := w.attempts ++ [attemptOf n sub] }
        ⟨q, some (n, subs), if (vendor w.attempts.length).keeps then .rest else .gone sub⟩
  | prune {w : PushWorld} {n : NotificationRow} {q : List NotificationRow} {sub : PushSubscription}
      {subs : List PushSubscription} :
      PassMove vendor ⟨q, some (n, subs), .gone sub⟩ w
        { w with subscriptions := w.subscriptions.delete fun s => s.id == sub.id }
        ⟨q, some (n, subs), .rest⟩
  | stamp {w : PushWorld} {n : NotificationRow} {q : List NotificationRow} :
      PassMove vendor ⟨q, some (n, []), .rest⟩ w (w.stamp n) ⟨q, none, .rest⟩

section

variable {vendor : ℕ → PushOutcome} {n : NotificationRow} {q : List NotificationRow}

/-- The attempts for one notification. -/
theorem follows_pushToAll (subs : List PushSubscription) :
    (pushToAll vendor n subs).Follows (PassMove vendor) (fun c _ => c = ⟨q, some (n, []), .rest⟩)
      ⟨q, some (n, subs), .rest⟩ := by
  induction subs with
  | nil => exact rfl
  | cons sub subs ih =>
    have hsub : (sendOne vendor n sub >>= fun keeps =>
        if (!keeps) = true then pruneSubscription sub else pure ⟨⟩).Follows (PassMove vendor)
          (fun c _ => c = ⟨q, some (n, subs), .rest⟩) ⟨q, some (n, sub :: subs), .rest⟩ := by
      refine Prog.follows_modifyGet_bind fun w => ⟨_, .send, ?_⟩
      cases (vendor w.attempts.length).keeps with
      | true => exact rfl
      | false => exact fun w' => ⟨_, .prune, rfl⟩
    refine hsub.bind (fun c _ hc => ?_) fun _ e _ => e.elim
    rw [hc]
    exact ih

theorem follows_pushRow : (pushRow vendor n).Follows (PassMove vendor)
    (fun c _ => c = ⟨q, none, .rest⟩) ⟨n :: q, none, .rest⟩ := by
  refine Prog.follows_select_bind fun w => ?_
  by_cases hmuted : w.Muted n
  · refine ⟨_, .mute hmuted, ?_⟩
    rw [if_pos (List.contains_iff_mem.mpr hmuted)]
    exact Prog.follows_modify_bind fun w' => ⟨_, .stamp, rfl⟩
  · refine ⟨_, .ask hmuted, ?_⟩
    rw [if_neg fun h => hmuted (List.contains_iff_mem.mp h)]
    refine Prog.follows_select_bind fun w' => ⟨_, .list, ?_⟩
    refine (follows_pushToAll (w'.subscriptionsOf n.user)).bind (fun c _ hc => ?_) fun _ e _ => e.elim
    rw [hc]
    exact Prog.follows_modify_bind fun w'' => ⟨_, .stamp, rfl⟩

theorem follows_pushRows (rows : List NotificationRow) (sent : ℕ) :
    (pushRows vendor rows sent).Follows (PassMove vendor) (fun c _ => c = ⟨[], none, .rest⟩)
      ⟨rows, none, .rest⟩ := by
  induction rows generalizing sent with
  | nil => exact rfl
  | cons n rows ih =>
    refine (follows_pushRow (q := rows)).bind (fun c counts hc => ?_) fun _ e _ => e.elim
    rw [hc]
    exact ih _

/-- The pass does nothing but these moves. -/
theorem follows_sendPushOutbox (keyPath : String) (vendor : ℕ → PushOutcome) :
    (sendPushOutbox keyPath vendor).Follows (PassMove vendor) (fun c _ => c = ⟨[], none, .rest⟩)
      ⟨[], none, .rest⟩ := by
  unfold sendPushOutbox
  split
  · exact rfl
  · exact Prog.follows_select_bind fun w => ⟨_, .collect w, follows_pushRows w.candidates 0⟩

end

/-! ### Passes beside others -/

/-- The notification has been stamped. -/
def PushWorld.Pushed (w : PushWorld) (k : ℕ) : Prop :=
  ∃ n ∈ w.notifications, n.id = k ∧ n.pushedAt.isSome = true

/-- What others do: they neither push nor stamp, and no notification goes away. -/
structure Bystander where
  act : PushWorld → PushWorld
  attempts : ∀ w, (act w).attempts = w.attempts
  pushed : ∀ w k, (act w).Pushed k ↔ w.Pushed k
  stays : ∀ w k, w.notifications.Has k → (act w).notifications.Has k

/-- The rows, the pass that is going or has ended, all worlds that there have been, and how many
passes have been cut off. -/
structure PushRun where
  world : PushWorld
  pass : PushM ℕ
  past : List PushWorld
  cuts : ℕ

/-- What happens next. -/
inductive PushStep
  /-- the scheduler starts a pass, unless one is going -/
  | start
  /-- a statement of the pass -/
  | move
  /-- the pass is cut off -/
  | cut
  | other (b : Bystander)

namespace PushRun

variable (keyPath : String) (vendor : ℕ → PushOutcome)

/-- Before anything has been pushed. -/
def fresh (p : PushRoom) (now : ℤ) : PushRun :=
  let w : PushWorld := { p with now := now, attempts := [] }
  ⟨w, pure 0, [w], 0⟩

/-- One step. -/
def step (W : PushRun) : PushStep → PushRun
  | .start => if W.pass.halted then { W with pass := sendPushOutbox keyPath vendor } else W
  | .move =>
    let next := W.pass.move W.world
    { W with world := next.2, pass := next.1, past := next.2 :: W.past }
  | .cut => if W.pass.halted then W else { W with pass := pure 0, cuts := W.cuts + 1 }
  | .other b => { W with world := b.act W.world, past := b.act W.world :: W.past }

/-- The steps in turn. -/
def run (W : PushRun) (steps : List PushStep) : PushRun := steps.foldl (step keyPath vendor) W

end PushRun

/-! ### The invariant -/

section

variable {past past' : List PushWorld} {w w' : PushWorld} {c c' : PassState} {n : NotificationRow}
  {vendor : ℕ → PushOutcome}

/-- The notification was to be pushed once. -/
def Picked (past : List PushWorld) (n : NotificationRow) : Prop := ∃ w ∈ past, n ∈ w.candidates

/-- The notification was not muted once. -/
def Audible (past : List PushWorld) (n : NotificationRow) : Prop := ∃ w ∈ past, ¬ w.Muted n

/-- The subscription was one of the recipient's once. -/
def Subscribed (past : List PushWorld) (n : NotificationRow) (sub : PushSubscription) : Prop :=
  ∃ w ∈ past, sub ∈ w.subscriptionsOf n.user

/-- A notification, and where it was to go: to no subscription where it was muted. -/
def pushPlans (past : List PushWorld) : Set (ℕ × List ℕ) :=
  {p | ∃ n, n.id = p.1 ∧ Picked past n ∧ ((∃ w ∈ past, w.Muted n) ∧ p.2 = [] ∨
    Audible past n ∧ ∃ w ∈ past, p.2 = (w.subscriptionsOf n.user).map PushSubscription.id)}

/-- The outbox that the notifications are. -/
def PushWorld.outbox (w : PushWorld) : Outbox ℕ ℕ where
  done := {k | w.Pushed k}
  attempts := w.attempts.map fun a => (a.notification, a.subscription.id)

/-- An attempt that was to be made. -/
def Permitted (past : List PushWorld) (a : PushAttempt) : Prop :=
  ∃ n sub, a = attemptOf n sub ∧ Picked past n ∧ Audible past n ∧ Subscribed past n sub

/-- What a pass has seen of the notifications it has still to do with. -/
structure Knows (past : List PushWorld) (w : PushWorld) (c : PassState) : Prop where
  queue : ∀ n ∈ c.queue, Picked past n ∧ w.notifications.Has n.id
  current : ∀ n subs, c.current = some (n, subs) → Picked past n ∧ w.notifications.Has n.id ∧
    ∀ sub ∈ subs, Audible past n ∧ Subscribed past n sub
  asked : ∀ n q, c = ⟨n :: q, none, .asked⟩ → Audible past n
  attempts : ∀ a ∈ w.attempts, Permitted past a

theorem Picked.mono (h : Picked past n) (hpast : past ⊆ past') : Picked past' n := by
  obtain ⟨w, hw, hn⟩ := h
  exact ⟨w, hpast hw, hn⟩

theorem Audible.mono (h : Audible past n) (hpast : past ⊆ past') : Audible past' n := by
  obtain ⟨w, hw, hn⟩ := h
  exact ⟨w, hpast hw, hn⟩

theorem Subscribed.mono {sub : PushSubscription} (h : Subscribed past n sub) (hpast : past ⊆ past') :
    Subscribed past' n sub := by
  obtain ⟨w, hw, hn⟩ := h
  exact ⟨w, hpast hw, hn⟩

theorem pushPlans_mono (hpast : past ⊆ past') : pushPlans past ⊆ pushPlans past' := by
  rintro p ⟨n, hid, hpicked, hplan⟩
  refine ⟨n, hid, hpicked.mono hpast, ?_⟩
  rcases hplan with ⟨⟨w, hw, hmuted⟩, hnil⟩ | ⟨haudible, w, hw, hsubs⟩
  · exact .inl ⟨⟨w, hpast hw, hmuted⟩, hnil⟩
  · exact .inr ⟨haudible.mono hpast, w, hpast hw, hsubs⟩

theorem Knows.mono (h : Knows past w c) (hpast : past ⊆ past') : Knows past' w c where
  queue n hn := (h.queue n hn).imp_left fun hpicked => hpicked.mono hpast
  current n subs heq := by
    obtain ⟨hpicked, hhas, hsubs⟩ := h.current n subs heq
    exact ⟨hpicked.mono hpast, hhas, fun sub hsub =>
      ⟨(hsubs sub hsub).1.mono hpast, (hsubs sub hsub).2.mono hpast⟩⟩
  asked n q heq := (h.asked n q heq).mono hpast
  attempts a ha := by
    obtain ⟨n, sub, heq, hpicked, haudible, hsub⟩ := h.attempts a ha
    exact ⟨n, sub, heq, hpicked.mono hpast, haudible.mono hpast, hsub.mono hpast⟩

/-- The rows that a pass starts with have not been stamped, and there is no row twice. -/
theorem not_pushed_of_candidate (hn : n ∈ w.candidates) :
    n ∈ w.notifications ∧ ¬ w.Pushed n.id := by
  obtain ⟨hmem, hcond⟩ := List.mem_filter.mp (List.mem_mergeSort.mp hn)
  refine ⟨hmem, ?_⟩
  rintro ⟨n', hn', hid, hpushed⟩
  rw [Table.eq_of_key_eq hn' hmem hid] at hpushed
  simp only [Bool.and_eq_true, Option.isNone_iff_eq_none] at hcond
  rw [hcond.1.2] at hpushed
  cases hpushed

theorem nodup_candidates (w : PushWorld) : (w.candidates.map NotificationRow.id).Nodup := by
  have hperm := (List.mergeSort_perm (w.notifications.rows.filter fun n =>
    pushTypes.contains n.type && n.pushedAt.isNone &&
      decide (w.now - windowMinutes * Calendar.minute ≤ n.createdAt)) fun a b =>
        decide (b.createdAt ≤ a.createdAt)).map NotificationRow.id
  exact hperm.nodup_iff.mpr (w.notifications.nodup.sublist (List.filter_sublist.map _))

theorem nodup_subscriptionsOf (w : PushWorld) (user : ℕ) :
    ((w.subscriptionsOf user).map PushSubscription.id).Nodup :=
  w.subscriptions.nodup.sublist (List.filter_sublist.map _)

theorem pushed_stamp (hhas : w.notifications.Has n.id) (k : ℕ) :
    (w.stamp n).Pushed k ↔ k = n.id ∨ w.Pushed k := by
  constructor
  · rintro ⟨r, hr, hid, hpushed⟩
    obtain ⟨r, hold, rfl⟩ := (Table.mem_update_iff (by intro _; rfl)).mp hr
    by_cases hkey : r.id = n.id
    · rw [if_pos (beq_iff_eq.mpr hkey)] at hid
      exact .inl (hid.symm.trans hkey)
    · rw [if_neg fun h => hkey (beq_iff_eq.mp h)] at hid hpushed
      exact .inr ⟨r, hold, hid, hpushed⟩
  · rintro (rfl | ⟨r, hr, rfl, hpushed⟩)
    · obtain ⟨r, hr, hid⟩ := hhas
      exact ⟨_, Table.mem_update_of_pos (by intro _; rfl) hr (beq_iff_eq.mpr hid), hid, rfl⟩
    · exact Table.exists_mem_update (by intro _; rfl) hr hpushed rfl

theorem outbox_stamp (hhas : w.notifications.Has n.id) :
    (w.stamp n).outbox = { w.outbox with done := insert n.id w.outbox.done } := by
  have hdone : {k | (w.stamp n).Pushed k} = insert n.id {k | w.Pushed k} :=
    Set.ext fun k => pushed_stamp hhas k
  rw [PushWorld.outbox, hdone]
  rfl

variable {before : Set ℕ} {lost : List ℕ}

/-- Every statement of a pass keeps the invariant. -/
theorem PassMove.keeps (hmove : PassMove vendor c w w' c') (hw : w ∈ past)
    (hfair : w.outbox.Fair (pushPlans past) before lost c.drainer) (hknows : Knows past w c) :
    w'.outbox.Fair (pushPlans past) before lost c'.drainer ∧ Knows past w' c' := by
  -- one case for each statement; only a stamp settles an entry, and only a send attempts one
  cases hmove with
  | @collect =>
    refine ⟨hfair.start (nodup_candidates w) fun k hk => ?_, ⟨fun n hn => ?_,
      fun _ _ heq => (nomatch heq), fun n q heq => ?_, hknows.attempts⟩⟩
    · obtain ⟨n, hn, rfl⟩ := List.mem_map.mp hk
      exact (not_pushed_of_candidate hn).2
    · exact ⟨⟨w, hw, hn⟩, n, (not_pushed_of_candidate hn).1, rfl⟩
    · cases congrArg PassState.phase heq
  | @mute _ n q hmuted =>
    -- for a muted row the plan is nobody
    obtain ⟨hpicked, hhas⟩ := hknows.queue n List.mem_cons_self
    refine ⟨hfair.move (.take ⟨n, rfl, hpicked, .inl ⟨⟨w, hw, hmuted⟩, rfl⟩⟩ List.nodup_nil),
      fun m hm => hknows.queue m (List.mem_cons_of_mem n hm), fun m subs heq => ?_,
      fun m q heq => (nomatch heq), hknows.attempts⟩
    cases heq
    exact ⟨hpicked, hhas, fun sub hsub => absurd hsub List.not_mem_nil⟩
  | @ask _ n q hmuted =>
    -- the outbox is where it was, but the pass has seen that the row is not muted
    refine ⟨hfair, hknows.queue, hknows.current, fun m q' heq => ?_, hknows.attempts⟩
    cases heq
    exact ⟨w, hw, hmuted⟩
  | @list _ n q =>
    obtain ⟨hpicked, hhas⟩ := hknows.queue n List.mem_cons_self
    have haudible := hknows.asked n q rfl
    refine ⟨hfair.move (.take ⟨n, rfl, hpicked, .inr ⟨haudible, w, hw, rfl⟩⟩
        (nodup_subscriptionsOf w n.user)),
      fun m hm => hknows.queue m (List.mem_cons_of_mem n hm), fun m subs heq => ?_,
      fun m q heq => (nomatch heq), hknows.attempts⟩
    cases heq
    exact ⟨hpicked, hhas, fun sub hsub => ⟨haudible, w, hw, hsub⟩⟩
  | @send _ n q sub subs =>
    obtain ⟨hpicked, hhas, hsubs⟩ := hknows.current n (sub :: subs) rfl
    obtain ⟨haudible, hsubscribed⟩ := hsubs sub List.mem_cons_self
    refine ⟨?_, hknows.queue, fun m subs' heq => ?_, fun m q heq => (nomatch heq), fun a ha => ?_⟩
    · have hattempts : (w.attempts ++ [attemptOf n sub]).map
          (fun a => (a.notification, a.subscription.id)) =
            w.attempts.map (fun a => (a.notification, a.subscription.id)) ++ [(n.id, sub.id)] := by
        rw [List.map_append]
        rfl
      have hnext := hfair.move .attempt
      rw [PushWorld.outbox, hattempts]
      exact hnext
    · cases heq
      exact ⟨hpicked, hhas, fun s hs => hsubs s (List.mem_cons_of_mem sub hs)⟩
    · rcases List.mem_append.mp ha with ha | ha
      · exact hknows.attempts a ha
      · exact ⟨n, sub, List.mem_singleton.mp ha, hpicked, haudible, hsubscribed⟩
  | prune => exact ⟨hfair, hknows.queue, hknows.current, fun m q heq => (nomatch heq), hknows.attempts⟩
  | @stamp _ n q =>
    obtain ⟨-, hhas, -⟩ := hknows.current n [] rfl
    have hstays : ∀ k, w.notifications.Has k → (w.stamp n).notifications.Has k := fun k hk =>
      (Table.has_update_iff (by intro _; rfl)).mpr hk
    refine ⟨?_, fun m hm => (hknows.queue m hm).imp_right (hstays m.id),
      fun m subs heq => (nomatch heq), fun m q heq => (nomatch heq), hknows.attempts⟩
    rw [outbox_stamp hhas]
    exact hfair.move .settle

end

namespace PushRun

variable {keyPath : String} {vendor : ℕ → PushOutcome} {before : Set ℕ} {W : PushRun}

/-- The pass is where some state says, the outbox is fair, and the pass knows what it does. -/
structure Steady (vendor : ℕ → PushOutcome) (before : Set ℕ) (W : PushRun) (c : PassState)
    (lost : List ℕ) : Prop where
  pass : W.pass.Follows (PassMove vendor) (fun c _ => c = ⟨[], none, .rest⟩) c
  fair : W.world.outbox.Fair (pushPlans W.past) before lost c.drainer
  knows : Knows W.past W.world c
  seen : W.world ∈ W.past
  cuts : lost.length ≤ W.cuts

theorem steady_fresh (vendor : ℕ → PushOutcome) (p : PushRoom) (now : ℤ) :
    (fresh p now).Steady vendor {k | (fresh p now).world.Pushed k} ⟨[], none, .rest⟩ [] where
  pass := rfl
  fair := Outbox.fair_nil _ _
  knows := ⟨fun _ hn => absurd hn List.not_mem_nil, fun _ _ heq => (nomatch heq),
    fun _ _ heq => (nomatch heq), fun _ ha => absurd ha List.not_mem_nil⟩
  seen := List.mem_singleton.mpr rfl
  cuts := le_refl _

/-- Every step keeps the invariant. -/
theorem Steady.step {c : PassState} {lost : List ℕ} (keyPath : String)
    (h : W.Steady vendor before c lost) (e : PushStep) :
    ∃ c' lost', (W.step keyPath vendor e).Steady vendor before c' lost' := by
  cases e with
  | start =>
    rw [PushRun.step]
    split
    · rename_i hhalted
      obtain ⟨-, rfl⟩ := h.pass.of_halted hhalted
      exact ⟨_, lost, follows_sendPushOutbox keyPath vendor, h.fair, h.knows, h.seen, h.cuts⟩
    · exact ⟨c, lost, h⟩
  | move =>
    have hpast : W.past ⊆ (W.pass.move W.world).2 :: W.past := List.subset_cons_self _ _
    obtain ⟨c', hmove, hpass⟩ := h.pass.move W.world
    rcases hmove with hmove | ⟨rfl, hsame⟩
    · obtain ⟨hfair, hknows⟩ := hmove.keeps h.seen h.fair h.knows
      exact ⟨c', lost, hpass, hfair.mono (pushPlans_mono hpast), hknows.mono hpast,
        List.mem_cons_self, h.cuts⟩
    · have hkept : ∀ w, w = W.world →
          (⟨w, (W.pass.move W.world).1, w :: W.past, W.cuts⟩ : PushRun).Steady vendor before c'
            lost := by
        rintro w rfl
        exact ⟨hpass, h.fair.mono (pushPlans_mono (List.subset_cons_self _ _)),
          h.knows.mono (List.subset_cons_self _ _), List.mem_cons_self, h.cuts⟩
      exact ⟨_, lost, hkept _ hsame⟩
  | cut =>
    rw [PushRun.step]
    split
    · exact ⟨c, lost, h⟩
    · -- what the pass was at is lost, which is one entry at most
      refine ⟨⟨[], none, .rest⟩, _, rfl, h.fair.cut, ?_, h.seen, ?_⟩
      · exact ⟨fun _ hn => absurd hn List.not_mem_nil, fun _ _ heq => (nomatch heq),
          fun _ _ heq => (nomatch heq), h.knows.attempts⟩
      · have hone : ((c.drainer.current.map Prod.fst).toList).length ≤ 1 := by
          cases c.drainer.current <;> simp
        have hcuts := h.cuts
        rw [List.length_append]
        change _ ≤ W.cuts + 1
        omega
  | other b =>
    -- others neither stamp nor attempt, and the rows of the pass stay
    have hpast : W.past ⊆ b.act W.world :: W.past := List.subset_cons_self _ _
    refine ⟨c, lost, h.pass, ?_, ?_, List.mem_cons_self, h.cuts⟩
    · have hsame : (b.act W.world).outbox = W.world.outbox := by
        have hdone : {k | (b.act W.world).Pushed k} = {k | W.world.Pushed k} :=
          Set.ext fun k => b.pushed W.world k
        rw [PushWorld.outbox, hdone, b.attempts]
        rfl
      rw [PushRun.step, hsame]
      exact h.fair.mono (pushPlans_mono hpast)
    · have hknows := h.knows.mono hpast
      refine ⟨fun n hn => (hknows.queue n hn).imp_right (b.stays W.world n.id),
        fun n subs heq => ?_, hknows.asked, ?_⟩
      · obtain ⟨hpicked, hhas, hsubs⟩ := hknows.current n subs heq
        exact ⟨hpicked, b.stays W.world n.id hhas, hsubs⟩
      · rw [PushRun.step]
        intro a ha
        rw [b.attempts] at ha
        exact hknows.attempts a ha

/-- Every run keeps it. -/
theorem steady_run (keyPath : String) (vendor : ℕ → PushOutcome) (p : PushRoom) (now : ℤ)
    (steps : List PushStep) :
    ∃ c lost, ((fresh p now).run keyPath vendor steps).Steady vendor
      {k | (fresh p now).world.Pushed k} c lost := by
  have hrun : ∀ W : PushRun, (∃ c lost, W.Steady vendor {k | (fresh p now).world.Pushed k} c lost) →
      ∃ c lost, (W.run keyPath vendor steps).Steady vendor
        {k | (fresh p now).world.Pushed k} c lost := by
    induction steps with
    | nil => exact fun W h => h
    | cons e steps ih =>
      rintro W ⟨c, lost, h⟩
      exact ih _ (h.step keyPath e)
  exact hrun _ ⟨_, _, steady_fresh vendor p now⟩

end PushRun

/-! ### Every run -/

open PushRun

/-- In every run a notification goes to a subscription at most once more often than a pass has been
cut off at it, and each cut is at one notification at most. -/
theorem push_at_most_once (keyPath : String) (vendor : ℕ → PushOutcome) (p : PushRoom) (now : ℤ)
    (steps : List PushStep) :
    let W := (fresh p now).run keyPath vendor steps
    ∃ lost : List ℕ, lost.length ≤ W.cuts ∧ ∀ k sub,
      W.world.attempts.countP (fun a => a.notification == k && a.subscription.id == sub) ≤
        lost.count k + 1 := by
  intro W
  obtain ⟨c, lost, h⟩ := steady_run keyPath vendor p now steps
  refine ⟨lost, h.cuts, fun k sub => ?_⟩
  have hcount := h.fair.count_le k sub
  rw [PushWorld.outbox, List.count, List.countP_map] at hcount
  exact hcount

section

variable {vendor : ℕ → PushOutcome} {n : NotificationRow} {w w₁ w' : PushWorld}
  {stamped stamped' : List NotificationRow} {more more' : List PushAttempt}

/-- What a part of a pass does when nothing disturbs it. Its rows are stamped; the attempts `more`
are made, which reach all subscriptions that are left, for what is not muted; and a subscription
goes exactly if it is answered that it is gone. -/
structure Pushes (vendor : ℕ → PushOutcome) (stamped : List NotificationRow)
    (more : List PushAttempt) (w w' : PushWorld) : Prop where
  notifications : w'.notifications.rows = w.notifications.rows.map fun r =>
    if r.id ∈ stamped.map NotificationRow.id then { r with pushedAt := some w.now } else r
  mutes : w'.mutes = w.mutes
  now : w'.now = w.now
  attempts : w'.attempts = w.attempts ++ more
  subscriptions : ∀ s, s ∈ w'.subscriptions ↔ s ∈ w.subscriptions ∧
    ∀ i a, more[i]? = some a → a.subscription.id = s.id →
      (vendor (w.attempts.length + i)).keeps = true
  made : ∀ a ∈ more, ∃ n ∈ stamped, ¬ w.Muted n ∧ ∃ s ∈ w.subscriptionsOf n.user, a = attemptOf n s
  reached : ∀ n ∈ stamped, ¬ w.Muted n → ∀ s ∈ w'.subscriptionsOf n.user, attemptOf n s ∈ more

theorem muted_of_mutes (h : w'.mutes = w.mutes) : w'.Muted n ↔ w.Muted n := by
  rw [PushWorld.Muted, PushWorld.Muted, Mailroom.mutedTypes, Mailroom.mutedTypes, h]

theorem mem_subscriptionsOf {s : PushSubscription} {user : ℕ} :
    s ∈ w.subscriptionsOf user ↔ s ∈ w.subscriptions ∧ s.user = user := by
  rw [PushRoom.subscriptionsOf, List.mem_filter, beq_iff_eq, Table.mem_rows]

/-- Nothing is done for no rows. -/
theorem pushes_nil (vendor : ℕ → PushOutcome) (w : PushWorld) : Pushes vendor [] [] w w where
  notifications := by simp
  mutes := rfl
  now := rfl
  attempts := (List.append_nil _).symm
  subscriptions s := by simp
  made a ha := absurd ha List.not_mem_nil
  reached n hn := absurd hn List.not_mem_nil

/-- One part after another. -/
theorem Pushes.trans (h : Pushes vendor stamped more w w₁) (h' : Pushes vendor stamped' more' w₁ w') :
    Pushes vendor (stamped ++ stamped') (more ++ more') w w' where
  notifications := by
    rw [h'.notifications, h.notifications, List.map_map]
    refine List.map_congr_left fun r _ => ?_
    rw [Function.comp_apply, List.map_append, h.now]
    by_cases hr : r.id ∈ stamped.map NotificationRow.id
    · -- a row that is stamped again has the same stamp: the clock of a pass does not move
      rw [if_pos hr, if_pos (List.mem_append_left _ hr)]
      split <;> rfl
    · rw [if_neg hr]
      refine if_congr ?_ rfl rfl
      exact ⟨List.mem_append_right _, fun hmem => (List.mem_append.mp hmem).resolve_left hr⟩
  mutes := h'.mutes.trans h.mutes
  now := h'.now.trans h.now
  attempts := by rw [h'.attempts, h.attempts, List.append_assoc]
  subscriptions s := by
    rw [h'.subscriptions, h.subscriptions, and_assoc, h.attempts, List.length_append]
    refine and_congr_right fun _ => ⟨fun hboth i a ha hid => ?_, fun hall => ⟨fun i a ha hid => ?_,
      fun i a ha hid => ?_⟩⟩
    -- an attempt is one of the first part or, so many further on, one of the second
    · rcases Nat.lt_or_ge i more.length with hlt | hge
      · rw [List.getElem?_append_left hlt] at ha
        exact hboth.1 i a ha hid
      · rw [List.getElem?_append_right hge] at ha
        have hkeeps := hboth.2 (i - more.length) a ha hid
        rwa [Nat.add_assoc, Nat.add_sub_cancel' hge] at hkeeps
    · have hlt : i < more.length := (List.getElem?_eq_some_iff.mp ha).1
      exact hall i a (by rw [List.getElem?_append_left hlt, ha]) hid
    · rw [Nat.add_assoc]
      refine hall (more.length + i) a ?_ hid
      rw [List.getElem?_append_right (Nat.le_add_right _ _), Nat.add_sub_cancel_left, ha]
  made a ha := by
    rcases List.mem_append.mp ha with ha | ha
    · obtain ⟨n, hn, hrest⟩ := h.made a ha
      exact ⟨n, List.mem_append_left _ hn, hrest⟩
    · obtain ⟨n, hn, hmuted, s, hs, heq⟩ := h'.made a ha
      obtain ⟨hs, huser⟩ := mem_subscriptionsOf.mp hs
      exact ⟨n, List.mem_append_right _ hn, fun hm => hmuted ((muted_of_mutes h.mutes).mpr hm), s,
        mem_subscriptionsOf.mpr ⟨((h.subscriptions s).mp hs).1, huser⟩, heq⟩
  reached n hn hmuted s hs := by
    rcases List.mem_append.mp hn with hn | hn
    · obtain ⟨hs, huser⟩ := mem_subscriptionsOf.mp hs
      exact List.mem_append_left _ (h.reached n hn hmuted s
        (mem_subscriptionsOf.mpr ⟨((h'.subscriptions s).mp hs).1, huser⟩))
    · exact List.mem_append_right _
        (h'.reached n hn (fun hm => hmuted ((muted_of_mutes h.mutes).mp hm)) s hs)

/-- The attempts for one notification. -/
theorem run_pushToAll (vendor : ℕ → PushOutcome) (n : NotificationRow) (subs : List PushSubscription)
    (w : PushWorld) :
    ∃ w', (pushToAll vendor n subs).run w = (.ok ⟨⟩, w') ∧ w'.notifications = w.notifications ∧
      w'.mutes = w.mutes ∧ w'.now = w.now ∧ w'.attempts = w.attempts ++ subs.map (attemptOf n) ∧
      ∀ s, s ∈ w'.subscriptions ↔ s ∈ w.subscriptions ∧ ∀ i sub, subs[i]? = some sub →
        sub.id = s.id → (vendor (w.attempts.length + i)).keeps = true := by
  induction subs generalizing w with
  | nil => exact ⟨w, rfl, rfl, rfl, rfl, (List.append_nil _).symm, fun s => by simp⟩
  | cons sub subs ih =>
    -- the world after the attempt at the first subscription
    obtain ⟨w₁, hrun, hnotes, hmutes, hnow, hattempts, hsubs⟩ : ∃ w₁,
        (sendOne vendor n sub >>= fun keeps =>
          if (!keeps) = true then pruneSubscription sub else pure ⟨⟩).run w = (.ok ⟨⟩, w₁) ∧
        w₁.notifications = w.notifications ∧ w₁.mutes = w.mutes ∧ w₁.now = w.now ∧
        w₁.attempts = w.attempts ++ [attemptOf n sub] ∧ ∀ s, s ∈ w₁.subscriptions ↔
          s ∈ w.subscriptions ∧ (sub.id = s.id → (vendor w.attempts.length).keeps = true) := by
      unfold sendOne
      rw [Prog.run_modifyGet_bind]
      cases hkeeps : (vendor w.attempts.length).keeps with
      | true => exact ⟨_, rfl, rfl, rfl, rfl, rfl, fun s => by simp⟩
      | false =>
        refine ⟨_, rfl, rfl, rfl, rfl, rfl, fun s => Table.mem_delete.trans ?_⟩
        rw [beq_eq_false_iff_ne]
        simp [eq_comm]
    obtain ⟨w', hrest, hnotes', hmutes', hnow', hattempts', hsubs'⟩ := ih w₁
    refine ⟨w', ?_, hnotes'.trans hnotes, hmutes'.trans hmutes, hnow'.trans hnow, ?_, fun s => ?_⟩
    · exact (Prog.run_bind_of_ok hrun).trans hrest
    · rw [hattempts', hattempts, List.append_assoc]
      rfl
    · rw [hsubs', hsubs, and_assoc, hattempts, List.length_append, List.length_singleton]
      refine and_congr_right fun _ => ⟨fun hboth i t ht hid => ?_, fun hall => ⟨fun hid => ?_,
        fun i t ht hid => ?_⟩⟩
      · cases i with
        | zero =>
          cases ht
          exact hboth.1 hid
        | succ i =>
          have hkeeps := hboth.2 i t ht hid
          rwa [Nat.add_assoc, Nat.add_comm 1 i] at hkeeps
      · exact hall 0 sub rfl hid
      · have hkeeps := hall (i + 1) t ht hid
        rwa [← Nat.add_comm 1 i, ← Nat.add_assoc] at hkeeps

theorem run_pushRow (vendor : ℕ → PushOutcome) (n : NotificationRow) (w : PushWorld) :
    ∃ w' more, (pushRow vendor n).run w = (.ok (decide (¬ w.Muted n)), w') ∧
      Pushes vendor [n] more w w' := by
  have hstamp : ∀ w : PushWorld, (w.stamp n).notifications.rows = w.notifications.rows.map fun r =>
      if r.id ∈ [n].map NotificationRow.id then { r with pushedAt := some w.now } else r := by
    intro w
    rw [PushWorld.stamp, Table.rows_update]
    refine List.map_congr_left fun r _ => ?_
    simp
  unfold pushRow
  rw [Prog.run_select_bind]
  by_cases hmuted : w.Muted n
  · rw [if_pos (List.contains_iff_mem.mpr hmuted)]
    refine ⟨w.stamp n, [], ?_, hstamp w, rfl, rfl, (List.append_nil _).symm, fun s => by simp; rfl,
      fun a ha => absurd ha List.not_mem_nil, fun m hm hnot => ?_⟩
    · rw [decide_eq_false (not_not.mpr hmuted)]
      rfl
    · rw [List.mem_singleton.mp hm] at hnot
      exact absurd hmuted hnot
  · rw [if_neg fun h => hmuted (List.contains_iff_mem.mp h), Prog.run_select_bind]
    obtain ⟨w₁, hrun, hnotes, hmutes, hnow, hattempts, hsubs⟩ :=
      run_pushToAll vendor n (w.subscriptionsOf n.user) w
    refine ⟨w₁.stamp n, (w.subscriptionsOf n.user).map (attemptOf n), ?_, ?_, hmutes, hnow,
      hattempts, fun s => (hsubs s).trans (and_congr_right fun _ => ?_), fun a ha => ?_,
      fun m hm hnot s hs => ?_⟩
    · rw [Prog.run_bind_of_ok hrun, decide_eq_true hmuted]
      rfl
    · rw [hstamp, hnotes, hnow]
    · constructor
      · intro h i a ha hid
        rw [List.getElem?_map] at ha
        obtain ⟨sub, hsub, rfl⟩ := Option.map_eq_some_iff.mp ha
        exact h i sub hsub hid
      · intro h i sub hsub hid
        exact h i (attemptOf n sub) (by rw [List.getElem?_map, hsub]; rfl) hid
    · obtain ⟨sub, hsub, rfl⟩ := List.mem_map.mp ha
      exact ⟨n, List.mem_singleton.mpr rfl, hmuted, sub, hsub, rfl⟩
    · rw [List.mem_singleton.mp hm] at hs ⊢
      obtain ⟨hs, huser⟩ := mem_subscriptionsOf.mp hs
      exact List.mem_map_of_mem (mem_subscriptionsOf.mpr ⟨((hsubs s).mp hs).1, huser⟩)

theorem run_pushRows (vendor : ℕ → PushOutcome) (rows : List NotificationRow) (sent : ℕ)
    (w : PushWorld) :
    ∃ w' more, (pushRows vendor rows sent).run w =
        (.ok (sent + rows.countP fun n => decide (¬ w.Muted n)), w') ∧
      Pushes vendor rows more w w' := by
  induction rows generalizing sent w with
  | nil => exact ⟨w, [], rfl, pushes_nil vendor w⟩
  | cons n rows ih =>
    obtain ⟨w₁, more, hrun, hpushes⟩ := run_pushRow vendor n w
    obtain ⟨w', more', hrest, hpushes'⟩ := ih (if ¬ w.Muted n then sent + 1 else sent) w₁
    refine ⟨w', more ++ more', ?_, hpushes.trans hpushes'⟩
    have hsame : (fun m => decide (¬ w₁.Muted m)) = fun m => decide (¬ w.Muted m) :=
      funext fun m => decide_eq_decide.mpr (not_congr (muted_of_mutes hpushes.mutes))
    rw [pushRows, Prog.run_bind_of_ok hrun, List.countP_cons]
    by_cases hmuted : w.Muted n
    · simp only [hmuted, not_true_eq_false, decide_false, Bool.false_eq_true, if_false] at hrest ⊢
      rw [hsame] at hrest
      exact hrest
    · simp only [hmuted, not_false_eq_true, decide_true, if_true] at hrest ⊢
      rw [hsame] at hrest
      rw [hrest]
      congr 2
      omega

end

/-- A pass that nothing disturbs stamps what it started with and nothing else, pushes what is not
muted to every subscription that is left, counts it, and leaves nothing for another pass. -/
theorem push_pass_settles {keyPath : String} (hkey : keyPath ≠ "") (vendor : ℕ → PushOutcome)
    (w : PushWorld) :
    ∃ w' more, (sendPushOutbox keyPath vendor).run w =
        (.ok (w.candidates.countP fun n => decide (¬ w.Muted n)), w') ∧
      Pushes vendor w.candidates more w w' ∧ w'.candidates = [] := by
  obtain ⟨w', more, hrun, hpushes⟩ := run_pushRows vendor w.candidates 0 w
  refine ⟨w', more, ?_, hpushes, List.eq_nil_iff_forall_not_mem.mpr fun n hn => ?_⟩
  · rw [sendPushOutbox, if_neg hkey, Prog.run_select_bind, hrun, Nat.zero_add]
  · -- a row of the next pass would have been one of this pass, and stamped
    obtain ⟨hmem, hcond⟩ := List.mem_filter.mp (List.mem_mergeSort.mp hn)
    rw [hpushes.notifications, List.mem_map] at hmem
    obtain ⟨r, hr, rfl⟩ := hmem
    rw [hpushes.now] at hcond
    split at hcond
    · simp at hcond
    · rename_i hnew
      exact hnew (List.mem_map_of_mem (List.mem_mergeSort.mpr (List.mem_filter.mpr ⟨hr, hcond⟩)))

namespace Campus

/-- A conflict of rooms for a user with two browsers, and for one who has muted rooms. -/
def browsers : PushWorld where
  notifications := (((Table.empty.insert fun pk =>
    ⟨pk, 7, "room_conflict", "Room conflict", "R401", "", none, none, 0⟩).insert fun pk =>
      ⟨pk, 8, "room_conflict", "Room conflict", "R401", "", none, none, 0⟩) : Table NotificationRow)
  mutes := (Table.empty.insert fun pk => ⟨pk, 8, "room"⟩ : Table NotificationMute)
  subscriptions := ((Table.empty.insert fun pk =>
    ⟨pk, 7, "https://push.example/a", .null⟩).insert fun pk =>
      ⟨pk, 7, "https://push.example/b", .null⟩ : Table PushSubscription)
  now := 60000000
  attempts := []

/-- The first endpoint is gone. -/
def vendors (k : ℕ) : PushOutcome := if k = 0 then .refused (some 410) else .delivered

end Campus

open Campus in
theorem push_pass_settles_browsers :
    ∃ w' more, (sendPushOutbox "vapid.pem" vendors).run browsers = (.ok 1, w') ∧
      Pushes vendors browsers.candidates more browsers w' ∧ w'.candidates = [] := by
  have hcount : (browsers.candidates.countP fun n => decide (¬ browsers.Muted n)) = 1 :=
    ((List.mergeSort_perm _ _).countP_eq _).trans (by decide +kernel)
  obtain ⟨w', more, hrun, hpushes, hnone⟩ :=
    push_pass_settles (show "vapid.pem" ≠ "" by decide) vendors browsers
  exact ⟨w', more, hcount ▸ hrun, hpushes, hnone⟩

end FluxTrack
