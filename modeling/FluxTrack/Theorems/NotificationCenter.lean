import FluxTrack.Theorems.PushOutbox

/-!
# The notification center

The requests that users make to it, one after another and beside the passes that push. Each of them
is one of the bystanders of a pass.

## Main definitions

* `CenterRequest`, `CenterRequest.bystander` — the requests
* `CenterRun` — requests and passes, with what has been shown to whom
* `PushRoom.binding` — the map from endpoints to subscribers that the subscriptions are

## Main results

* `badge_counts_unseen` — what the badge counts
* `subscriptions_refine_map` — the subscriptions are a map from endpoints to their last subscribers
-/

namespace FluxTrack

open Relational Process

/-! ### Requests -/

/-- A request of a user, notifications from elsewhere, or time that passes. -/
inductive CenterRequest
  | bell (user : ℕ)
  | dropdown (user : ℕ)
  | listPage (user : ℕ)
  | muteToggle (user : ℕ) (category : String)
  | subscribe (user : ℕ) (body : List UInt8)
  | unsubscribe (user : ℕ) (body : List UInt8)
  | notify (type title body link : String) (recipients : List ℕ)
  | clock (now : ℤ)

/-- The rows of the mailroom are replaced. -/
def PushWorld.withMail (w : PushWorld) (m : Mailroom) : PushWorld :=
  { w with notifications := m.notifications, mutes := m.mutes }

/-- The subscriptions are replaced. -/
def PushWorld.withSubscriptions (w : PushWorld) (p : PushRoom) : PushWorld :=
  { w with subscriptions := p.subscriptions }

namespace CenterRequest

variable (texts : PushTexts)

/-- What a request changes. -/
def act : CenterRequest → PushWorld → PushWorld
  | .bell _, w => w
  | .dropdown user, w => w.withMail (w.dropdown user w.now).2
  | .listPage user, w => w.withMail (w.listPage user w.now).2
  | .muteToggle user category, w => ((w.muteToggle user category).map w.withMail).getD w
  | .subscribe user body, w => w.withSubscriptions (w.toPushRoom.subscribe texts user body).2
  | .unsubscribe user body, w => w.withSubscriptions (w.toPushRoom.unsubscribe texts user body).2
  | .notify type title body link recipients, w =>
    w.withMail (w.notify type title body link recipients w.now)
  | .clock now, w => { w with now := now }

/-- What a request shows for good: to whom, and which notifications. -/
def shows (w : PushWorld) : CenterRequest → List (ℕ × ℕ)
  | .dropdown user => (w.dropdown user w.now).1.map fun n => (user, n.id)
  | .listPage user => (w.listPage user w.now).1.map fun n => (user, n.id)
  | _ => []

end CenterRequest

section

variable {w w' : PushWorld} {n : NotificationRow} {texts : PushTexts}

/-- The notifications are the same but for their stamps. -/
structure SameMail (w w' : PushWorld) : Prop where
  rows : ∀ n' ∈ w'.notifications, ∃ n ∈ w.notifications,
    n'.id = n.id ∧ n'.user = n.user ∧ n'.readAt = n.readAt
  stays : ∀ k, w.notifications.Has k → w'.notifications.Has k

theorem SameMail.of_eq (h : w'.notifications = w.notifications) : SameMail w w' where
  rows n' hn' := ⟨n', h ▸ hn', rfl, rfl, rfl⟩
  stays _ hk := h ▸ hk

theorem sameMail_stamp (w : PushWorld) (n : NotificationRow) : SameMail w (w.stamp n) where
  rows n' hn' := by
    obtain ⟨r, hr, rfl⟩ := (Table.mem_update_iff (by intro _; rfl)).mp hn'
    refine ⟨r, hr, ?_⟩
    split <;> exact ⟨rfl, rfl, rfl⟩
  stays k hk := (Table.has_update_iff (by intro _; rfl)).mpr hk

/-- A pass does not read for anybody. -/
theorem PassMove.sameMail {vendor : ℕ → PushOutcome} {c c' : PassState}
    (h : PassMove vendor c w w' c') : SameMail w w' := by
  cases h with
  | @stamp _ n q => exact sameMail_stamp w n
  | collect | mute | ask | list | send | prune => exact .of_eq rfl

end

section

variable {m : Mailroom} {user : ℕ}

/-- The pages show notifications of the user. -/
theorem mem_visible {n : NotificationRow} :
    n ∈ m.visible user ↔ n ∈ m.notifications ∧ m.shows user n = true := by
  rw [Mailroom.visible, List.mem_mergeSort, List.mem_filter, Table.mem_rows]

/-- What has been marked as read. -/
theorem mem_markRead {shown : List ℕ} {now : ℤ} {n' : NotificationRow} :
    n' ∈ (m.markRead user shown now).notifications ↔ ∃ n ∈ m.notifications,
      (if n.user = user ∧ n.id ∈ shown ∧ n.readAt = none then { n with readAt := some now } else n) =
        n' := by
  rw [Mailroom.markRead]
  refine (Table.mem_update_iff (by intro _; rfl)).trans (exists_congr fun n => and_congr_right fun _ => ?_)
  have hcond : (n.user == user && shown.contains n.id && n.readAt.isNone) = true ↔
      n.user = user ∧ n.id ∈ shown ∧ n.readAt = none := by
    rw [Bool.and_eq_true, Bool.and_eq_true, beq_iff_eq, List.contains_iff_mem,
      Option.isNone_iff_eq_none, and_assoc]
  rw [if_congr hcond rfl rfl]

theorem has_markRead {shown : List ℕ} {now : ℤ} {k : ℕ} :
    (m.markRead user shown now).notifications.Has k ↔ m.notifications.Has k :=
  Table.has_update_iff (by intro _; rfl)

/-- The notifications that are sent are new ones, neither read nor pushed. -/
theorem mem_notify {type title body link : String} {recipients : List ℕ} {now : ℤ}
    {n : NotificationRow} (h : n ∈ (m.notify type title body link recipients now).notifications) :
    n ∈ m.notifications ∨ (¬ m.notifications.Has n.id ∧ n.readAt = none ∧ n.pushedAt = none) := by
  unfold Mailroom.notify at h
  induction recipients generalizing m with
  | nil => exact .inl h
  | cons user recipients ih =>
    rcases ih h with hmem | ⟨hhas, hnew⟩
    · rcases Table.mem_insert.mp hmem with hmem | rfl
      · exact .inl hmem
      · refine .inr ⟨?_, rfl, rfl⟩
        rintro ⟨r, hr, hid⟩
        exact absurd hid (Nat.ne_of_lt (Table.key_lt_nextKey hr))
    · exact .inr ⟨fun hold => hhas (Table.has_insert.mpr (.inl hold)), hnew⟩

theorem stays_notify {type title body link : String} {recipients : List ℕ} {now : ℤ}
    {n : NotificationRow} (h : n ∈ m.notifications) :
    n ∈ (m.notify type title body link recipients now).notifications := by
  unfold Mailroom.notify
  induction recipients generalizing m with
  | nil => exact h
  | cons user recipients ih => exact ih (Table.mem_insert.mpr (.inl h))

theorem notifications_muteToggle {category : String} {m' : Mailroom}
    (h : m.muteToggle user category = some m') : m'.notifications = m.notifications := by
  unfold Mailroom.muteToggle at h
  split at h
  · cases h
  · split at h <;> cases h <;> rfl

end

/-! ### Requests are bystanders -/

section

variable {w w' : PushWorld}

theorem pushed_of_eq (h : w'.notifications = w.notifications) (k : ℕ) : w'.Pushed k ↔ w.Pushed k := by
  rw [PushWorld.Pushed, PushWorld.Pushed, h]

/-- Reading does not touch stamps. -/
theorem pushed_openPage (w : PushWorld) (limit user : ℕ) (k : ℕ) :
    (w.withMail (w.openPage limit user w.now).2).Pushed k ↔ w.Pushed k := by
  constructor
  · rintro ⟨n', hn', rfl, hpushed⟩
    obtain ⟨n, hn, rfl⟩ := mem_markRead.mp hn'
    refine ⟨n, hn, ?_, ?_⟩
    · split <;> rfl
    · split at hpushed <;> exact hpushed
  · rintro ⟨n, hn, rfl, hpushed⟩
    refine ⟨_, mem_markRead.mpr ⟨n, hn, rfl⟩, ?_, ?_⟩
    · split <;> rfl
    · split <;> exact hpushed

theorem pushed_notify (w : PushWorld) (type title body link : String) (recipients : List ℕ) (k : ℕ) :
    (w.withMail (w.notify type title body link recipients w.now)).Pushed k ↔ w.Pushed k := by
  constructor
  · rintro ⟨n, hn, hid, hpushed⟩
    rcases mem_notify hn with hmem | ⟨-, -, hnone⟩
    · exact ⟨n, hmem, hid, hpushed⟩
    · rw [hnone] at hpushed
      cases hpushed
  · rintro ⟨n, hn, hid, hpushed⟩
    exact ⟨n, stays_notify hn, hid, hpushed⟩

theorem notifications_act_muteToggle (w : PushWorld) (user : ℕ) (category : String) :
    (((w.muteToggle user category).map w.withMail).getD w).notifications = w.notifications := by
  cases h : w.muteToggle user category with
  | none => rfl
  | some m => exact notifications_muteToggle h

theorem attempts_act (texts : PushTexts) (e : CenterRequest) (w : PushWorld) :
    (e.act texts w).attempts = w.attempts := by
  cases e with
  | muteToggle user category =>
    rw [CenterRequest.act]
    cases w.muteToggle user category <;> rfl
  | _ => rfl

theorem pushed_act (texts : PushTexts) (e : CenterRequest) (w : PushWorld) (k : ℕ) :
    (e.act texts w).Pushed k ↔ w.Pushed k := by
  cases e with
  | bell user => exact Iff.rfl
  | dropdown user => exact pushed_openPage w previewLimit user k
  | listPage user => exact pushed_openPage w listLimit user k
  | muteToggle user category => exact pushed_of_eq (notifications_act_muteToggle w user category) k
  | subscribe user body => exact pushed_of_eq rfl k
  | unsubscribe user body => exact pushed_of_eq rfl k
  | notify type title body link recipients => exact pushed_notify w type title body link recipients k
  | clock now => exact pushed_of_eq rfl k

theorem stays_act (texts : PushTexts) (e : CenterRequest) (w : PushWorld) (k : ℕ)
    (h : w.notifications.Has k) : (e.act texts w).notifications.Has k := by
  cases e with
  | bell user => exact h
  | dropdown user => exact has_markRead.mpr h
  | listPage user => exact has_markRead.mpr h
  | muteToggle user category => exact notifications_act_muteToggle w user category ▸ h
  | subscribe user body => exact h
  | unsubscribe user body => exact h
  | notify type title body link recipients =>
    obtain ⟨n, hn, hid⟩ := h
    exact ⟨n, stays_notify hn, hid⟩
  | clock now => exact h

/-- A request, as what a pass may find beside it. -/
def CenterRequest.bystander (texts : PushTexts) (e : CenterRequest) : Bystander where
  act := e.act texts
  attempts := attempts_act texts e
  pushed := pushed_act texts e
  stays := stays_act texts e

end

/-! ### What has been shown -/

/-- Requests and passes, and which notifications have been shown to whom. -/
structure CenterRun where
  run : PushRun
  shown : List (ℕ × ℕ)

/-- What happens next. -/
inductive CenterStep
  | request (e : CenterRequest)
  /-- the scheduler starts a pass, it moves, or it is cut off -/
  | start
  | move
  | cut

namespace CenterRun

variable (texts : PushTexts) (keyPath : String) (vendor : ℕ → PushOutcome)

/-- One step. -/
def step (W : CenterRun) : CenterStep → CenterRun
  | .request e =>
    ⟨W.run.step keyPath vendor (.other (e.bystander texts)), W.shown ++ e.shows W.run.world⟩
  | .start => { W with run := W.run.step keyPath vendor .start }
  | .move => { W with run := W.run.step keyPath vendor .move }
  | .cut => { W with run := W.run.step keyPath vendor .cut }

/-- The steps in turn, from a mailroom to which nothing has happened. -/
def after (p : PushRoom) (now : ℤ) (steps : List CenterStep) : CenterRun :=
  steps.foldl (step texts keyPath vendor) ⟨.fresh p now, []⟩

end CenterRun

/-- The notifications that were read before. -/
def PushRoom.readBefore (p : PushRoom) : List ℕ :=
  (p.notifications.rows.filter fun n => n.readAt.isSome).map NotificationRow.id

/-- What has not been shown has not been read, and what has been shown is there. -/
structure Unseen (before : List ℕ) (shown : List (ℕ × ℕ)) (w : PushWorld) : Prop where
  unread : ∀ n ∈ w.notifications, n.readAt = none ↔ (n.user, n.id) ∉ shown ∧ n.id ∉ before
  shown : ∀ p ∈ shown, w.notifications.Has p.2
  before : ∀ k ∈ before, w.notifications.Has k

section

variable {before : List ℕ} {shown : List (ℕ × ℕ)} {w w' : PushWorld}

theorem Unseen.same (h : Unseen before shown w) (hsame : SameMail w w') : Unseen before shown w' where
  unread n' hn' := by
    obtain ⟨n, hn, hid, huser, hread⟩ := hsame.rows n' hn'
    rw [hid, huser, hread]
    exact h.unread n hn
  shown p hp := hsame.stays p.2 (h.shown p hp)
  before k hk := hsame.stays k (h.before k hk)

/-- A page shows notifications of the user and marks them. -/
theorem Unseen.openPage (h : Unseen before shown w) (limit user : ℕ) :
    Unseen before (shown ++ (w.openPage limit user w.now).1.map fun n => (user, n.id))
      (w.withMail (w.openPage limit user w.now).2) := by
  have hrows : ∀ n ∈ (w.openPage limit user w.now).1, n ∈ w.notifications := fun n hn =>
    (mem_visible.mp (List.mem_of_mem_take hn)).1
  have hids : ∀ k, k ∈ (w.openPage limit user w.now).1.map NotificationRow.id ↔
      (user, k) ∈ (w.openPage limit user w.now).1.map fun n => (user, n.id) := by
    intro k
    simp
  refine ⟨fun n' hn' => ?_, fun p hp => ?_, fun k hk => has_markRead.mpr (h.before k hk)⟩
  · obtain ⟨n, hn, rfl⟩ := mem_markRead.mp hn'
    have hold := h.unread n hn
    rw [List.mem_append, not_or]
    by_cases huser : n.user = user
    · by_cases hshown : n.id ∈ (w.openPage limit user w.now).1.map NotificationRow.id
      · -- shown now: it is read, if it was not before
        have hread : (if n.user = user ∧ n.id ∈ (w.openPage limit user w.now).1.map
            NotificationRow.id ∧ n.readAt = none then { n with readAt := some w.now } else n).readAt
              ≠ none := by
          split
          · exact Option.some_ne_none _
          · rename_i hnot
            exact fun hnone => hnot ⟨huser, hshown, hnone⟩
        refine ⟨fun hnone => absurd hnone hread, fun hnot => absurd ?_ hnot.1.2⟩
        have hmem := (hids n.id).mp hshown
        split <;> exact huser ▸ hmem
      · rw [if_neg fun hcond => hshown hcond.2.1]
        have hnot : (n.user, n.id) ∉ (w.openPage limit user w.now).1.map fun n => (user, n.id) := by
          rw [huser]
          exact fun hmem => hshown ((hids n.id).mpr hmem)
        rw [hold]
        exact ⟨fun hboth => ⟨⟨hboth.1, hnot⟩, hboth.2⟩, fun hboth => ⟨hboth.1.1, hboth.2⟩⟩
    · rw [if_neg fun hcond => huser hcond.1]
      have hnot : (n.user, n.id) ∉ (w.openPage limit user w.now).1.map fun n => (user, n.id) := by
        intro hmem
        obtain ⟨r, -, heq⟩ := List.mem_map.mp hmem
        exact huser (congrArg Prod.fst heq).symm
      rw [hold]
      exact ⟨fun hboth => ⟨⟨hboth.1, hnot⟩, hboth.2⟩, fun hboth => ⟨hboth.1.1, hboth.2⟩⟩
  · rcases List.mem_append.mp hp with hp | hp
    · exact has_markRead.mpr (h.shown p hp)
    · obtain ⟨n, hn, rfl⟩ := List.mem_map.mp hp
      exact has_markRead.mpr ⟨n, hrows n hn, rfl⟩

theorem Unseen.notify (h : Unseen before shown w) (type title body link : String)
    (recipients : List ℕ) :
    Unseen before shown (w.withMail (w.notify type title body link recipients w.now)) := by
  have hstays : ∀ k, w.notifications.Has k →
      (w.notify type title body link recipients w.now).notifications.Has k := by
    rintro k ⟨n, hn, hid⟩
    exact ⟨n, stays_notify hn, hid⟩
  refine ⟨fun n hn => ?_, fun p hp => hstays p.2 (h.shown p hp), fun k hk => hstays k (h.before k hk)⟩
  rcases mem_notify hn with hmem | ⟨hnew, hread, -⟩
  · exact h.unread n hmem
  · refine ⟨fun _ => ⟨fun hmem => hnew (h.shown _ hmem), fun hmem => hnew (h.before _ hmem)⟩,
      fun _ => hread⟩

theorem Unseen.request (h : Unseen before shown w) (texts : PushTexts) (e : CenterRequest) :
    Unseen before (shown ++ e.shows w) (e.act texts w) := by
  cases e with
  | dropdown user => exact h.openPage previewLimit user
  | listPage user => exact h.openPage listLimit user
  | notify type title body link recipients =>
    change Unseen before (shown ++ []) _
    rw [List.append_nil]
    exact h.notify type title body link recipients
  | muteToggle user category =>
    change Unseen before (shown ++ []) _
    rw [List.append_nil]
    exact h.same (.of_eq (notifications_act_muteToggle w user category))
  | bell | subscribe | unsubscribe | clock =>
    change Unseen before (shown ++ []) _
    rw [List.append_nil]
    exact h.same (.of_eq rfl)

end

namespace CenterRun

variable {texts : PushTexts} {keyPath : String} {vendor : ℕ → PushOutcome}

theorem unseen_start (p : PushRoom) (now : ℤ) :
    Unseen p.readBefore [] (PushRun.fresh p now).world where
  unread n hn := by
    refine ⟨fun hnone => ⟨List.not_mem_nil, fun hmem => ?_⟩, fun hnot => ?_⟩
    · obtain ⟨r, hr, hid⟩ := List.mem_map.mp hmem
      obtain ⟨hr, hread⟩ := List.mem_filter.mp hr
      rw [Table.eq_of_key_eq hr hn hid, hnone] at hread
      cases hread
    · by_contra hread
      exact hnot.2 (List.mem_map_of_mem
        (List.mem_filter.mpr ⟨hn, Option.isSome_iff_ne_none.mpr hread⟩))
  shown p hp := absurd hp List.not_mem_nil
  before k hk := by
    obtain ⟨n, hn, hid⟩ := List.mem_map.mp hk
    exact ⟨n, (List.mem_filter.mp hn).1, hid⟩

/-- Every step keeps the two invariants. -/
theorem unseen_step {before : Set ℕ} {read : List ℕ} {W : CenterRun} {c : PassState} {lost : List ℕ}
    (hsteady : W.run.Steady vendor before c lost) (h : Unseen read W.shown W.run.world)
    (e : CenterStep) :
    (∃ c' lost', (W.step texts keyPath vendor e).run.Steady vendor before c' lost') ∧
      Unseen read (W.step texts keyPath vendor e).shown (W.step texts keyPath vendor e).run.world := by
  cases e with
  | request e => exact ⟨hsteady.step keyPath (.other (e.bystander texts)), h.request texts e⟩
  | start =>
    refine ⟨hsteady.step keyPath .start, h.same (.of_eq ?_)⟩
    rw [CenterRun.step, PushRun.step]
    split <;> rfl
  | move =>
    refine ⟨hsteady.step keyPath .move, h.same ?_⟩
    obtain ⟨c', hmove, -⟩ := hsteady.pass.move W.run.world
    rcases hmove with hmove | ⟨-, hsame⟩
    · exact hmove.sameMail
    · exact .of_eq (congrArg (fun w : PushWorld => w.notifications) hsame)
  | cut =>
    refine ⟨hsteady.step keyPath .cut, h.same (.of_eq ?_)⟩
    rw [CenterRun.step, PushRun.step]
    split <;> rfl

/-- Every run keeps them. -/
theorem unseen_after (texts : PushTexts) (keyPath : String) (vendor : ℕ → PushOutcome) (p : PushRoom)
    (now : ℤ) (steps : List CenterStep) :
    Unseen p.readBefore (after texts keyPath vendor p now steps).shown
      (after texts keyPath vendor p now steps).run.world := by
  have hrun : ∀ W : CenterRun, (∃ c lost, W.run.Steady vendor
      {k | (PushRun.fresh p now).world.Pushed k} c lost) → Unseen p.readBefore W.shown W.run.world →
        Unseen p.readBefore (steps.foldl (step texts keyPath vendor) W).shown
          (steps.foldl (step texts keyPath vendor) W).run.world := by
    induction steps with
    | nil => exact fun W _ h => h
    | cons e steps ih =>
      rintro W ⟨c, lost, hsteady⟩ h
      obtain ⟨hsteady', h'⟩ := unseen_step hsteady h e
      exact ih _ hsteady' h'
  exact hrun _ ⟨_, _, PushRun.steady_fresh vendor p now⟩ (unseen_start p now)

end CenterRun

open CenterRun in
/-- In every run the badge of a user counts the notifications of the user, of types that are not
muted now, that have never been shown to the user on a page and were not read before. -/
theorem badge_counts_unseen (texts : PushTexts) (keyPath : String) (vendor : ℕ → PushOutcome)
    (p : PushRoom) (now : ℤ) (steps : List CenterStep) (user : ℕ) :
    let W := after texts keyPath vendor p now steps
    W.run.world.unreadCount user = W.run.world.notifications.rows.countP fun n =>
      W.run.world.shows user n && !W.shown.contains (user, n.id) &&
        !p.readBefore.contains n.id := by
  intro W
  have hunseen := unseen_after texts keyPath vendor p now steps
  rw [Mailroom.unreadCount, Mailroom.visible,
    (List.mergeSort_perm (W.run.world.notifications.rows.filter (W.run.world.shows user))
      _).countP_eq, List.countP_filter]
  refine List.countP_congr fun n hn => ?_
  have hread := hunseen.unread n hn
  simp only [Bool.and_eq_true, Option.isNone_iff_eq_none, Bool.not_eq_true', ← Bool.not_eq_true,
    List.contains_iff_mem]
  constructor
  · rintro ⟨hnone, hshows⟩
    have huser : n.user = user := beq_iff_eq.mp (Bool.and_eq_true_iff.mp hshows).1
    obtain ⟨hshown, hbefore⟩ := hread.mp hnone
    exact ⟨⟨hshows, huser ▸ hshown⟩, hbefore⟩
  · rintro ⟨⟨hshows, hshown⟩, hbefore⟩
    have huser : n.user = user := beq_iff_eq.mp (Bool.and_eq_true_iff.mp hshows).1
    exact ⟨hread.mpr ⟨huser.symm ▸ hshown, hbefore⟩, hshows⟩

/-! ### Subscriptions -/

/-- Endpoints are unique, and what is stored has been accepted. -/
structure PushRoom.Sound (texts : PushTexts) (p : PushRoom) : Prop where
  unique : p.subscriptions.Unique fun s => texts.collate s.endpoint
  valid : ∀ s ∈ p.subscriptions, validSubscription s.endpoint s.keys = true

/-- The subscriber of an endpoint, and the keys. -/
def PushRoom.binding (texts : PushTexts) (p : PushRoom) (endpoint : String) : Option (ℕ × Json) :=
  (p.subscriptions.rows.find? fun s => texts.collate s.endpoint == endpoint).map fun s =>
    (s.user, s.keys)

/-- What a body subscribes, if it is accepted. -/
def offered (texts : PushTexts) (body : List UInt8) : Option (String × Json) :=
  match (parseJson texts body).get? "endpoint" (.text ""),
    (parseJson texts body).get? "keys" (.object []) with
  | some (.text endpoint), some keys =>
    if validSubscription endpoint keys then some (endpoint, keys) else none
  | _, _ => none

/-- The endpoint that a body gives up. -/
def givenUp (texts : PushTexts) (body : List UInt8) : Option String :=
  ((parseJson texts body).get? "endpoint" (.text "")).bind fun endpoint =>
    if endpoint.truthy then
      some (match endpoint with
        | .text s => s
        | other => texts.str other)
    else none

/-- A request on the map: the last subscriber of an endpoint has it, until it is given up by the
user who has it. A new endpoint must fit its column. -/
def bindingAfter (texts : PushTexts) (b : String → Option (ℕ × Json)) :
    CenterRequest → String → Option (ℕ × Json)
  | .subscribe user body =>
    match offered texts body with
    | none => b
    | some (endpoint, keys) =>
      if (b (texts.collate endpoint)).isSome || decide (endpoint.length ≤ 500) then
        Function.update b (texts.collate endpoint) (some (user, keys))
      else b
  | .unsubscribe user body =>
    match givenUp texts body with
    | none => b
    | some endpoint =>
      if (b (texts.collate endpoint)).map Prod.fst = some user then
        Function.update b (texts.collate endpoint) none
      else b
  | _ => b

section

variable {texts : PushTexts} {p : PushRoom} {user : ℕ}

theorem binding_eq_some {endpoint : String} {v : ℕ × Json} (h : p.Sound texts) :
    p.binding texts endpoint = some v ↔ ∃ s ∈ p.subscriptions, texts.collate s.endpoint = endpoint ∧
      (s.user, s.keys) = v := by
  rw [PushRoom.binding, Option.map_eq_some_iff]
  constructor
  · rintro ⟨s, hs, rfl⟩
    have hfound := List.find?_some hs
    exact ⟨s, List.mem_of_find?_eq_some hs, beq_iff_eq.mp hfound, rfl⟩
  · rintro ⟨s, hs, rfl, rfl⟩
    exact ⟨s, h.unique.find? hs, rfl⟩

theorem binding_eq_none {endpoint : String} :
    p.binding texts endpoint = none ↔ ∀ s ∈ p.subscriptions, texts.collate s.endpoint ≠ endpoint := by
  rw [PushRoom.binding, Option.map_eq_none_iff, List.find?_eq_none]
  exact forall₂_congr fun s _ => not_congr beq_iff_eq

/-- Two maps agree if they have the same values. -/
theorem eq_of_some {α β : Type} {f g : α → Option β} (h : ∀ a b, f a = some b ↔ g a = some b) :
    f = g :=
  funext fun a => Option.ext fun b => h a b

/-- An endpoint that nobody has is added. -/
theorem binding_insert (h : p.Sound texts) {endpoint : String} {keys : Json}
    (hnew : p.binding texts (texts.collate endpoint) = none)
    (hvalid : validSubscription endpoint keys = true) :
    let p' : PushRoom := { p with
      subscriptions := p.subscriptions.insert fun pk => ⟨pk, user, endpoint, keys⟩ }
    p'.Sound texts ∧ p'.binding texts =
      Function.update (p.binding texts) (texts.collate endpoint) (some (user, keys)) := by
  intro p'
  have hfree := binding_eq_none.mp hnew
  have hsound : p'.Sound texts := by
    refine ⟨h.unique.insert hfree, fun s hs => ?_⟩
    rcases Table.mem_insert.mp hs with hs | rfl
    · exact h.valid s hs
    · exact hvalid
  refine ⟨hsound, eq_of_some fun e v => ?_⟩
  rw [binding_eq_some hsound]
  by_cases he : e = texts.collate endpoint
  · rw [he, Function.update_self, Option.some.injEq]
    constructor
    · rintro ⟨s, hs, hsame, rfl⟩
      rcases Table.mem_insert.mp hs with hs | rfl
      · exact absurd hsame (hfree s hs)
      · rfl
    · rintro rfl
      exact ⟨_, Table.mem_insert.mpr (.inr rfl), rfl, rfl⟩
  · rw [Function.update_of_ne he, binding_eq_some h]
    constructor
    · rintro ⟨s, hs, rfl, rfl⟩
      rcases Table.mem_insert.mp hs with hs | rfl
      · exact ⟨s, hs, rfl, rfl⟩
      · exact absurd rfl he
    · rintro ⟨s, hs, rfl, rfl⟩
      exact ⟨s, Table.mem_insert.mpr (.inl hs), rfl, rfl⟩

/-- An endpoint changes hands. -/
theorem binding_rebind (h : p.Sound texts) {endpoint : String} {keys : Json} {s : PushSubscription}
    (hs : s ∈ p.subscriptions) (hsame : texts.collate s.endpoint = texts.collate endpoint)
    (hvalid : validSubscription s.endpoint keys = true) :
    let p' : PushRoom := { p with
      subscriptions := p.subscriptions.update (fun r => r.id == s.id) fun r =>
        { r with user := user, keys := keys } }
    p'.Sound texts ∧ p'.binding texts =
      Function.update (p.binding texts) (texts.collate endpoint) (some (user, keys)) := by
  intro p'
  have hmem : ∀ r', r' ∈ p'.subscriptions ↔ ∃ r ∈ p.subscriptions,
      (if r.id == s.id then { r with user := user, keys := keys } else r) = r' := fun r' =>
    Table.mem_update_iff (by intro _; rfl)
  have hrow : ∀ r ∈ p.subscriptions, (r.id == s.id) = true → r = s := fun r hr hid =>
    Table.eq_of_key_eq hr hs (beq_iff_eq.mp hid)
  have hsound : p'.Sound texts := by
    refine ⟨h.unique.update_of (by intro _; rfl) fun _ => rfl, fun r' hr' => ?_⟩
    obtain ⟨r, hr, rfl⟩ := (hmem r').mp hr'
    split
    · rename_i hid
      exact hrow r hr hid ▸ hvalid
    · exact h.valid r hr
  refine ⟨hsound, eq_of_some fun e v => ?_⟩
  rw [binding_eq_some hsound]
  by_cases he : e = texts.collate endpoint
  · rw [he, Function.update_self, Option.some.injEq]
    constructor
    · rintro ⟨r', hr', hsame', rfl⟩
      obtain ⟨r, hr, rfl⟩ := (hmem r').mp hr'
      by_cases hid : (r.id == s.id) = true
      · rw [if_pos hid]
      · -- another row with the endpoint would be the same row
        rw [if_neg hid] at hsame'
        rw [h.unique r hr s hs (hsame'.trans hsame.symm), beq_self_eq_true] at hid
        exact absurd rfl hid
    · rintro rfl
      exact ⟨_, (hmem _).mpr ⟨s, hs, if_pos (beq_self_eq_true s.id)⟩, hsame, rfl⟩
  · rw [Function.update_of_ne he, binding_eq_some h]
    constructor
    · rintro ⟨r', hr', rfl, rfl⟩
      obtain ⟨r, hr, rfl⟩ := (hmem r').mp hr'
      by_cases hid : (r.id == s.id) = true
      · rw [if_pos hid, hrow r hr hid] at he
        exact absurd hsame he
      · rw [if_neg hid]
        exact ⟨r, hr, rfl, rfl⟩
    · rintro ⟨r, hr, rfl, rfl⟩
      refine ⟨r, (hmem r).mpr ⟨r, hr, if_neg fun hid => he ?_⟩, rfl, rfl⟩
      rw [hrow r hr hid]
      exact hsame

/-- An endpoint is given up, if the user has it. -/
theorem binding_delete (h : p.Sound texts) (endpoint : String) :
    let p' : PushRoom := { p with
      subscriptions := p.subscriptions.delete fun s =>
        s.user == user && texts.collate s.endpoint == texts.collate endpoint }
    p'.Sound texts ∧ p'.binding texts =
      if (p.binding texts (texts.collate endpoint)).map Prod.fst = some user then
        Function.update (p.binding texts) (texts.collate endpoint) none
      else p.binding texts := by
  intro p'
  have hmem : ∀ s, s ∈ p'.subscriptions ↔ s ∈ p.subscriptions ∧
      ¬ (s.user = user ∧ texts.collate s.endpoint = texts.collate endpoint) := by
    intro s
    rw [← beq_iff_eq (a := s.user), ← beq_iff_eq (a := texts.collate s.endpoint),
      ← Bool.and_eq_true, Bool.not_eq_true]
    exact Table.mem_delete
  have hsound : p'.Sound texts :=
    ⟨h.unique.delete, fun s hs => h.valid s ((hmem s).mp hs).1⟩
  refine ⟨hsound, eq_of_some fun e v => ?_⟩
  rw [binding_eq_some hsound]
  -- a row stays unless the user has it under this endpoint
  have hkept : (∃ s ∈ p'.subscriptions, texts.collate s.endpoint = e ∧ (s.user, s.keys) = v) ↔
      p.binding texts e = some v ∧ ¬ (v.1 = user ∧ e = texts.collate endpoint) := by
    rw [binding_eq_some h]
    constructor
    · rintro ⟨s, hs, rfl, rfl⟩
      obtain ⟨hs, hnot⟩ := (hmem s).mp hs
      exact ⟨⟨s, hs, rfl, rfl⟩, hnot⟩
    · rintro ⟨⟨s, hs, rfl, rfl⟩, hnot⟩
      exact ⟨s, (hmem s).mpr ⟨hs, hnot⟩, rfl, rfl⟩
  rw [hkept]
  by_cases he : e = texts.collate endpoint
  · subst he
    split
    · rename_i howner
      rw [Function.update_self]
      refine ⟨fun hboth => absurd ⟨?_, rfl⟩ hboth.2, fun hnone => nomatch hnone⟩
      rw [hboth.1] at howner
      exact Option.some.inj howner
    · rename_i howner
      refine ⟨fun hboth => hboth.1, fun hsome => ⟨hsome, fun hboth => howner ?_⟩⟩
      rw [hsome, Option.map_some, hboth.1]
  · have hsame : (if (p.binding texts (texts.collate endpoint)).map Prod.fst = some user then
        Function.update (p.binding texts) (texts.collate endpoint) none
        else p.binding texts) e = p.binding texts e := by
      split
      · exact Function.update_of_ne he _ _
      · rfl
    rw [hsame]
    exact ⟨fun hboth => hboth.1, fun hsome => ⟨hsome, fun hboth => he hboth.2⟩⟩

/-- No two rows have an endpoint. -/
theorem filter_endpoint (h : p.Sound texts) (endpoint : String) :
    (∃ s, (p.subscriptions.rows.filter fun s => texts.collate s.endpoint == endpoint) = [s]) ∨
      (p.subscriptions.rows.filter fun s => texts.collate s.endpoint == endpoint) = [] := by
  have hsame : ∀ s ∈ p.subscriptions.rows.filter fun s => texts.collate s.endpoint == endpoint,
      s ∈ p.subscriptions ∧ texts.collate s.endpoint = endpoint := by
    intro s hs
    obtain ⟨hs, heq⟩ := List.mem_filter.mp hs
    exact ⟨hs, beq_iff_eq.mp heq⟩
  have hnodup : (p.subscriptions.rows.filter fun s => texts.collate s.endpoint == endpoint).Nodup :=
    p.subscriptions.rows_nodup.filter _
  generalize (p.subscriptions.rows.filter fun s => texts.collate s.endpoint == endpoint) = rows at *
  match rows with
  | [] => exact .inr rfl
  | [s] => exact .inl ⟨s, rfl⟩
  | s :: r :: rows =>
    obtain ⟨hs, hsid⟩ := hsame s List.mem_cons_self
    obtain ⟨hr, hrid⟩ := hsame r (List.mem_cons_of_mem s List.mem_cons_self)
    have heq : s = r := h.unique s hs r hr (hsid.trans hrid.symm)
    exact absurd (heq ▸ List.mem_cons_self) (List.nodup_cons.mp hnodup).1

/-- `update_or_create` on the map. -/
theorem binding_updateOrCreate (h : p.Sound texts) {endpoint : String} {keys : Json}
    (hvalid : validSubscription endpoint keys = true) :
    (p.updateOrCreate texts user endpoint keys).2.Sound texts ∧
      (p.updateOrCreate texts user endpoint keys).2.binding texts =
        if (p.binding texts (texts.collate endpoint)).isSome || decide (endpoint.length ≤ 500) then
          Function.update (p.binding texts) (texts.collate endpoint) (some (user, keys))
        else p.binding texts := by
  unfold PushRoom.updateOrCreate
  rcases filter_endpoint h (texts.collate endpoint) with ⟨s, hone⟩ | hnil
  · -- somebody has it
    rw [hone]
    dsimp only
    obtain ⟨hs, hsame⟩ : s ∈ p.subscriptions ∧ texts.collate s.endpoint = texts.collate endpoint := by
      have hs : s ∈ p.subscriptions.rows.filter fun s =>
          texts.collate s.endpoint == texts.collate endpoint := by
        rw [hone]
        exact List.mem_singleton.mpr rfl
      obtain ⟨hs, heq⟩ := List.mem_filter.mp hs
      exact ⟨hs, beq_iff_eq.mp heq⟩
    have hsome : (p.binding texts (texts.collate endpoint)).isSome = true :=
      Option.isSome_iff_exists.mpr ⟨_, (binding_eq_some h).mpr ⟨s, hs, hsame, rfl⟩⟩
    rw [if_pos (by rw [hsome]; rfl)]
    refine binding_rebind h hs hsame ?_
    have hold := h.valid s hs
    unfold validSubscription at hvalid hold ⊢
    rw [Bool.and_assoc, Bool.and_eq_true] at hvalid hold ⊢
    exact ⟨hold.1, hvalid.2⟩
  · -- the endpoint is new
    rw [hnil]
    dsimp only
    have hnone : p.binding texts (texts.collate endpoint) = none := by
      rw [binding_eq_none]
      intro s hs heq
      exact List.filter_eq_nil_iff.mp hnil s hs (beq_iff_eq.mpr heq)
    by_cases hlong : 500 < endpoint.length
    · rw [if_pos hlong, if_neg (by simpa [hnone] using hlong)]
      exact ⟨h, rfl⟩
    · rw [if_neg hlong, if_pos (by simpa [hnone] using hlong)]
      exact binding_insert h hnone hvalid

/-- `subscribe` on the map. -/
theorem binding_subscribe (h : p.Sound texts) (user : ℕ) (body : List UInt8) :
    (p.subscribe texts user body).2.Sound texts ∧
      (p.subscribe texts user body).2.binding texts =
        bindingAfter texts (p.binding texts) (.subscribe user body) := by
  unfold PushRoom.subscribe bindingAfter offered
  dsimp only
  generalize (parseJson texts body).get? "endpoint" (.text "") = endpoint
  generalize (parseJson texts body).get? "keys" (.object []) = keys
  cases endpoint with
  | none => exact ⟨h, rfl⟩
  | some endpoint =>
    cases keys with
    | none => cases endpoint <;> exact ⟨h, rfl⟩
    | some keys =>
      cases endpoint with
      | text endpoint =>
        dsimp only
        by_cases hvalid : validSubscription endpoint keys = true
        · rw [if_pos hvalid, if_pos hvalid]
          exact binding_updateOrCreate h hvalid
        · rw [if_neg hvalid, if_neg hvalid]
          exact ⟨h, rfl⟩
      | null | bool | number | array | object => exact ⟨h, rfl⟩

/-- `unsubscribe` on the map. -/
theorem binding_unsubscribe (h : p.Sound texts) (user : ℕ) (body : List UInt8) :
    (p.unsubscribe texts user body).2.Sound texts ∧
      (p.unsubscribe texts user body).2.binding texts =
        bindingAfter texts (p.binding texts) (.unsubscribe user body) := by
  unfold PushRoom.unsubscribe bindingAfter
  dsimp only
  unfold givenUp
  generalize (parseJson texts body).get? "endpoint" (.text "") = endpoint
  cases endpoint with
  | none => exact ⟨h, rfl⟩
  | some endpoint =>
    rw [Option.bind_some]
    dsimp only
    by_cases htruthy : endpoint.truthy = true
    · rw [htruthy, if_pos rfl, if_neg (by decide)]
      exact binding_delete h _
    · rw [if_neg htruthy, Bool.eq_false_iff.mpr htruthy, if_pos (by decide)]
      exact ⟨h, rfl⟩

/-- Every request does to the subscriptions what it does to the map. -/
theorem binding_act {w : PushWorld} (h : w.toPushRoom.Sound texts) (e : CenterRequest) :
    (e.act texts w).toPushRoom.Sound texts ∧
      (e.act texts w).toPushRoom.binding texts = bindingAfter texts (w.toPushRoom.binding texts) e := by
  have hkeep : ∀ w' : PushWorld, w'.subscriptions = w.subscriptions → w'.toPushRoom.Sound texts ∧
      w'.toPushRoom.binding texts = w.toPushRoom.binding texts := by
    intro w' hsame
    refine ⟨⟨hsame ▸ h.unique, hsame ▸ h.valid⟩, ?_⟩
    funext endpoint
    rw [PushRoom.binding, PushRoom.binding, hsame]
  have hsub : ∀ p : PushRoom, p.Sound texts → (w.withSubscriptions p).toPushRoom.Sound texts ∧
      (w.withSubscriptions p).toPushRoom.binding texts = p.binding texts := fun p hp =>
    ⟨⟨hp.unique, hp.valid⟩, rfl⟩
  cases e with
  | subscribe user body =>
    obtain ⟨hsound, hbinding⟩ := binding_subscribe h user body
    obtain ⟨hsound', hbinding'⟩ := hsub _ hsound
    exact ⟨hsound', hbinding'.trans hbinding⟩
  | unsubscribe user body =>
    obtain ⟨hsound, hbinding⟩ := binding_unsubscribe h user body
    obtain ⟨hsound', hbinding'⟩ := hsub _ hsound
    exact ⟨hsound', hbinding'.trans hbinding⟩
  | muteToggle user category =>
    refine hkeep _ ?_
    rw [CenterRequest.act]
    cases w.muteToggle user category <;> rfl
  | bell | dropdown | listPage | notify | clock => exact hkeep _ rfl

end

/-- In every run of requests the subscriptions are a map from endpoints to their last subscribers:
no endpoint is there twice, and every request does to it what it says. -/
theorem subscriptions_refine_map (texts : PushTexts) {w : PushWorld} (h : w.toPushRoom.Sound texts)
    (requests : List CenterRequest) :
    let w' := requests.foldl (fun w e => e.act texts w) w
    w'.toPushRoom.Sound texts ∧
      w'.toPushRoom.binding texts = requests.foldl (bindingAfter texts) (w.toPushRoom.binding texts) := by
  intro w'
  induction requests generalizing w with
  | nil => exact ⟨h, rfl⟩
  | cons e requests ih =>
    obtain ⟨hsound, hbinding⟩ := binding_act h e
    obtain ⟨hsound', hbinding'⟩ := ih hsound
    refine ⟨hsound', ?_⟩
    rw [List.foldl_cons, ← hbinding]
    exact hbinding'

namespace Campus

/-- Every body is a subscription to one endpoint, whose name depends on the first byte. -/
def pushTexts : PushTexts where
  parse body := some (.object [("endpoint", .text (if body = [] then "https://push.example/a"
    else "https://push.example/b")), ("keys", .object [("p256dh", .text "k"), ("auth", .text "a")])])
  str _ := ""
  collate s := s

/-- Nobody has a subscription. -/
def quiet : PushWorld where
  notifications := Table.empty
  mutes := Table.empty
  subscriptions := Table.empty
  now := 0
  attempts := []

end Campus

open Campus in
/-- A browser that changes hands. -/
theorem subscriptions_refine_map_quiet :
    let w' := [CenterRequest.subscribe 7 [], .subscribe 8 [1], .subscribe 8 []].foldl
      (fun w e => e.act pushTexts w) quiet
    w'.toPushRoom.Sound pushTexts ∧ w'.toPushRoom.binding pushTexts =
      [CenterRequest.subscribe 7 [], .subscribe 8 [1], .subscribe 8 []].foldl (bindingAfter pushTexts)
        (quiet.toPushRoom.binding pushTexts) :=
  subscriptions_refine_map pushTexts
    ⟨fun _ hs => absurd hs List.not_mem_nil, fun _ hs => absurd hs List.not_mem_nil⟩ _

end FluxTrack
