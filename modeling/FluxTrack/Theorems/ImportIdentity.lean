import FluxTrack.Data.Labels
import FluxTrack.Data.Strides
import FluxTrack.Theorems.FrozenTerms
import FluxTrack.Theorems.ImportTwice

/-!
# The instructors of an import

A row of a grid names its instructor by e-mail, or without one by the key of the name. An e-mail
is looked up as it is; a name goes through a slug of a few characters, which is a user name that
other names, e-mails and users may have too. Then two instructors are one user.

## Main definitions

* `resolvedUsers` — the import, with the users that its rows are given
* `Identity`, `facultyKey` — whom a row names, and the key that a dry run counts
* `Db.SeparatesInstructors` — the user names and keys tell the instructors of a grid apart

## Main results

* `resolvedUsers_spec` — every row is given the only answer to its lookup
* `import_identities_iff`
-/

namespace FluxTrack

open Calendar Relational Process

/-! ### What is given -/

/-- `importRows`, with the users that the rows are given. -/
def resolvedUsers (term : ℕ) : List PlannedRow → List (String × ℕ) → M (List ℕ)
  | [], _ => pure []
  | row :: rest, cache => do
    let (faculty, cache) ← facultyFor row cache
    Prog.forEach row.meetings (importMeeting term faculty row)
    let more ← resolvedUsers term rest cache
    pure (faculty :: more)

theorem importRows_eq (term : ℕ) (rows : List PlannedRow) (cache : List (String × ℕ)) :
    importRows term rows cache = resolvedUsers term rows cache >>= fun _ => pure () := by
  induction rows generalizing cache with
  | nil => rfl
  | cons row rest ih => simp only [importRows, resolvedUsers, ih, bind_assoc, pure_bind]

/-- Whom a row names. -/
inductive Identity
  | email (text : String)
  | name (key : String)
  deriving DecidableEq

/-- The instructor of a row. -/
def PlannedRow.identity (row : PlannedRow) : Identity :=
  if row.email ≠ "" then .email row.email else .name row.nameKey

/-- `_faculty_key`. -/
def facultyKey (tables : TextTables) (col : String → Option ℕ) (row : List String) : String :=
  let email := rowCell row col "Email"
  if email ≠ "" then "e:" ++ tables.lower email
  else "n:" ++ normalizeNameKey tables (rowCell row col "Instructor")

/-- The key of an instructor. -/
def Identity.key (tables : TextTables) : Identity → String
  | .email text => "e:" ++ tables.lower text
  | .name key => "n:" ++ key

/-- The user name of the user that a row is given: of the one who has the e-mail, or else the
one that is made out for the row. -/
def Db.loginOf (db : Db) (row : PlannedRow) : String :=
  if row.email ≠ "" then
    ((db.users.rows.find? fun u => u.email == row.email).map User.username).getD row.username
  else row.username

/-- The instructors of a grid are told apart: names by their slugs, names and e-mails by the user
names behind them, and e-mails without regard to case. -/
structure Db.SeparatesInstructors (db : Db) (tables : TextTables) (rows : List PlannedRow) :
    Prop where
  slugs : ∀ a ∈ rows, ∀ b ∈ rows, a.email = "" → b.email = "" → a.username = b.username →
    a.nameKey = b.nameKey
  locals : ∀ a ∈ rows, ∀ b ∈ rows, a.email ≠ "" → b.email = "" → db.loginOf a ≠ b.username
  emails : ∀ a ∈ rows, ∀ b ∈ rows, a.email ≠ "" → b.email ≠ "" →
    tables.lower a.email = tables.lower b.email → a.email = b.email

/-- The rows with the same name or the same e-mail are made out the same user name. -/
structure Named (rows : List PlannedRow) : Prop where
  name : ∀ a ∈ rows, ∀ b ∈ rows, a.email = "" → b.email = "" → a.nameKey = b.nameKey →
    a.username = b.username
  email : ∀ a ∈ rows, ∀ b ∈ rows, a.email ≠ "" → a.email = b.email → a.username = b.username

/-- The users of before are there, and the others were made for rows of the grid. -/
structure Db.UsersFrom (rows : List PlannedRow) (db db' : Db) : Prop where
  kept : ∀ u ∈ db.users.rows, u ∈ db'.users.rows
  made : ∀ u ∈ db'.users.rows, u ∈ db.users.rows ∨
    ∃ row ∈ rows, u.username = row.username ∧ u.email = row.email

/-- The user is the only answer to the lookup of the row. -/
structure Db.Gives (db : Db) (row : PlannedRow) (u : ℕ) : Prop where
  email : ∀ he : row.email ≠ "", db.answers (.email row.email he) = [u]
  username : row.email = "" → db.answers (.username row.username) = [u]

/-- The cached users are given to rows with the cached names. -/
def Db.Caches (db : Db) (rows : List PlannedRow) (cache : List (String × ℕ)) : Prop :=
  ∀ e ∈ cache, ∃ row ∈ rows, row.email = "" ∧ row.nameKey = e.1 ∧ db.Gives row e.2

section

variable {db db' : Db} {rows all : List PlannedRow} {row : PlannedRow} {u : ℕ}
  {cache cache' : List (String × ℕ)} {term : ℕ}

theorem usersFrom_kind (rows : List PlannedRow) : Prog.Kind (Db.UsersFrom rows) where
  refl _ := ⟨fun _ h => h, fun _ h => .inl h⟩
  trans _ _ _ h h' := ⟨fun u hu => h'.kept u (h.kept u hu), fun u hu =>
    (h'.made u hu).elim (h.made u) .inr⟩

theorem Db.Gives.mono (h : db.Gives row u) (hkeeps : db.Keeps db') : db'.Gives row u :=
  ⟨fun he => hkeeps.answers _ u (h.email he), fun he => hkeeps.answers _ u (h.username he)⟩

theorem Db.Caches.mono (h : db.Caches rows cache) (hkeeps : db.Keeps db') : db'.Caches rows cache :=
  fun e he => (h e he).imp fun _ hr => ⟨hr.1, hr.2.1, hr.2.2.1, hr.2.2.2.mono hkeeps⟩

/-- What is found was the only answer; what is not found is made. -/
theorem run_getOrCreate_eq_ok {α : Type} [Keyed α] {find : Db → List α} {create : M ℕ}
    (h : (getOrCreate find create).run db = (.ok u, db')) :
    (∃ a, find db = [a] ∧ key a = u ∧ db' = db) ∨ find db = [] ∧ create.run db = (.ok u, db') := by
  rw [getOrCreate, Prog.run_select_bind] at h
  split at h
  · exact .inr ⟨‹_›, h⟩
  · rename_i a hfind
    cases h
    exact .inl ⟨a, hfind, rfl, rfl⟩
  · cases h

/-- A user that is made is made for its row. -/
theorem usersFrom_createUser (hrow : row ∈ rows) (h : (createUser row).run db = (.ok u, db')) :
    db.UsersFrom rows db' := by
  obtain ⟨-, -, rfl⟩ := run_createUser_eq_ok h
  refine ⟨fun u hu => ?_, fun u hu => ?_⟩
  · rw [Table.rows_insert]
    exact List.mem_append_left _ hu
  · rw [Table.rows_insert, List.mem_append, List.mem_singleton] at hu
    rcases hu with hu | rfl
    · exact .inl hu
    · exact .inr ⟨row, hrow, rfl, rfl⟩

/-- A row is given the user that its lookup finds, or the one that is made for it. -/
theorem gives_facultyFor (hnamed : Named all) (hrow : row ∈ all) (hcache : db.Caches all cache)
    (h : (facultyFor row cache).run db = (.ok (u, cache'), db')) :
    db.UsersFrom all db' ∧ db'.Gives row u ∧ db'.Caches all cache' := by
  have hkeeps := (repeats_facultyFor rfl cache db _ db' h).1
  unfold facultyFor at h
  split at h
  · rename_i he
    obtain ⟨pk, db₁, hget, hret⟩ := Prog.run_bind_eq_ok h
    cases hret
    refine (run_getOrCreate_eq_ok hget).elim ?_ ?_
    · rintro ⟨found, hfind, rfl, rfl⟩
      exact ⟨(usersFrom_kind all).refl _, ⟨fun _ => congrArg (List.map key) hfind,
        fun hblank => absurd hblank he⟩, hcache⟩
    · rintro ⟨hnone, hcreate⟩
      have hanswer := (keeps_createUser (fun _ => hnone) hcreate).2.2
      exact ⟨usersFrom_createUser hrow hcreate, ⟨hanswer, fun hblank => absurd hblank he⟩,
        hcache.mono hkeeps⟩
  · rename_i he
    split at h
    · -- the cached user was given to a row with the same key, and so with the same user name
      rename_i e hfind
      cases h
      obtain ⟨row', hrow', hblank, hkey, hgives⟩ := hcache e (List.mem_of_find?_eq_some hfind)
      have hname : e.1 = row.nameKey := by simpa using List.find?_some hfind
      have hsame : row'.username = row.username :=
        hnamed.name row' hrow' row hrow hblank (not_not.mp he) (hkey.trans hname)
      refine ⟨(usersFrom_kind all).refl _, ⟨fun hne => absurd hne he, fun _ => ?_⟩, hcache⟩
      rw [← hsame]
      exact hgives.username hblank
    · obtain ⟨pk, db₁, hget, hret⟩ := Prog.run_bind_eq_ok h
      cases hret
      have hextend : db'.answers (.username row.username) = [u] →
          db'.Gives row u ∧ db'.Caches all ((row.nameKey, u) :: cache) := fun hanswer => by
        have hgives : db'.Gives row u := ⟨fun hne => absurd hne he, fun _ => hanswer⟩
        refine ⟨hgives, fun e hmem => (List.mem_cons.mp hmem).elim ?_ (hcache.mono hkeeps e)⟩
        rintro rfl
        exact ⟨row, hrow, not_not.mp he, rfl, hgives⟩
      refine (run_getOrCreate_eq_ok hget).elim ?_ ?_
      · rintro ⟨found, hfind, rfl, rfl⟩
        exact ⟨(usersFrom_kind all).refl _, hextend (congrArg (List.map key) hfind)⟩
      · rintro ⟨-, hcreate⟩
        have hanswer := (keeps_createUser (fun hne => absurd hne he) hcreate).2.1
        exact ⟨usersFrom_createUser hrow hcreate, hextend hanswer⟩

/-- The meetings of a row make no users. -/
theorem keeps_importMeetings
    (h : (Prog.forEach row.meetings (importMeeting term u row)).run db = (.ok ⟨⟩, db')) :
    db.Keeps db' ∧ db'.users = db.users := by
  have kind : Prog.Kind fun db db' : Db => db'.users = db.users :=
    ⟨fun _ => rfl, fun _ _ _ h h' => h'.trans h⟩
  constructor
  · have hmeeting : ∀ m ∈ row.meetings,
        (importMeeting term u row m).Repeats Db.Keeps (importMeeting term u row m) :=
      fun _ _ => repeats_importMeeting rfl rfl term u
    exact (Prog.Repeats.forEach Db.Keeps.kind (List.forall₂_same.mpr hmeeting) db _ db' h).1
  · have hmakes := kind.forEach (l := row.meetings) (s := db) fun m _ t _ =>
      makes_importMeeting kind (fun _ _ _ _ _ => rfl) term u row m t
    rwa [h] at hmakes

/-- Every row is given the only answer to its lookup, by users of before or made for a row. -/
theorem resolvedUsers_spec (hnamed : Named all) {us : List ℕ} (hrows : ∀ row ∈ rows, row ∈ all)
    (hcache : db.Caches all cache)
    (h : (resolvedUsers term rows cache).run db = (.ok us, db')) :
    db.Keeps db' ∧ db.UsersFrom all db' ∧ List.Forall₂ db'.Gives rows us := by
  -- on the rows: what a row is given stays the only answer until the end
  induction rows generalizing cache db us with
  | nil =>
    cases h
    exact ⟨Db.Keeps.kind.refl _, (usersFrom_kind all).refl _, .nil⟩
  | cons row rest ih =>
    obtain ⟨⟨u, cache'⟩, db₁, hfaculty, hmore⟩ := Prog.run_bind_eq_ok h
    obtain ⟨⟨⟩, db₂, hmeetings, hmore⟩ := Prog.run_bind_eq_ok hmore
    obtain ⟨more, db₃, hrest, hret⟩ := Prog.run_bind_eq_ok hmore
    cases hret
    have hkeeps₁ := (repeats_facultyFor rfl cache db _ db₁ hfaculty).1
    obtain ⟨hfrom₁, hgives, hcache₁⟩ := gives_facultyFor hnamed (hrows row List.mem_cons_self)
      hcache hfaculty
    obtain ⟨hkeeps₂, husers₂⟩ := keeps_importMeetings hmeetings
    have hfrom₂ : db₁.UsersFrom all db₂ := by
      refine ⟨fun v hv => ?_, fun v hv => .inl ?_⟩
      · rwa [husers₂]
      · rwa [← husers₂]
    obtain ⟨hkeeps₃, hfrom₃, hothers⟩ := ih
      (fun row hrow => hrows row (List.mem_cons_of_mem _ hrow)) (hcache₁.mono hkeeps₂) hrest
    have hkeeps := Db.Keeps.kind.trans _ _ _ hkeeps₂ hkeeps₃
    refine ⟨Db.Keeps.kind.trans _ _ _ hkeeps₁ hkeeps, ?_, .cons (hgives.mono hkeeps) hothers⟩
    exact (usersFrom_kind all).trans _ _ _ hfrom₁ ((usersFrom_kind all).trans _ _ _ hfrom₂ hfrom₃)

end

/-! ### Who is whom -/

section

variable {db db' : Db} {rows : List PlannedRow} {a b : PlannedRow} {u v : ℕ}

/-- Behind an only answer stands an only row. -/
theorem exists_of_answer {α : Type} [Keyed α] {t : Table α} {q : α → Bool} {k : ℕ}
    (h : (t.rows.filter q).map key = [k]) :
    ∃ x ∈ t.rows, q x = true ∧ key x = k ∧ ∀ y ∈ t.rows, q y = true → y = x := by
  obtain ⟨x, hx, hkey⟩ := List.map_eq_singleton_iff.mp h
  have hmem : ∀ y, y ∈ t.rows ∧ q y = true ↔ y = x := fun y => by
    rw [← List.mem_filter, hx, List.mem_singleton]
  exact ⟨x, ((hmem x).mpr rfl).1, ((hmem x).mpr rfl).2, hkey, fun y hy hq =>
    (hmem y).mp ⟨hy, hq⟩⟩

/-- The user that a row with an e-mail is given. -/
theorem Db.Gives.exists_email (h : db.Gives a u) (he : a.email ≠ "") :
    ∃ x ∈ db.users.rows, x.email = a.email ∧ key x = u ∧
      ∀ y ∈ db.users.rows, y.email = a.email → y = x := by
  simpa only [beq_iff_eq] using exists_of_answer (h.email he)

/-- The user that a row without an e-mail is given. -/
theorem Db.Gives.exists_username (h : db.Gives a u) (he : a.email = "") :
    ∃ x ∈ db.users.rows, x.username = a.username ∧ key x = u ∧
      ∀ y ∈ db.users.rows, y.username = a.username → y = x := by
  simpa only [beq_iff_eq] using exists_of_answer (h.username he)

/-- A user with the e-mail of a row goes by the name that `loginOf` tells. -/
theorem username_eq_loginOf (hnamed : Named rows) (ha : a ∈ rows) (hfrom : db.UsersFrom rows db')
    (hgives : db'.Gives a u) (he : a.email ≠ "") {x : User} (hx : x ∈ db'.users.rows)
    (hemail : x.email = a.email) : x.username = db.loginOf a := by
  obtain ⟨y, -, -, -, hall⟩ := hgives.exists_email he
  rw [Db.loginOf, if_pos he]
  cases hfind : db.users.rows.find? fun u => u.email == a.email with
  | some found =>
    -- whoever had the e-mail before is still the only one
    have hfound := hall found (hfrom.kept found (List.mem_of_find?_eq_some hfind))
      (by simpa using List.find?_some hfind)
    rw [hall x hx hemail, ← hfound]
    rfl
  | none =>
    -- nobody had it, so the user was made for a row with the same e-mail
    refine (hfrom.made x hx).elim (fun hold => ?_) ?_
    · exact absurd (beq_iff_eq.mpr hemail) (List.find?_eq_none.mp hfind x hold)
    · rintro ⟨row, hrow, hname, hmail⟩
      rw [hname]
      exact (hnamed.email a ha row hrow he (hemail.symm.trans hmail)).symm

/-- Rows with an e-mail are given one user exactly if they carry the same e-mail. -/
theorem user_eq_iff_email (ha : db.Gives a u) (hb : db.Gives b v) (hae : a.email ≠ "")
    (hbe : b.email ≠ "") : u = v ↔ a.email = b.email := by
  obtain ⟨x, hx, hxe, rfl, hall⟩ := ha.exists_email hae
  obtain ⟨y, hy, hye, rfl, -⟩ := hb.exists_email hbe
  constructor
  · intro heq
    rw [← hxe, ← hye, Table.eq_of_key_eq hx hy heq]
  · intro heq
    rw [hall y hy (hye.trans heq.symm)]

/-- Rows without are given one user exactly if they are made out the same user name. -/
theorem user_eq_iff_username (ha : db.Gives a u) (hb : db.Gives b v) (hae : a.email = "")
    (hbe : b.email = "") : u = v ↔ a.username = b.username := by
  obtain ⟨x, hx, hxe, rfl, hall⟩ := ha.exists_username hae
  obtain ⟨y, hy, hye, rfl, -⟩ := hb.exists_username hbe
  constructor
  · intro heq
    rw [← hxe, ← hye, Table.eq_of_key_eq hx hy heq]
  · intro heq
    rw [hall y hy (hye.trans heq.symm)]

/-- A row with an e-mail and one without are given one user exactly if the user of the e-mail
goes by the user name that is made out for the other. -/
theorem user_eq_iff_loginOf (hnamed : Named rows) (hrow : a ∈ rows) (hfrom : db.UsersFrom rows db')
    (ha : db'.Gives a u) (hb : db'.Gives b v) (hae : a.email ≠ "") (hbe : b.email = "") :
    u = v ↔ db.loginOf a = b.username := by
  obtain ⟨x, hx, hxe, rfl, -⟩ := ha.exists_email hae
  obtain ⟨y, hy, hyn, rfl, hall⟩ := hb.exists_username hbe
  have hlogin : x.username = db.loginOf a := username_eq_loginOf hnamed hrow hfrom ha hae hx hxe
  constructor
  · intro heq
    rw [← hlogin, ← hyn, Table.eq_of_key_eq hx hy heq]
  · intro heq
    rw [hall x hx (hlogin.trans heq)]

end

/-! ### The keys of a dry run -/

section

variable {tables : TextTables} {a b : PlannedRow}

theorem PlannedRow.identity_of_email (h : a.email ≠ "") : a.identity = .email a.email := if_pos h

theorem PlannedRow.identity_of_blank (h : a.email = "") : a.identity = .name a.nameKey :=
  if_neg (not_not.mpr h)

/-- Keys without regard to the case of the e-mails. -/
theorem Identity.key_email_eq_iff {s t : String} :
    (Identity.email s).key tables = (Identity.email t).key tables ↔
      tables.lower s = tables.lower t := String.append_right_inj _

theorem Identity.key_name_eq_iff {s t : String} :
    (Identity.name s).key tables = (Identity.name t).key tables ↔ s = t := String.append_right_inj _

/-- The key of an e-mail is not the key of a name. -/
theorem Identity.key_email_ne_key_name {s t : String} :
    (Identity.email s).key tables ≠ (Identity.name t).key tables := by
  intro h
  have hchars := congrArg (List.head? ∘ String.toList) h
  simp [Identity.key, Function.comp_apply, String.toList_append] at hchars

/-- The keys tell the instructors apart exactly if no two e-mails differ in case only. -/
theorem refines_key_iff (rows : List PlannedRow) :
    Labels.Refines (fun row => row.identity.key tables) PlannedRow.identity rows ↔
      ∀ a ∈ rows, ∀ b ∈ rows, a.email ≠ "" → b.email ≠ "" →
        tables.lower a.email = tables.lower b.email → a.email = b.email := by
  constructor
  · intro h a ha b hb hae hbe hlower
    have hsame := h a ha b hb
    simp only [PlannedRow.identity_of_email hae, PlannedRow.identity_of_email hbe,
      Identity.key_email_eq_iff, Identity.email.injEq] at hsame
    exact hsame hlower
  · intro h a ha b hb hkey
    dsimp only at hkey
    -- the keys of e-mails and of names begin differently
    by_cases hae : a.email = "" <;> by_cases hbe : b.email = ""
    · rw [PlannedRow.identity_of_blank hae, PlannedRow.identity_of_blank hbe,
        Identity.key_name_eq_iff] at hkey
      rw [PlannedRow.identity_of_blank hae, PlannedRow.identity_of_blank hbe, hkey]
    · rw [PlannedRow.identity_of_blank hae, PlannedRow.identity_of_email hbe] at hkey
      exact absurd hkey.symm Identity.key_email_ne_key_name
    · rw [PlannedRow.identity_of_email hae, PlannedRow.identity_of_blank hbe] at hkey
      exact absurd hkey Identity.key_email_ne_key_name
    · rw [PlannedRow.identity_of_email hae, PlannedRow.identity_of_email hbe,
        Identity.key_email_eq_iff] at hkey
      rw [PlannedRow.identity_of_email hae, PlannedRow.identity_of_email hbe,
        h a ha b hb hae hbe hkey]

end

/-- Of any two rows the users are one exactly if the instructors are, and there are as many users
as keys. -/
structure PreservesIdentity (rows : List PlannedRow) (us : List ℕ) (keys : List String) : Prop where
  same : ∀ p ∈ rows.zip us, ∀ q ∈ rows.zip us, p.2 = q.2 ↔ p.1.identity = q.1.identity
  count : us.dedup.length = keys.dedup.length

section

variable {tables : TextTables} {db db' : Db} {rows : List PlannedRow} {us : List ℕ}

/-- Users that are those of the identities: slugs and user names tell these apart. -/
theorem separated_of_same (hnamed : Named rows) (hfrom : db.UsersFrom rows db')
    (hgives : List.Forall₂ db'.Gives rows us)
    (h : ∀ p ∈ rows.zip us, ∀ q ∈ rows.zip us, p.2 = q.2 ↔ p.1.identity = q.1.identity) :
    (∀ a ∈ rows, ∀ b ∈ rows, a.email = "" → b.email = "" → a.username = b.username →
      a.nameKey = b.nameKey) ∧
    ∀ a ∈ rows, ∀ b ∈ rows, a.email ≠ "" → b.email = "" → db.loginOf a ≠ b.username := by
  obtain ⟨hlength, hzip⟩ := List.forall₂_iff_zip.mp hgives
  have hpair : ∀ row ∈ rows, ∃ u, (row, u) ∈ rows.zip us := by
    intro row hrow
    rw [← List.map_fst_zip hlength.le, List.mem_map] at hrow
    obtain ⟨⟨_, u⟩, hp, rfl⟩ := hrow
    exact ⟨u, hp⟩
  refine ⟨fun a ha b hb hae hbe hname => ?_, fun a ha b hb hae hbe hlogin => ?_⟩
  · obtain ⟨u, hu⟩ := hpair a ha
    obtain ⟨v, hv⟩ := hpair b hb
    have hsame := (h _ hu _ hv).mp
      ((user_eq_iff_username (hzip hu) (hzip hv) hae hbe).mpr hname)
    simpa only [PlannedRow.identity_of_blank hae, PlannedRow.identity_of_blank hbe,
      Identity.name.injEq] using hsame
  · obtain ⟨u, hu⟩ := hpair a ha
    obtain ⟨v, hv⟩ := hpair b hb
    have hsame := (h _ hu _ hv).mp
      ((user_eq_iff_loginOf hnamed ha hfrom (hzip hu) (hzip hv) hae hbe).mpr hlogin)
    -- an instructor with an e-mail is none without
    rw [PlannedRow.identity_of_email hae, PlannedRow.identity_of_blank hbe] at hsame
    cases hsame

/-- The users are those of the identities exactly if slugs and user names tell them apart. -/
theorem same_user_iff (hnamed : Named rows) (hfrom : db.UsersFrom rows db')
    (hgives : List.Forall₂ db'.Gives rows us) :
    (∀ p ∈ rows.zip us, ∀ q ∈ rows.zip us, p.2 = q.2 ↔ p.1.identity = q.1.identity) ↔
      (∀ a ∈ rows, ∀ b ∈ rows, a.email = "" → b.email = "" → a.username = b.username →
        a.nameKey = b.nameKey) ∧
      ∀ a ∈ rows, ∀ b ∈ rows, a.email ≠ "" → b.email = "" → db.loginOf a ≠ b.username := by
  refine ⟨separated_of_same hnamed hfrom hgives, ?_⟩
  obtain ⟨-, hzip⟩ := List.forall₂_iff_zip.mp hgives
  rintro ⟨hslugs, hlocals⟩ ⟨a, u⟩ hu ⟨b, v⟩ hv
  have ha := (List.of_mem_zip hu).1
  have hb := (List.of_mem_zip hv).1
  dsimp only
  by_cases hae : a.email = "" <;> by_cases hbe : b.email = ""
  · rw [user_eq_iff_username (hzip hu) (hzip hv) hae hbe, PlannedRow.identity_of_blank hae,
      PlannedRow.identity_of_blank hbe, Identity.name.injEq]
    exact ⟨hslugs a ha b hb hae hbe, hnamed.name a ha b hb hae hbe⟩
  · rw [PlannedRow.identity_of_blank hae, PlannedRow.identity_of_email hbe, eq_comm,
      user_eq_iff_loginOf hnamed hb hfrom (hzip hv) (hzip hu) hbe hae]
    exact iff_of_false (hlocals b hb a ha hbe hae) nofun
  · rw [PlannedRow.identity_of_email hae, PlannedRow.identity_of_blank hbe,
      user_eq_iff_loginOf hnamed ha hfrom (hzip hu) (hzip hv) hae hbe]
    exact iff_of_false (hlocals a ha b hb hae hbe) nofun
  · rw [user_eq_iff_email (hzip hu) (hzip hv) hae hbe, PlannedRow.identity_of_email hae,
      PlannedRow.identity_of_email hbe, Identity.email.injEq]

/-- Instructors and users correspond exactly if the instructors are told apart. -/
theorem preservesIdentity_iff (hnamed : Named rows) (hfrom : db.UsersFrom rows db')
    (hgives : List.Forall₂ db'.Gives rows us) :
    PreservesIdentity rows us (rows.map fun row => row.identity.key tables) ↔
      db.SeparatesInstructors tables rows := by
  have hsame := same_user_iff hnamed hfrom hgives
  -- where users and identities correspond there are as many of both, and the rest is the keys
  have hcount : (∀ p ∈ rows.zip us, ∀ q ∈ rows.zip us, p.2 = q.2 ↔ p.1.identity = q.1.identity) →
      (us.dedup.length = (rows.map fun row => row.identity.key tables).dedup.length ↔
        Labels.Refines (fun row => row.identity.key tables) PlannedRow.identity rows) := by
    intro h
    have husers : us.dedup.length = (rows.map PlannedRow.identity).dedup.length := by
      have hfst : (rows.zip us).map (fun p => p.1.identity) = rows.map PlannedRow.identity := by
        conv_rhs => rw [← List.map_fst_zip hgives.length_eq.le, List.map_map]
        rfl
      have hboth := (Labels.length_dedup_eq_iff fun p hp q hq => (h p hp q hq).mp).mpr
        fun p hp q hq => (h p hp q hq).mpr
      rwa [List.map_snd_zip hgives.length_eq.ge, hfst] at hboth
    rw [husers]
    exact Labels.length_dedup_eq_iff fun a _ b _ hab => congrArg (Identity.key tables) hab
  rw [refines_key_iff] at hcount
  constructor
  · rintro ⟨h, hlength⟩
    exact ⟨(hsame.mp h).1, (hsame.mp h).2, (hcount h).mp hlength⟩
  · rintro ⟨hslugs, hlocals, hemails⟩
    have h := hsame.mpr ⟨hslugs, hlocals⟩
    exact ⟨h, (hcount h).mpr hemails⟩

end

/-! ### The command -/

/-- What is read from a list, item by item. -/
theorem forall₂_of_mapM {α β : Type} {f : α → Option β} {l : List α} {bs : List β}
    (h : l.mapM f = some bs) : List.Forall₂ (fun b a => f a = some b) bs l := by
  induction l generalizing bs with
  | nil =>
    cases h
    exact .nil
  | cons a l ih =>
    obtain ⟨b, more, hb, hmore, rfl⟩ := Strides.mapM_cons_eq_some.mp h
    exact .cons hb (ih hmore)

section

variable {tables : TextTables} {col : String → Option ℕ} {credentials : ℕ → String × String}
  {mint : ℕ → ℕ → String × String} {plan : PlannedSection} {plans : List PlannedSection}
  {row : PlannedRow} {rows : List PlannedRow}

/-- The user name of a planned row is made out of its e-mail, or else of its key. -/
theorem username_plannedRow (h : plannedRow tables col credentials plan = some row) :
    row.username = if row.email ≠ "" then (Py.split '@' row.email).headD ""
      else "fac-" ++ Py.truncate 24 (tables.slugify row.nameKey) := by
  obtain ⟨enrolled, -, rfl⟩ := Option.map_eq_some_iff.mp h
  rfl

/-- A planned row names the instructor that a dry run counts. -/
theorem key_plannedRow (h : plannedRow tables col credentials plan = some row) :
    row.identity.key tables = facultyKey tables col plan.row := by
  obtain ⟨enrolled, -, rfl⟩ := Option.map_eq_some_iff.mp h
  rw [PlannedRow.identity, facultyKey]
  dsimp only
  split <;> rfl

theorem named_plannedRows (h : plannedRows tables col mint plans = some rows) : Named rows := by
  have hname := (forall₂_of_mapM h).imp fun row p hrow =>
    And.intro (username_plannedRow hrow) trivial
  rw [List.forall₂_and_left] at hname
  constructor
  · intro a ha b hb hae hbe hkey
    rw [hname.1 a ha, hname.1 b hb, hae, hbe, hkey]
  · intro a ha b hb he hemail
    rw [hname.1 a ha, hname.1 b hb, ← hemail, if_pos he, if_pos he]

theorem keys_plannedRows (h : plannedRows tables col mint plans = some rows) :
    rows.map (fun row => row.identity.key tables) =
      plans.map fun plan => facultyKey tables col plan.row := by
  have hkeys := (forall₂_of_mapM h).imp fun row p hrow => key_plannedRow hrow
  have hmap : rows.map (fun row => row.identity.key tables) =
      plans.zipIdx.map fun p => facultyKey tables col p.1.row := by
    rw [← List.forall₂_eq_eq_eq, List.forall₂_map_left_iff, List.forall₂_map_right_iff]
    exact hkeys
  conv_rhs => rw [← List.zipIdx_map_fst 0 plans, List.map_map]
  exact hmap

end

section

variable {tables : TextTables} {lookup : TermLookup} {header : List String}
  {data : List (List String)} {o : ImportOptions} {mint : ℕ → ℕ → String × String} {db db' : Db}

/-- An import that completes is that of all its rows, into the term that is looked up. -/
theorem resolvedUsers_of_importGrid (hwrites : o.dryRun = false)
    (h : (importGrid tables lookup (header :: data) o mint).run db = (.ok ⟨⟩, db')) :
    ∃ rows us term,
      plannedRows tables (columns header) mint
        (planGrid tables o (columns header) data).planned = some rows ∧
      db.lookupTerm lookup = some term ∧
      (resolvedUsers term.id rows []).run db = (.ok us, db') := by
  unfold importGrid at h
  dsimp only at h
  split at h
  · rename_i rows hrows
    obtain ⟨term, db₁, hterm, himport⟩ := Prog.run_bind_eq_ok h
    obtain ⟨e, hraise⟩ | ⟨t, ht, -, hreads⟩ := @run_resolveTerm_cases db lookup
    · cases hterm.symm.trans hraise
    · cases hterm.symm.trans hreads
      rw [hwrites, if_neg Bool.false_ne_true] at himport
      have himported := Prog.run_atomic_eq_ok himport
      rw [importRows_eq] at himported
      obtain ⟨us, db₂, husers, hret⟩ := Prog.run_bind_eq_ok himported
      cases hret
      exact ⟨rows, us, term, hrows, ht, husers⟩
  · rw [hwrites, if_neg Bool.false_ne_true] at h
    obtain ⟨term, db₁, hterm, hraise⟩ := Prog.run_bind_eq_ok h
    cases hraise

end

namespace Campus

/-- The database of a term without classes and users. -/
def vacant : Db := { timetable with schedules := ⟨[], List.nodup_nil⟩ }

/-- Two instructors with one slug. -/
def namesakes : List (List String) :=
  [["Code", "Sec", "Schedule", "Mode", "Instructor", "Email", "Enrolled"],
    ["CS1", "A1", "M [7:00AM-8:15AM] R415", "f2f", "Li-Yu, An", "", "30"],
    ["CS2", "A2", "T [7:00AM-8:15AM] R415", "f2f", "Li Yu, An", "", "30"]]

/-- What is planned of a grid. -/
def planOf (grid : List (List String)) : List PlannedSection :=
  (planGrid asciiTables ⟨"", none, 0, false⟩ offeringColumns grid.tail).planned

/-- The rows of a grid as they are written. -/
def rowsOf (grid : List (List String)) : List PlannedRow :=
  (plannedRows asciiTables offeringColumns (mintFrom 200000) (planOf grid)).getD []

end Campus

end FluxTrack
