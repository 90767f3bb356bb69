import FluxTrack.Scheduling.Jobs
import FluxTrack.Scheduling.Materialization
import FluxTrack.Scheduling.ScheduleOps
import FluxTrack.Web.Checker
import FluxTrack.Web.Faculty
import FluxTrack.Web.Ifo
import FluxTrack.Web.Scan

/-!
# Runs of the attendance system

Requests that are executed one after another against the database. Beside the
database a world keeps the confirmation tokens that have been signed so far: a
signature cannot be forged, so only these are accepted.

## Main definitions

* `Request` — the requests that read or write the attendance record
* `World`, `World.step`, `World.run` — the state and its runs
* `World.Along` — every request of a run meets a condition

## Main results

* `World.Along.imp` — the rule for runs
* `World.genuine_step` — the tokens of a run stay genuine
-/

namespace FluxTrack

open Calendar Relational Process

/-- A request with its arguments and the clock readings it makes. -/
inductive Request
  | resolve (user : ℕ) (payload : Payload) (clock : ScanClock)
  | confirm (user : ℕ) (token : ConfirmToken) (reason : String) (now last : ℤ)
  | onlineStart (user pk : ℕ) (teamsLink : String) (now started : ℤ)
  | onlineAction (user pk : ℕ) (action : ValidationAction) (note : String) (now last : ℤ)
  | propagateMergedPresent (anchor : ℕ) (now : ℤ) (actor : Option ℕ)
  | propagateMergedAbsent (anchor : Session) (actor : Option ℕ) (now : ℤ)
  | sweepNoShows (now : ℤ)
  | suspendClasses (term : ℕ) (startDate endDate : ℤ) (reason : String) (building : Option ℕ)
      (declaredBy : Option ℕ)
  | liftSuspension (suspension : ℕ) (liftedBy : Option ℕ) (now : ℤ)
  | cancelSchedule (schedule : ℕ) (actor : Option ℕ) (reason : String) (today : ℤ)
  | sessionReinstate (user pk : ℕ) (reason : String)
  | breakCreate (user : ℕ) (start : Option ℤ) (endGiven : Option (Option ℤ)) (reason : String)
  | breakDelete (user pk : ℕ)

/-- The database and the confirmation tokens signed so far. -/
structure World where
  db : Db
  issued : List ConfirmToken

/-- The program of a request, answering with the token it signs, if any. -/
def Request.prog (issued : List ConfirmToken) : Request → M (Option ConfirmToken)
  | resolve user payload clock => do
    let (_, token) ← resolveScan user payload clock
    pure token
  | confirm user token reason now last => do
    let _ ← confirmScan user (if token ∈ issued then some token else none) reason now last
    pure none
  | onlineStart user pk teamsLink now started => do
    let _ ← FluxTrack.onlineStart user pk teamsLink now started
    pure none
  | onlineAction user pk action note now last => do
    let _ ← FluxTrack.onlineAction user pk action note now last
    pure none
  | propagateMergedPresent anchor now actor => do
    let _ ← FluxTrack.propagateMergedPresent anchor now actor
    pure none
  | propagateMergedAbsent anchor actor now => do
    let _ ← FluxTrack.propagateMergedAbsent anchor actor now
    pure none
  | sweepNoShows now => do
    let _ ← FluxTrack.sweepNoShows now
    pure none
  | suspendClasses term startDate endDate reason building declaredBy => do
    let _ ← FluxTrack.suspendClasses term startDate endDate reason building declaredBy
    pure none
  | liftSuspension suspension liftedBy now => do
    let _ ← FluxTrack.liftSuspension suspension liftedBy now
    pure none
  | cancelSchedule schedule actor reason today => do
    let _ ← FluxTrack.cancelSchedule schedule actor reason today
    pure none
  | sessionReinstate user pk reason => do
    let _ ← FluxTrack.sessionReinstate user pk reason
    pure none
  | breakCreate user start endGiven reason => do
    let _ ← FluxTrack.breakCreate user start endGiven reason
    pure none
  | breakDelete user pk => do
    FluxTrack.breakDelete user pk
    pure none

namespace World

/-- The world a run starts in: no token has been signed. -/
def start (db : Db) : World := ⟨db, []⟩

/-- The token in the outcome of a request. -/
def signed : Except Err (Option ConfirmToken) → List ConfirmToken
  | .ok (some token) => [token]
  | _ => []

/-- Execute one request. A request that raises is answered with an error. -/
def step (w : World) (r : Request) : World where
  db := ((r.prog w.issued).run w.db).2
  issued := signed ((r.prog w.issued).run w.db).1 ++ w.issued

/-- Execute requests one after another. -/
def run (w : World) (rs : List Request) : World := rs.foldl step w

/-- Every request of a run meets `C` in the world it finds. -/
def Along (C : World → Request → Prop) : World → List Request → Prop
  | _, [] => True
  | w, r :: rs => C w r ∧ (w.step r).Along C rs

/-- The rule for runs: an invariant of the worlds, and what the requests do in worlds
that satisfy it. -/
theorem Along.imp {I : World → Prop} {C D : World → Request → Prop}
    (hstep : ∀ w r, I w → I (w.step r)) (h : ∀ w r, I w → C w r → D w r) {w : World}
    {rs : List Request} (hI : I w) (hC : w.Along C rs) : w.Along D rs := by
  induction rs generalizing w with
  | nil => trivial
  | cons r rs ih => exact ⟨h w r hI hC.1, ih (hstep w r hI) hC.2⟩

end World

/-! ### Tokens -/

/-- A token that a scan signs is genuine. -/
theorem genuine_of_resolveScan {db db' : Db} {user : ℕ} {payload : Payload} {clock : ScanClock}
    {reply : ScanReply} {token : ConfirmToken}
    (h : (resolveScan user payload clock).run db = (.ok (reply, some token), db')) :
    token.Genuine := by
  obtain ⟨found, db₁, -, h⟩ := Prog.run_bind_eq_ok h
  cases found with
  | error e => cases h
  | ok found =>
    obtain ⟨room, method⟩ := found
    change Prog.run (if room.outOfService = true then _ else _) db₁ = _ at h
    split at h
    · cases h
    · obtain ⟨term, db₂, -, h⟩ := Prog.run_bind_eq_ok h
      cases term with
      | none => cases h
      | some term =>
        obtain ⟨r, db₃, hr, h⟩ := Prog.run_bind_eq_ok h
        cases hr
        split at h
        · rename_i hconfirm
          cases h
          exact (scanVerdict ..).genuine hconfirm _ _ _
        · obtain ⟨reply', db₄, -, h⟩ := Prog.run_bind_eq_ok h
          cases h

/-- A request that answers with a token is a scan that signed it. -/
theorem genuine_of_prog {issued : List ConfirmToken} {r : Request} {db db' : Db}
    {token : ConfirmToken} (h : (r.prog issued).run db = (.ok (some token), db')) :
    token.Genuine := by
  cases r with
  | resolve user payload clock =>
    obtain ⟨⟨reply, signed⟩, db₁, hscan, h⟩ := Prog.run_bind_eq_ok h
    cases h
    exact genuine_of_resolveScan hscan
  | _ =>
    obtain ⟨_, _, -, h⟩ := Prog.run_bind_eq_ok h
    cases h

namespace World

/-- Every token signed so far is genuine. -/
def Genuine (w : World) : Prop := ∀ token ∈ w.issued, token.Genuine

theorem genuine_start (db : Db) : (start db).Genuine :=
  fun _ hmem => absurd hmem List.not_mem_nil

theorem genuine_step (w : World) (r : Request) (h : w.Genuine) : (w.step r).Genuine := by
  intro token hmem
  rcases List.mem_append.mp hmem with hmem | hmem
  · rcases hres : (r.prog w.issued).run w.db with ⟨_ | _ | signed, db'⟩ <;>
      rw [hres] at hmem
    · cases hmem
    · cases hmem
    · rw [List.mem_singleton.mp hmem]
      exact genuine_of_prog hres
  · exact h token hmem

theorem genuine_run (rs : List Request) {w : World} (h : w.Genuine) : (w.run rs).Genuine := by
  induction rs generalizing w with
  | nil => exact h
  | cons r rs ih => exact ih (genuine_step w r h)

end World

/-! ### An example campus -/

namespace Campus

/-- A Monday of the term. -/
def monday : ℤ := 4

/-- The full hour of a day. -/
def hour (h : ℕ) : TimeOfDay := .ofHM (h % 24) 0 (by rw [dayLength]; omega)

/-- The term of the example. -/
def term : AcademicTerm := ⟨1, "First Semester", 0, 100, .active⟩

/-- The same term in the archive. -/
def archivedTerms : TermTable :=
  ⟨⟨[{ term with status := .archived }], by decide⟩, by decide, by decide, by decide⟩

/-- One room with two classes on Mondays, one after the other, by two teachers. -/
def timetable : Db :=
  { Db.empty with
    rooms := ⟨[⟨1, 1, "A101", "qr-1", "100001", false, ""⟩], by decide⟩
    floors := ⟨[⟨1, 1, 1⟩], by decide⟩
    terms := ⟨⟨[term], by decide⟩, by decide, by decide, by decide⟩
    schedules := ⟨[
      ⟨1, 1, "CS1", "A", 30, 1, 1, 0, hour 9, hour 10, .f2f, .active⟩,
      ⟨2, 1, "CS2", "B", 30, 2, 1, 0, hour 8, hour 9, .f2f, .active⟩], by decide⟩ }

/-- The database with the sessions of that Monday. -/
def campus : Db := ((materializeTerm term monday 1 false 0).run timetable).2

/-- A scan of the room at a wall clock time. -/
def scanAt (user h m s : ℕ) : Request :=
  .resolve user (.link "qr-1")
    ⟨wallClock monday h m s, wallClock monday h m s, monday, wallClock monday h m s⟩

/-- The dean of the department. -/
def dean : User := ⟨3, "Dana", "Dean", .dean, some 1, true, false, "dana", ""⟩

/-- The one item of a request for the nine o'clock class. -/
def oneItem : Table ModalityShiftItem := ⟨[⟨1, 1, 1, none, none, none, none⟩], by decide⟩

/-- The database with a pending request for the nine o'clock class of that Monday. -/
def requested (target : Modality) : Db :=
  { campus with
    requests := ⟨[⟨1, 1, some 3, some 1, target, monday, monday, false, .pending, "", none, none⟩],
      List.nodup_singleton _⟩
    items := oneItem }

end Campus

end FluxTrack
