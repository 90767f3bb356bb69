import FluxTrack.Theorems.CampusStructure
import FluxTrack.Theorems.RoomTokens

/-!
# Posters

The poster of a room carries a link with its token. A scan of it finds the room for as long as the
room is neither given new credentials nor deleted, and nothing from then on, whatever else is done.

## Main results

* `readPayload_deepLink` — the server reads the token off the link
* `poster_valid_iff` — for how long a poster is valid
-/

namespace FluxTrack

open Calendar Relational Process

/-! ### The link -/

/-- The characters of tokens and of hosts with their ports. -/
def isPlain (c : Char) : Bool :=
  let n := c.toNat
  (48 ≤ n && n ≤ 57) || (65 ≤ n && n ≤ 90) || (97 ≤ n && n ≤ 122) || n == 45 || n == 46 ||
    n == 58 || n == 95

section

variable {c d : Char} {l host token : List Char}

theorem ne_of_isPlain (hc : isPlain c = true) (hd : isPlain d = false) : c ≠ d := by
  rintro rfl
  rw [hc] at hd
  cases hd

/-- A text with no white space is what is left of it. -/
theorem strip_of_forall_not_isSpace {s : String} (h : ∀ c ∈ s.toList, Py.isSpace c = false) :
    Py.strip s = s := by
  have hdrop : ∀ l : List Char, (∀ c ∈ l, Py.isSpace c = false) → l.dropWhile Py.isSpace = l := by
    intro l hl
    cases l with
    | nil => rfl
    | cons c l =>
      rw [List.dropWhile_cons_of_neg]
      rw [hl c List.mem_cons_self]
      exact Bool.false_ne_true
  rw [Py.strip, hdrop _ h, hdrop _ fun c hc => h c (List.mem_reverse.mp hc), List.reverse_reverse,
    String.ofList_toList]

theorem isSpace_of_isPlain (h : isPlain c = true) : Py.isSpace c = false := by
  simp only [isPlain, Py.isSpace, Bool.or_eq_true, Bool.and_eq_true, decide_eq_true_eq, beq_iff_eq,
    Bool.or_eq_false_iff, Bool.and_eq_false_iff, decide_eq_false_iff_not, beq_eq_false_iff_ne]
    at h ⊢
  omega

theorem takeWhile_append_cons {p : Char → Bool} (hl : ∀ c ∈ l, p c = true) (hd : p d = false)
    (rest : List Char) : (l ++ d :: rest).takeWhile p = l := by
  rw [List.takeWhile_append_of_pos hl, List.takeWhile_cons_of_neg (by rw [hd]; exact Bool.false_ne_true),
    List.append_nil]

theorem dropWhile_append_cons {p : Char → Bool} (hl : ∀ c ∈ l, p c = true) (hd : p d = false)
    (rest : List Char) : (l ++ d :: rest).dropWhile p = d :: rest := by
  rw [List.dropWhile_append_of_pos hl,
    List.dropWhile_cons_of_neg (by rw [hd]; exact Bool.false_ne_true)]

/-- The text of a link, as its characters. -/
def linkChars (host token : List Char) : List Char :=
  "https".toList ++ ':' :: '/' :: '/' :: (host ++ '/' :: ("scan".toList ++ '?' :: ('t' :: '=' :: token)))

theorem toList_deepLink (host : String) (r : Room) :
    (deepLink host r).toList = linkChars host.toList r.qrToken.toList := by
  simp [deepLink, linkChars]

/-- Of a link only the characters between its parts are not plain. -/
theorem mem_linkChars (hhost : ∀ c ∈ host, isPlain c = true) (htoken : ∀ c ∈ token, isPlain c = true)
    (hc : c ∈ linkChars host token) : isPlain c = true ∨ c = '/' ∨ c = '?' ∨ c = '=' := by
  have hscheme : ∀ c ∈ "https".toList, isPlain c = true := List.all_eq_true.mp (by decide)
  have hpath : ∀ c ∈ "scan".toList, isPlain c = true := List.all_eq_true.mp (by decide)
  simp only [linkChars, List.mem_append, List.mem_cons] at hc
  rcases hc with hc | rfl | rfl | rfl | hc | rfl | hc | rfl | rfl | rfl | hc
  · exact .inl (hscheme c hc)
  · exact .inl rfl
  · exact .inr (.inl rfl)
  · exact .inr (.inl rfl)
  · exact .inl (hhost c hc)
  · exact .inr (.inl rfl)
  · exact .inl (hpath c hc)
  · exact .inr (.inr (.inl rfl))
  · exact .inl rfl
  · exact .inr (.inr (.inr rfl))
  · exact .inl (htoken c hc)

theorem isPlain_of_mem_linkChars (hhost : ∀ c ∈ host, isPlain c = true)
    (htoken : ∀ c ∈ token, isPlain c = true) {d : Char} (hd : isPlain d = false)
    (hslash : d ≠ '/') (hmark : d ≠ '?') (hequal : d ≠ '=') : d ∉ linkChars host token := by
  intro hmem
  rcases mem_linkChars hhost htoken hmem with hplain | rfl | rfl | rfl
  · rw [hplain] at hd
    cases hd
  · exact hslash rfl
  · exact hmark rfl
  · exact hequal rfl

/-- The scheme of the link is taken off. -/
theorem splitScheme_link {s : String} (hs : s.toList = linkChars host token)
    (hhost : ∀ c ∈ host, isPlain c = true) (htoken : ∀ c ∈ token, isPlain c = true) :
    Py.splitScheme s = ("https".toList,
      '/' :: '/' :: (host ++ '/' :: ("scan".toList ++ '?' :: ('t' :: '=' :: token)))) := by
  have hfront : (linkChars host token).dropWhile (fun c => decide (c.toNat ≤ 32)) =
      linkChars host token := by
    have hhead : linkChars host token = 'h' :: (linkChars host token).tail := rfl
    rw [hhead, List.dropWhile_cons_of_neg (by decide)]
  have hfilter : (linkChars host token).filter (fun c => c != '\t' && c != '\r' && c != '\n') =
      linkChars host token := by
    refine List.filter_eq_self.mpr fun c hc => ?_
    have hne : ∀ d, isPlain d = false → d ≠ '/' → d ≠ '?' → d ≠ '=' → c ≠ d :=
      fun d h₁ h₂ h₃ h₄ heq =>
        isPlain_of_mem_linkChars hhost htoken h₁ h₂ h₃ h₄ (heq ▸ hc)
    simp [hne '\t' (by decide) (by decide) (by decide) (by decide),
      hne '\r' (by decide) (by decide) (by decide) (by decide),
      hne '\n' (by decide) (by decide) (by decide) (by decide)]
  rw [Py.splitScheme, hs, hfront, hfilter]
  rfl

/-- The host of a link has none of the characters that end it. -/
theorem host_goes_on (hhost : ∀ c ∈ host, isPlain c = true) :
    ∀ c ∈ host, (c != '/' && c != '?' && c != '#') = true := by
  intro c hc
  simp [ne_of_isPlain (hhost c hc) (d := '/') (by decide),
    ne_of_isPlain (hhost c hc) (d := '?') (by decide),
    ne_of_isPlain (hhost c hc) (d := '#') (by decide)]

/-- A link has nothing around it to take off. -/
theorem strip_link {s : String} (hs : s.toList = linkChars host token)
    (hhost : ∀ c ∈ host, isPlain c = true) (htoken : ∀ c ∈ token, isPlain c = true) :
    Py.strip s = s := by
  refine strip_of_forall_not_isSpace fun c hc => ?_
  rw [hs] at hc
  rcases mem_linkChars hhost htoken hc with hplain | rfl | rfl | rfl
  · exact isSpace_of_isPlain hplain
  all_goals decide

/-- A link parses where its host does. -/
theorem urlRaises_link (tables : ScanTables) {s : String} (hs : s.toList = linkChars host token)
    (hhost : ∀ c ∈ host, isPlain c = true) (htoken : ∀ c ∈ token, isPlain c = true)
    (haccepts : tables.rejects host = false) : urlRaises tables s = false := by
  rw [urlRaises, splitScheme_link hs hhost htoken]
  change tables.rejects ((host ++ '/' :: _).takeWhile _) = false
  rw [takeWhile_append_cons (host_goes_on hhost) (by decide), haccepts]

/-- The query of a link goes to its end: there is no fragment. -/
theorem urlQuery_link {s : String} (hs : s.toList = linkChars host token)
    (hhost : ∀ c ∈ host, isPlain c = true) (htoken : ∀ c ∈ token, isPlain c = true) :
    urlQuery s = 't' :: '=' :: token := by
  have hfragment : ∀ c ∈ '/' :: ("scan".toList ++ '?' :: ('t' :: '=' :: token)),
      (c != '#') = true := by
    intro c hc
    refine bne_iff_ne.mpr ?_
    rintro rfl
    refine isPlain_of_mem_linkChars hhost htoken (by decide) (by decide) (by decide) (by decide)
      (List.mem_append_right _ (List.mem_cons_of_mem _ (List.mem_cons_of_mem _
        (List.mem_cons_of_mem _ (List.mem_append_right _ hc)))))
  rw [urlQuery, splitScheme_link hs hhost htoken]
  change (((List.dropWhile _ (host ++ '/' :: _)).takeWhile _).dropWhile _).drop 1 = _
  rw [dropWhile_append_cons (host_goes_on hhost) (by decide),
    List.takeWhile_eq_self_iff.mpr hfragment]
  rfl

/-- The query of a link is one field. -/
theorem linkField_link {s : String} (hs : s.toList = linkChars host token)
    (hhost : ∀ c ∈ host, isPlain c = true) (htoken : ∀ c ∈ token, isPlain c = true)
    (hne : token ≠ []) : linkField s = some token := by
  have hhas : hasT s.toList = true := by
    rw [hs]
    refine decide_eq_true ⟨"https".toList ++ ':' :: '/' :: '/' :: (host ++ '/' ::
      ("scan".toList ++ ['?'])), token, ?_⟩
    simp [linkChars]
  have hparts : ('t' :: '=' :: token).splitOnP (fun c => c == '&') = ['t' :: '=' :: token] := by
    refine List.splitOnP_eq_singleton fun c hc => ?_
    rcases List.mem_cons.mp hc with rfl | hc
    · decide
    · rcases List.mem_cons.mp hc with rfl | hc
      · decide
      · exact beq_false_of_ne (ne_of_isPlain (htoken c hc) (by decide))
  rw [linkField, if_pos hhas, urlQuery_link hs hhost htoken, queryFields, hparts]
  obtain ⟨c, rest, rfl⟩ := List.exists_cons_of_ne_nil hne
  rfl

/-- A token has nothing to unquote. -/
theorem unquotePlus_of_isPlain (htoken : ∀ c ∈ token, isPlain c = true) :
    Percent.unquotePlus token = token := by
  have hblank : token.map Percent.blankOfPlus = token := by
    refine (List.map_congr_left fun c hc => ?_).trans (List.map_id token)
    exact if_neg (ne_of_isPlain (htoken c hc) (by decide))
  have hescape : '%' ∉ token := fun hmem => by
    have hplain := htoken _ hmem
    revert hplain
    decide
  rw [Percent.unquotePlus, hblank, Percent.unquote, if_neg hescape]

/-- The server takes the token off the link. -/
theorem readPayload_of_link (tables : ScanTables) {s : String} (hs : s.toList = linkChars host token)
    (hhost : ∀ c ∈ host, isPlain c = true) (haccepts : tables.rejects host = false)
    (htoken : ∀ c ∈ token, isPlain c = true) (hne : token ≠ []) :
    readPayload tables s = some (.link (String.ofList token)) := by
  have hstrip := strip_link hs hhost htoken
  rw [readPayload_of_field, unquotePlus_of_isPlain htoken]
  · rw [hstrip, urlRaises_link tables hs hhost htoken haccepts]
    exact fun h => Bool.false_ne_true h.2
  · rw [hstrip]
    exact linkField_link hs hhost htoken hne

end

/-! ### The credentials of a room -/

namespace CampusConsole

variable {texts : CampusTexts} {db db' : Db} {token : Option String} {ended : List ℕ}

/-- A room keeps its token, or its credentials end and no room has the token. -/
theorem Change.credentials (hchange : Change texts db token ended db') (h : Sound texts db) {r : Room}
    (hr : r ∈ db.rooms) (hfresh : token ≠ some r.qrToken) :
    (r.id ∉ ended ∧ ∃ r' ∈ db'.rooms, r'.id = r.id ∧ r'.qrToken = r.qrToken ∧ r'.code = r.code) ∨
      (r.id ∈ ended ∧ ∀ r' ∈ db'.rooms, r'.qrToken ≠ r.qrToken) := by
  have hkept : r.id ∉ ([] : List ℕ) ∧
      ∃ r' ∈ db.rooms, r'.id = r.id ∧ r'.qrToken = r.qrToken ∧ r'.code = r.code :=
    ⟨List.not_mem_nil, r, hr, rfl, rfl, rfl⟩
  cases hchange with
  | idle | addBuilding | editBuilding | addFloor => exact .inl hkept
  | addRoom => exact .inl ⟨List.not_mem_nil, r, Table.mem_insert.mpr (.inl hr), rfl, rfl, rfl⟩
  | moveRoom | serveRoom =>
    exact .inl ⟨List.not_mem_nil,
      Table.exists_mem_update (by intro _; rfl) hr (by exact ⟨rfl, rfl⟩) (by exact ⟨rfl, rfl⟩)⟩
  | rotateRoom pk qr manual hqr hmanual =>
    by_cases hpk : r.id = pk
    · refine .inr ⟨List.mem_singleton.mpr hpk, fun r' hr' heq => ?_⟩
      obtain ⟨r₀, hr₀, rfl⟩ := (Table.mem_update_iff (by intro _; rfl)).mp hr'
      split at heq
      · exact hfresh (congrArg some heq)
      · -- another room would have the token already
        rename_i hother
        rw [h.tokens r₀ hr₀ r hr heq, hpk, beq_self_eq_true] at hother
        exact hother rfl
    · refine .inl ⟨fun hmem => hpk (List.mem_singleton.mp hmem), r, ?_, rfl, rfl, rfl⟩
      exact (Table.mem_update_iff (by intro _; rfl)).mpr
        ⟨r, hr, if_neg fun heq => hpk (beq_iff_eq.mp heq)⟩
  | dropRoom pk hfree hdb =>
    unfold deleteRoom at hdb
    split at hdb
    · cases hdb
    · cases hdb
      by_cases hpk : r.id = pk
      · refine .inr ⟨List.mem_singleton.mpr hpk, fun r' hr' heq => ?_⟩
        obtain ⟨hr₀, hother⟩ := Table.mem_delete.mp hr'
        rw [h.tokens r' hr₀ r hr heq, hpk, beq_self_eq_true] at hother
        cases hother
      · exact .inl ⟨fun hmem => hpk (List.mem_singleton.mp hmem), r,
          Table.mem_delete.mpr ⟨hr, beq_false_of_ne hpk⟩, rfl, rfl, rfl⟩
  | dropBuilding pk hfloors hdb =>
    unfold deleteBuilding at hdb
    split at hdb
    · cases hdb
    · cases hdb
      exact .inl hkept
  | dropFloor pk hrooms hdb =>
    unfold deleteFloor at hdb
    split at hdb
    · cases hdb
    · cases hdb
      exact .inl hkept

end CampusConsole

namespace CampusRun

variable {texts : CampusTexts} {W V : CampusRun} {r : Room}

/-- Since `W` the room has kept its token, or its credentials have ended, as the trail says, and no
room has the token. -/
def Follows (W : CampusRun) (r : Room) (V : CampusRun) : Prop :=
  r.qrToken ∈ V.used ∧ ∃ entries, V.console.trail = W.console.trail ++ entries ∧
    ((r.id ∉ retiredRooms entries ∧ ∃ r' ∈ V.console.db.rooms,
        r'.id = r.id ∧ r'.qrToken = r.qrToken ∧ r'.code = r.code) ∨
      (r.id ∈ retiredRooms entries ∧ ∀ r' ∈ V.console.db.rooms, r'.qrToken ≠ r.qrToken))

theorem Follows.step (h : W.Follows r V) (hV : V.Sound texts) {e : CampusStep}
    (hadmits : V.Admits texts e) : W.Follows r (V.step texts e) := by
  obtain ⟨hused, entries, htrail, hnow⟩ := h
  refine ⟨?_, ?_⟩
  · cases e <;> exact List.mem_append_right _ hused
  cases e with
  | other u =>
    obtain ⟨-, hstay, hnew⟩ := hadmits
    refine ⟨entries, htrail, ?_⟩
    rcases hnow with ⟨hend, r', hr', hsame⟩ | ⟨hend, hnone⟩
    · exact .inl ⟨hend, r', hstay r' hr', hsame⟩
    · refine .inr ⟨hend, fun r' hr' heq => ?_⟩
      rcases hnew r' hr' with hold | hfresh
      · exact hnone r' hold heq
      · exact hfresh (heq ▸ hused)
  | request e =>
    obtain ⟨new, hnewtrail, hchange⟩ := CampusConsole.makes_answer texts V.console e
    have hfresh : e.token? ≠ some r.qrToken := fun heq => hadmits r.qrToken heq hused
    refine ⟨entries ++ new, ?_, ?_⟩
    · change ((V.console.answer texts e).2).trail = _
      rw [hnewtrail, htrail, List.append_assoc]
    rw [retiredRooms, List.filterMap_append, List.mem_append]
    rcases hnow with ⟨hend, r', hr', hid, htoken, hcode⟩ | ⟨hend, hnone⟩
    · rw [← htoken] at hfresh
      rcases hchange.credentials hV.db hr' hfresh with ⟨hkeep, r'', hr'', hid', htoken', hcode'⟩ |
        ⟨hended, hnone⟩
      · refine .inl ⟨?_, r'', hr'', hid'.trans hid, htoken'.trans htoken, hcode'.trans hcode⟩
        rw [hid] at hkeep
        exact fun hmem => hmem.elim hend hkeep
      · rw [hid] at hended
        rw [htoken] at hnone
        exact .inr ⟨.inr hended, hnone⟩
    · refine .inr ⟨.inl hend, fun r' hr' heq => ?_⟩
      rcases token_of_change hchange hr' with ⟨r₀, hr₀, -, htoken, -⟩ | htoken
      · exact hnone r₀ hr₀ (htoken.trans heq)
      · exact hfresh (heq ▸ htoken)

end CampusRun

open CampusConsole CampusRun

/-- A poster is valid until the credentials of its room end. In any continuation of a run, whatever
is done to the campus, the link on the poster of a room finds that room under its code if the trail
since has neither a rotation nor a delete of the room, and no room at all if it has. -/
theorem poster_valid_iff (texts : CampusTexts) (tables : ScanTables) {W : CampusRun}
    (h : W.Sound texts) {r : Room} (hr : r ∈ W.console.db.rooms) {host : String}
    (hhost : ∀ c ∈ host.toList, isPlain c = true) (haccepts : tables.rejects host.toList = false)
    (htoken : ∀ c ∈ r.qrToken.toList, isPlain c = true) (hne : r.qrToken.toList ≠ [])
    {steps : List CampusStep} (hadmits : Along (step texts) (Admits texts) W steps)
    (user : ℕ) (now : ℤ) :
    let V := W.run texts steps
    ∃ payload entries, readPayload tables (deepLink host r) = some payload ∧
      V.console.trail = W.console.trail ++ entries ∧
      (r.id ∉ retiredRooms entries → ∃ r' ∈ V.console.db.rooms, r'.id = r.id ∧ r'.code = r.code ∧
        ((roomFromPayload user payload now).run V.console.db).1 = .ok (.ok (r', .qrScan))) ∧
      (r.id ∈ retiredRooms entries →
        ((roomFromPayload user payload now).run V.console.db).1 =
          .ok (.error (.unknownRoom .qrScan))) := by
  intro V
  have hread := readPayload_of_link tables (toList_deepLink host r) hhost haccepts htoken hne
  rw [String.ofList_toList] at hread
  have hstart : W.Follows r W :=
    ⟨h.used r hr, [], (List.append_nil _).symm, .inl ⟨List.not_mem_nil, r, hr, rfl, rfl, rfl⟩⟩
  obtain ⟨hV, -, entries, htrail, hnow⟩ : V.Sound texts ∧ W.Follows r V :=
    hadmits.invariant (I := fun V => V.Sound texts ∧ W.Follows r V)
      (fun _ _ hV he => ⟨hV.1.step he, hV.2.step hV.1 he⟩) ⟨h, hstart⟩ (List.prefix_refl steps)
  refine ⟨_, entries, hread, htrail, fun hend => ?_, fun hend => ?_⟩
  · rcases hnow with ⟨-, r', hr', hid, hsame, hcode⟩ | ⟨hended, -⟩
    · -- no other room has the token
      have hfind : V.console.db.rooms.rows.find? (fun x => x.qrToken == r.qrToken) = some r' := by
        rw [← hsame]
        exact hV.db.tokens.find? hr'
      refine ⟨r', hr', hid, hcode, ?_⟩
      rw [roomFromPayload, Prog.run_select_bind, hfind]
      rfl
    · exact absurd hended hend
  · rcases hnow with ⟨hkeep, -⟩ | ⟨-, hnone⟩
    · exact absurd hend hkeep
    · have hfind : V.console.db.rooms.rows.find? (fun x => x.qrToken == r.qrToken) = none :=
        List.find?_eq_none.mpr fun x hx heq => hnone x hx (beq_iff_eq.mp heq)
      rw [roomFromPayload, Prog.run_select_bind, hfind]
      rfl

open Campus in
/-- The old poster of a room finds nothing after a rotation. -/
theorem poster_of_rotated :
    let W := site.run campusTexts openRoom
    let V := W.run campusTexts [.request (.roomRotate 7 "R401" "def" [17, 18] 5)]
    ∃ r ∈ W.console.db.rooms, r.code = "R401" ∧
      ∃ payload, readPayload asciiScanTables (deepLink "campus.example" r) = some payload ∧
        ((roomFromPayload 7 payload 6).run V.console.db).1 =
          .ok (.error (.unknownRoom .qrScan)) := by
  intro W V
  have hr : (⟨1, 1, "R401", "abc", "000017", false, ""⟩ : Room) ∈ W.console.db.rooms.rows := by
    decide +kernel
  have hadmits : Along (step campusTexts) (Admits campusTexts) W
      [.request (.roomRotate 7 "R401" "def" [17, 18] 5)] := by
    refine ⟨fun qr hqr => ?_, trivial⟩
    cases hqr
    decide +kernel
  have hhost : ∀ c ∈ "campus.example".toList, isPlain c = true := List.all_eq_true.mp (by decide)
  obtain ⟨payload, entries, hread, htrail, -, hended⟩ := poster_valid_iff campusTexts asciiScanTables
    (sound_run sound_site admits_openRoom) hr hhost (by decide)
    (List.all_eq_true.mp (by decide)) (by decide) hadmits 7 6
  refine ⟨_, hr, rfl, payload, hread, hended ?_⟩
  have hentries : entries = [(7, .roomCodeRotated 1 "R401" "ACAD F4" 5)] := by
    have htrail' : V.console.trail = W.console.trail ++
        [(7, .roomCodeRotated 1 "R401" "ACAD F4" 5)] := by
      decide +kernel
    exact List.append_cancel_left (htrail.symm.trans htrail')
  rw [hentries]
  exact List.mem_singleton.mpr rfl

end FluxTrack
