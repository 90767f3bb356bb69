import FluxTrack.Data.QueryText
import FluxTrack.Web.RoomTokens

/-!
# Two readings of a scanned text

The page that is offline and the server read the same token of a scanned text if they read the
same field and this is written without plus signs and with escapes that spell characters, or
without escapes. Without a field the text must be six digits for both or for neither. Where they
read two fields, these may still happen to spell the same token.

## Main definitions

* `ReadsAlike` — the page and the server read the same
* `WrittenPlainly` — a field that is the same token for both
* `ReadableAlike` — the texts that are read alike

## Main results

* `tokens_differ_behind_fragment` — a text that is not
* `readsAlike_iff` — which texts are
-/

namespace FluxTrack

/-- The page reads a token exactly if the server looks a room up by it, and nothing exactly if the
server refuses the text. -/
def ReadsAlike (tables : ScanTables) (payload : String) : Prop :=
  (∀ token, extractToken payload = some token ↔ readPayload tables payload = some (.link token) ∨
    readPayload tables payload = some (.code token)) ∧
    (extractToken payload = none ↔ readPayload tables payload = some .other)

/-- The field that the server takes the token from, as it is written. -/
def linkField (payload : String) : Option (List Char) :=
  if hasT payload.toList then
    ((queryFields (urlQuery payload)).find? fun field =>
      Percent.unquotePlus field.1 == ['t']).map Prod.snd
  else none

/-- A field without plus signs, and without escapes or with such as spell characters. -/
def WrittenPlainly (field : List Char) : Prop :=
  '+' ∉ field ∧
    (Percent.hasEscape field = false ∨ (Percent.decodeURIComponent field).isSome = true)

/-- The two fields are one that is written plainly, or two that spell one token. -/
def FieldsAlike (field link : List Char) : Prop :=
  field = link ∧ WrittenPlainly field ∨
    field ≠ link ∧ (Percent.decodeURIComponent field).getD field = Percent.unquotePlus link

/-- The server can take the text apart, and where there are fields, these are alike, and
otherwise the text is a code for both or for neither. -/
def ReadableAlike (tables : ScanTables) (payload : String) : Prop :=
  let page := (jsTrim payload).toList
  let server := Py.strip payload
  ¬ (hasT server.toList = true ∧ urlRaises tables server = true) ∧
    match tokenField page, linkField server with
    | some field, some link => FieldsAlike field link
    | none, none => isCode Char.isDigit page = isCode tables.isDecimal server.toList
    | _, _ => False

/-! ### Trimmed texts -/

section

variable {α : Type*} {p q : α → Bool} {l core : List α} {a : α}

theorem mem_trim_of_mem (ha : a ∈ trim p l) : a ∈ l := by
  rw [trim, List.mem_reverse] at ha
  exact (List.dropWhile_sublist p).subset
    (List.mem_reverse.mp ((List.dropWhile_sublist p).subset ha))

theorem mem_dropWhile_of_mem (ha : a ∈ l) (hp : p a = false) : a ∈ l.dropWhile p := by
  rw [← List.takeWhile_append_dropWhile (p := p) (l := l)] at ha
  rcases List.mem_append.mp ha with ha | ha
  · rw [List.mem_takeWhile_imp ha] at hp
    cases hp
  · exact ha

/-- Trimming leaves what it does not accept. -/
theorem mem_trim_iff (hp : p a = false) : a ∈ trim p l ↔ a ∈ l := by
  refine ⟨mem_trim_of_mem, fun ha => ?_⟩
  rw [trim, List.mem_reverse]
  exact mem_dropWhile_of_mem (List.mem_reverse.mpr (mem_dropWhile_of_mem ha hp)) hp

theorem trim_isInfix (p : α → Bool) (l : List α) : trim p l <:+: l := by
  have hback := List.reverse_infix.mpr
    (List.dropWhile_suffix (l := (l.dropWhile p).reverse) p).isInfix
  rw [List.reverse_reverse] at hback
  exact hback.trans (List.dropWhile_suffix p).isInfix

/-- A piece that nothing is accepted of is left in one piece. -/
theorem isInfix_trim (hcore : ∀ a ∈ core, q a = false) (h : core <:+: l) : core <:+: trim q l := by
  have hdrop : ∀ {core l : List α}, (∀ a ∈ core, q a = false) → core <:+: l →
      core <:+: l.dropWhile q := by
    intro core l hcore h
    obtain ⟨front, back, rfl⟩ := h
    cases core with
    | nil => exact List.nil_infix
    | cons a core =>
      have ha := hcore a List.mem_cons_self
      induction front with
      | nil => exact ⟨[], back, by simp [ha]⟩
      | cons b front ih =>
        rw [List.cons_append, List.cons_append]
        by_cases hb : q b = true
        · rw [List.dropWhile_cons_of_pos hb]
          exact ih
        · rw [List.dropWhile_cons_of_neg hb]
          exact ⟨b :: front, back, rfl⟩
  rw [trim, ← List.reverse_infix, List.reverse_reverse]
  refine hdrop (fun a ha => hcore a (List.mem_reverse.mp ha)) ?_
  exact List.reverse_infix.mpr (hdrop hcore h)

end

/-! ### Codes and fields -/

section

variable {tables : ScanTables} {payload : String} {l field link : List Char}

theorem eq_mem_of_hasT (h : hasT l = true) : '=' ∈ l :=
  (of_decide_eq_true h).subset (by decide)

/-- A text that has a field is no code. -/
theorem isCode_eq_false_of_eq_mem {digit : Char → Bool} (hdigit : digit '=' = false)
    (h : '=' ∈ l) : isCode digit l = false := by
  rw [isCode, Bool.and_eq_false_iff, List.all_eq_false]
  exact .inr ⟨'=', h, by simp [hdigit]⟩

theorem isDecimal_eq (tables : ScanTables) : tables.isDecimal '=' = false :=
  tables.isDecimal_ascii '=' (by decide)

/-- Both trimmed texts have the same equal signs. -/
theorem eq_mem_jsTrim_iff : '=' ∈ (jsTrim payload).toList ↔ '=' ∈ (Py.strip payload).toList := by
  rw [jsTrim, Py.strip, String.toList_ofList, String.toList_ofList]
  exact (mem_trim_iff (by decide)).trans (mem_trim_iff (p := Py.isSpace) (by decide)).symm

theorem hasT_of_tokenField (h : tokenField l = some field) : hasT l = true := by
  rw [tokenField] at h
  split at h
  · assumption
  · cases h

theorem hasT_of_linkField (h : linkField payload = some link) : hasT payload.toList = true := by
  rw [linkField] at h
  split at h
  · assumption
  · cases h

/-- A field of a query has a value. -/
theorem value_ne_nil {query : List Char} {f : List Char × List Char} (h : f ∈ queryFields query) :
    f.2 ≠ [] := by
  obtain ⟨part, -, hpart⟩ := List.mem_filterMap.mp h
  split at hpart
  · cases hpart
    simp
  · cases hpart

/-- The token is the field, decoded. -/
theorem linkToken_eq (payload : String) :
    linkToken payload = (linkField payload).map Percent.unquotePlus := by
  rw [linkToken, linkField]
  split
  · rw [parseQsl, List.find?_map, Option.map_map, Option.map_map]
    rfl
  · rfl

theorem filter_linkToken (payload : String) :
    (linkToken payload).filter (fun token => !token.isEmpty) = linkToken payload := by
  rw [linkToken_eq]
  cases h : linkField payload with
  | none => rfl
  | some link =>
    have hne : link ≠ [] := by
      rw [linkField] at h
      split at h
      · obtain ⟨f, hf, rfl⟩ := Option.map_eq_some_iff.mp h
        exact value_ne_nil (List.mem_of_find?_eq_some hf)
      · cases h
    have htoken := Percent.unquotePlus_ne_nil hne
    simp [htoken]

/-- Two codes are one code. -/
theorem strip_eq_jsTrim (hpage : isCode Char.isDigit (jsTrim payload).toList = true)
    (hserver : isCode tables.isDecimal (Py.strip payload).toList = true) :
    Py.strip payload = jsTrim payload := by
  rw [isCode, Bool.and_eq_true, decide_eq_true_iff] at hpage hserver
  have hdigits : ∀ c ∈ (jsTrim payload).toList, Py.isSpace c = false := fun c hc =>
    Py.not_isSpace_of_isDigit (List.all_eq_true.mp hpage.2 c hc)
  have hinfix : (jsTrim payload).toList <:+: (Py.strip payload).toList := by
    rw [jsTrim, String.toList_ofList] at hdigits ⊢
    rw [Py.strip, String.toList_ofList]
    exact isInfix_trim hdigits (trim_isInfix _ _)
  have heq := hinfix.eq_of_length (hpage.1.trans hserver.1.symm)
  exact String.toList_inj.mp heq.symm

/-! ### What the page and the server read -/

/-- The token of a payload. -/
def tokenOf : Payload → Option String
  | .link token => some token
  | .code digits => some digits
  | .other => none

theorem readsAlike_iff_token : ReadsAlike tables payload ↔
    ∃ read, readPayload tables payload = some read ∧ extractToken payload = tokenOf read := by
  constructor
  · rintro ⟨htoken, hnone⟩
    cases hread : readPayload tables payload with
    | none =>
      -- the page reads something, which the server would have to look up
      rw [hread] at htoken hnone
      cases hextract : extractToken payload with
      | none => exact absurd (hnone.mp hextract) (by simp)
      | some token => exact absurd ((htoken token).mp hextract) (by simp)
    | some read =>
      refine ⟨read, rfl, ?_⟩
      rw [hread] at htoken hnone
      cases read with
      | link token => exact (htoken token).mpr (.inl rfl)
      | code digits => exact (htoken digits).mpr (.inr rfl)
      | other => exact hnone.mpr rfl
  · rintro ⟨read, hread, hextract⟩
    rw [ReadsAlike, hread, hextract]
    cases read <;> simp [tokenOf]

theorem extractToken_of_field (h : tokenField (jsTrim payload).toList = some field) :
    extractToken payload =
      some (String.ofList ((Percent.decodeURIComponent field).getD field)) := by
  have hne : (jsTrim payload).toList ≠ [] :=
    List.ne_nil_of_mem (eq_mem_of_hasT (hasT_of_tokenField h))
  simp only [extractToken, if_neg hne, h]

theorem extractToken_of_none (h : tokenField (jsTrim payload).toList = none) :
    extractToken payload =
      if isCode Char.isDigit (jsTrim payload).toList then some (jsTrim payload) else none := by
  by_cases hne : (jsTrim payload).toList = []
  · rw [extractToken, if_pos hne, hne]
    rfl
  · simp only [extractToken, if_neg hne, h, String.ofList_toList]

theorem readPayload_of_field (hsplit : ¬ (hasT (Py.strip payload).toList = true ∧
      urlRaises tables (Py.strip payload) = true)) (h : linkField (Py.strip payload) = some link) :
    readPayload tables payload = some (.link (String.ofList (Percent.unquotePlus link))) := by
  have htoken : (linkToken (Py.strip payload)).filter (fun token => !token.isEmpty) =
      some (Percent.unquotePlus link) := by
    rw [filter_linkToken, linkToken_eq, h]
    rfl
  have hsplit' : ¬ (hasT (Py.strip payload).toList && urlRaises tables (Py.strip payload)) = true :=
    by rwa [Bool.and_eq_true]
  simp only [readPayload, if_neg hsplit', htoken]

theorem readPayload_of_none (hsplit : ¬ (hasT (Py.strip payload).toList = true ∧
      urlRaises tables (Py.strip payload) = true)) (h : linkField (Py.strip payload) = none) :
    readPayload tables payload = some
      (if isCode tables.isDecimal (Py.strip payload).toList then .code (Py.strip payload)
      else .other) := by
  have htoken : (linkToken (Py.strip payload)).filter (fun token => !token.isEmpty) = none := by
    rw [filter_linkToken, linkToken_eq, h]
    rfl
  have hsplit' : ¬ (hasT (Py.strip payload).toList && urlRaises tables (Py.strip payload)) = true :=
    by rwa [Bool.and_eq_true]
  simp only [readPayload, if_neg hsplit', htoken]
  exact (apply_ite some _ _ _).symm

theorem readPayload_of_raises (h : hasT (Py.strip payload).toList = true ∧
    urlRaises tables (Py.strip payload) = true) : readPayload tables payload = none := by
  rw [readPayload, if_pos (by rw [h.1, h.2]; rfl)]

/-- Fields are alike exactly if they are decoded to one token. -/
theorem fieldsAlike_iff : FieldsAlike field link ↔
    (Percent.decodeURIComponent field).getD field = Percent.unquotePlus link := by
  rw [FieldsAlike]
  by_cases hsame : field = link
  · subst hsame
    rw [Percent.unquotePlus_eq_iff, WrittenPlainly]
    simp
  · simp [hsame]

/-- Where neither reads a field, both must find a code, or none must. -/
theorem codes_eq_iff (tables : ScanTables) (payload : String) :
    (if isCode Char.isDigit (jsTrim payload).toList then some (jsTrim payload) else none) =
      tokenOf (if isCode tables.isDecimal (Py.strip payload).toList then .code (Py.strip payload)
        else .other) ↔
    isCode Char.isDigit (jsTrim payload).toList =
      isCode tables.isDecimal (Py.strip payload).toList := by
  cases hpage : isCode Char.isDigit (jsTrim payload).toList with
  | true =>
    cases hserver : isCode tables.isDecimal (Py.strip payload).toList with
    | true => simp [tokenOf, strip_eq_jsTrim hpage hserver]
    | false => simp [tokenOf]
  | false =>
    cases hserver : isCode tables.isDecimal (Py.strip payload).toList with
    | true => simp [tokenOf]
    | false => simp [tokenOf]

end

/-- Tables for texts in ASCII, with the brackets of a network location checked. -/
def asciiScanTables : ScanTables where
  isDecimal := Char.isDigit
  isDecimal_ascii _ _ := rfl
  rejects netloc := netloc.contains '[' != netloc.contains ']'

/-- The page takes the fragment of a link for a part of the token. -/
theorem tokens_differ_behind_fragment :
    ¬ ReadsAlike asciiScanTables "https://campus.example/scan?t=R401#door" := by
  intro h
  have hpage : extractToken "https://campus.example/scan?t=R401#door" = some "R401#door" := by
    decide +kernel
  have hserver : readPayload asciiScanTables "https://campus.example/scan?t=R401#door" =
      some (.link "R401") := by
    decide +kernel
  rcases (h.1 "R401#door").mp hpage with hlink | hcode
  · rw [hserver] at hlink
    exact absurd hlink (by decide)
  · rw [hserver] at hcode
    cases hcode

/-- The page and the server read a text alike exactly if it is readable alike. -/
theorem readsAlike_iff (tables : ScanTables) (payload : String) :
    ReadsAlike tables payload ↔ ReadableAlike tables payload := by
  rw [readsAlike_iff_token]
  by_cases hsplit : hasT (Py.strip payload).toList = true ∧
      urlRaises tables (Py.strip payload) = true
  · -- the server does not answer
    rw [readPayload_of_raises hsplit]
    refine iff_of_false ?_ fun h => h.1 hsplit
    rintro ⟨read, hread, -⟩
    cases hread
  cases hfield : tokenField (jsTrim payload).toList with
  | some field =>
    rw [extractToken_of_field hfield]
    have heq : '=' ∈ (Py.strip payload).toList :=
      eq_mem_jsTrim_iff.mp (eq_mem_of_hasT (hasT_of_tokenField hfield))
    cases hlink : linkField (Py.strip payload) with
    | some link =>
      -- both look a token up, decoded in two ways
      rw [readPayload_of_field hsplit hlink]
      simp only [ReadableAlike, hfield, hlink, fieldsAlike_iff]
      simp [tokenOf, hsplit, String.ofList_inj]
    | none =>
      -- a text with a field is no code
      rw [readPayload_of_none hsplit hlink, isCode_eq_false_of_eq_mem (isDecimal_eq tables) heq]
      simp only [ReadableAlike, hfield, hlink]
      simp [tokenOf]
  | none =>
    rw [extractToken_of_none hfield]
    cases hlink : linkField (Py.strip payload) with
    | some link =>
      have heq : '=' ∈ (jsTrim payload).toList :=
        eq_mem_jsTrim_iff.mpr (eq_mem_of_hasT (hasT_of_linkField hlink))
      rw [readPayload_of_field hsplit hlink, isCode_eq_false_of_eq_mem (by decide) heq]
      simp only [ReadableAlike, hfield, hlink]
      simp [tokenOf]
    | none =>
      rw [readPayload_of_none hsplit hlink]
      simp only [ReadableAlike, hfield, hlink, ← codes_eq_iff tables payload]
      simp [hsplit]

end FluxTrack
