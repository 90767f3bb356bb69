import FluxTrack.Data.Utf8
import Mathlib.Data.List.Basic

/-!
# Percent-encoded text

Two readings of percent-encoded text. The strict one takes a text whose escapes all spell
characters, and no other. The lenient one takes any text: an escape that is none stays, bytes that
spell no character are replaced, and a plus sign is a blank. They agree on a text without plus
signs whose escapes spell characters, and on what the strict one refuses the lenient one changes
the text unless there is no escape in it.

## Main definitions

* `Percent.escape?`, `Percent.hasEscape` — an escape at the beginning, or anywhere
* `Percent.decodeURIComponent` — the strict reading
* `Percent.unquotePlus` — the lenient reading

## Main results

* `unquote_of_decode` — the lenient reading of what the strict one takes
* `length_unquote_lt` — an escape makes the lenient reading shorter
* `unquotePlus_eq_iff` — when the lenient reading is the strict one, or else the text as it is
-/

namespace Percent

/-- The value of a hexadecimal digit, in either case. -/
def hexValue (c : Char) : Option ℕ :=
  if 48 ≤ c.toNat ∧ c.toNat ≤ 57 then some (c.toNat - 48)
  else if 65 ≤ c.toNat ∧ c.toNat ≤ 70 then some (c.toNat - 55)
  else if 97 ≤ c.toNat ∧ c.toNat ≤ 102 then some (c.toNat - 87)
  else none

/-- The byte that an escape at the beginning spells, and the text behind it. -/
def escape? : List Char → Option (ℕ × List Char)
  | '%' :: a :: b :: rest =>
    match hexValue a, hexValue b with
    | some x, some y => some (16 * x + y, rest)
    | _, _ => none
  | _ => none

/-- There is an escape. -/
def hasEscape : List Char → Bool
  | [] => false
  | c :: l => (escape? (c :: l)).isSome || hasEscape l

/-! ### The strict reading -/

/-- The escapes that a character is still due, and the text behind them. -/
def readTail : (due low high value : ℕ) → List Char → Option (Char × List Char)
  | due, low, high, value, l =>
    match escape? l with
    | none => none
    | some (b, rest) =>
      if low ≤ b ∧ b ≤ high then
        match due with
        | 0 => some (Char.ofNat (Utf8.extend value b), rest)
        | due + 1 => readTail due 0x80 0xBF (Utf8.extend value b) rest
      else none

/-- The first character, escaped or not, and the text behind it. -/
def readChar : List Char → Option (Char × List Char)
  | [] => none
  | c :: l =>
    if c = '%' then
      match escape? (c :: l) with
      | none => none
      | some (b, rest) =>
        if b < 0x80 then some (Char.ofNat b, rest)
        else match Utf8.lead b with
          | none => none
          | some p => readTail p.due p.low p.high p.value rest
    else some (c, l)

/-- The characters of a text, at most so many. -/
def readChars : ℕ → List Char → Option (List Char)
  | _, [] => some []
  | 0, _ :: _ => none
  | n + 1, c :: l =>
    match readChar (c :: l) with
    | none => none
    | some (d, rest) => (readChars n rest).map fun u => d :: u

/-- `decodeURIComponent`, which throws on a text it does not take. -/
def decodeURIComponent (l : List Char) : Option (List Char) := readChars l.length l

/-! ### The lenient reading -/

/-- `unquote_to_bytes`, of a text in ASCII. -/
def toBytes : List Char → List ℕ
  | c :: a :: b :: rest =>
    if c = '%' then
      match hexValue a, hexValue b with
      | some x, some y => (16 * x + y) :: toBytes rest
      | _, _ => c.toNat :: toBytes (a :: b :: rest)
    else c.toNat :: toBytes (a :: b :: rest)
  | c :: l => c.toNat :: toBytes l
  | [] => []

/-- The character is in ASCII. -/
def isAscii (c : Char) : Bool := decide (c.toNat < 128)

/-- The runs of ASCII are decoded, one by one; other characters stay. -/
def unquoteRuns : List Char → List Char → List Char
  | run, [] => Utf8.decode none (toBytes run)
  | run, c :: l =>
    if isAscii c then unquoteRuns (run ++ [c]) l
    else Utf8.decode none (toBytes run) ++ c :: unquoteRuns [] l

/-- `unquote` -/
def unquote (l : List Char) : List Char := if '%' ∈ l then unquoteRuns [] l else l

/-- `+` for a blank. -/
def blankOfPlus (c : Char) : Char := if c = '+' then ' ' else c

/-- `unquote_plus` -/
def unquotePlus (l : List Char) : List Char := unquote (l.map blankOfPlus)

/-! ### Escapes -/

section

variable {c d : Char} {l rest : List Char} {b n : ℕ} {u : List Char} {s : Option Utf8.Pending}

theorem isAscii_of_hexValue {x : ℕ} (h : hexValue c = some x) : isAscii c = true := by
  refine decide_eq_true ?_
  unfold hexValue at h
  split at h
  · omega
  · split at h
    · omega
    · split at h
      · omega
      · cases h

/-- The shape of an escape. -/
theorem escape?_eq_some : escape? l = some (b, rest) ↔ ∃ a a' x y, l = '%' :: a :: a' :: rest ∧
    hexValue a = some x ∧ hexValue a' = some y ∧ 16 * x + y = b := by
  constructor
  · intro h
    unfold escape? at h
    split at h
    · rename_i a a' tail
      split at h
      · rename_i x y hx hy
        simp only [Option.some.injEq, Prod.mk.injEq] at h
        obtain ⟨rfl, rfl⟩ := h
        exact ⟨a, a', x, y, rfl, hx, hy, rfl⟩
      · cases h
    · cases h
  · rintro ⟨a, a', x, y, rfl, hx, hy, rfl⟩
    simp only [escape?, hx, hy]

theorem escape?_eq_none_of_ne (h : c ≠ '%') : escape? (c :: l) = none := by
  rw [Option.eq_none_iff_forall_ne_some]
  rintro ⟨b, rest⟩ hsome
  obtain ⟨a, a', x, y, hl, -⟩ := escape?_eq_some.mp hsome
  exact h (List.cons.inj hl).1

/-- An escape is a byte, and the bytes behind it are those of the text behind it. -/
theorem toBytes_escape (h : escape? l = some (b, rest)) : toBytes l = b :: toBytes rest := by
  obtain ⟨a, a', x, y, rfl, hx, hy, rfl⟩ := escape?_eq_some.mp h
  rw [toBytes, if_pos rfl]
  simp only [hx, hy]

/-- A character that begins no escape is a byte. -/
theorem toBytes_literal (h : escape? (c :: l) = none) :
    toBytes (c :: l) = c.toNat :: toBytes l := by
  cases l with
  | nil => rfl
  | cons a l =>
    cases l with
    | nil => rfl
    | cons a' l =>
      rw [toBytes]
      split
      · rename_i hpercent
        subst hpercent
        split
        · rename_i x y hx hy
          rw [escape?_eq_some.mpr ⟨a, a', x, y, rfl, hx, hy, rfl⟩] at h
          cases h
        · rfl
      · rfl

/-- The run of ASCII at the beginning has the escapes of the text. -/
theorem escape?_takeWhile : escape? (l.takeWhile isAscii) =
    (escape? l).map fun e => (e.1, e.2.takeWhile isAscii) := by
  cases h : escape? l with
  | some e =>
    obtain ⟨a, a', x, y, rfl, hx, hy, hb⟩ := escape?_eq_some.mp h
    rw [List.takeWhile_cons_of_pos (by decide), List.takeWhile_cons_of_pos (isAscii_of_hexValue hx),
      List.takeWhile_cons_of_pos (isAscii_of_hexValue hy)]
    exact escape?_eq_some.mpr ⟨a, a', x, y, rfl, hx, hy, hb⟩
  | none =>
    rw [Option.map_none, Option.eq_none_iff_forall_ne_some]
    rintro ⟨b, tail⟩ hsome
    -- an escape of the run is one of the text
    obtain ⟨a, a', x, y, hrun, hx, hy, hb⟩ := escape?_eq_some.mp hsome
    obtain ⟨behind, hl⟩ := List.takeWhile_prefix (l := l) isAscii
    rw [← hl, hrun, List.cons_append, List.cons_append, List.cons_append,
      escape?_eq_some.mpr ⟨a, a', x, y, rfl, hx, hy, hb⟩] at h
    cases h

/-! ### The lenient reading, character by character -/

/-- The lenient reading of a text with a character pending. -/
def resume (s : Option Utf8.Pending) (l : List Char) : List Char :=
  Utf8.decode s (toBytes (l.takeWhile isAscii)) ++
    match l.dropWhile isAscii with
    | [] => []
    | c :: l => c :: unquoteRuns [] l

theorem unquoteRuns_eq (run l : List Char) : unquoteRuns run l =
    Utf8.decode none (toBytes (run ++ l.takeWhile isAscii)) ++
      match l.dropWhile isAscii with
      | [] => []
      | c :: l => c :: unquoteRuns [] l := by
  induction l generalizing run with
  | nil => simp [unquoteRuns]
  | cons c l ih =>
    by_cases hc : isAscii c = true
    · rw [unquoteRuns, if_pos hc, ih, List.takeWhile_cons_of_pos hc, List.dropWhile_cons_of_pos hc,
        List.append_assoc, List.singleton_append]
    · rw [unquoteRuns, if_neg hc, List.takeWhile_cons_of_neg hc, List.dropWhile_cons_of_neg hc,
        List.append_nil]

theorem unquoteRuns_nil (l : List Char) : unquoteRuns [] l = resume none l :=
  unquoteRuns_eq [] l

theorem resume_nil (s : Option Utf8.Pending) : resume s [] = Utf8.decode s [] :=
  List.append_nil _

/-- An escape is the next byte. -/
theorem resume_escape (s : Option Utf8.Pending) (h : escape? l = some (b, rest)) :
    resume s l = (Utf8.step s b).1 ++ resume (Utf8.step s b).2 rest := by
  have hrun : escape? (l.takeWhile isAscii) = some (b, rest.takeWhile isAscii) := by
    rw [escape?_takeWhile, h]
    rfl
  have hbehind : l.dropWhile isAscii = rest.dropWhile isAscii := by
    obtain ⟨a, a', x, y, rfl, hx, hy, -⟩ := escape?_eq_some.mp h
    rw [List.dropWhile_cons_of_pos (by decide), List.dropWhile_cons_of_pos (isAscii_of_hexValue hx),
      List.dropWhile_cons_of_pos (isAscii_of_hexValue hy)]
  rw [resume, toBytes_escape hrun, hbehind, resume, ← List.append_assoc]
  cases s <;> rfl

/-- A character of ASCII that begins no escape is the next byte. -/
theorem resume_ascii (s : Option Utf8.Pending) (hc : isAscii c = true)
    (h : escape? (c :: l) = none) :
    resume s (c :: l) = (Utf8.step s c.toNat).1 ++ resume (Utf8.step s c.toNat).2 l := by
  have hrun : escape? (c :: l.takeWhile isAscii) = none := by
    have htake := escape?_takeWhile (l := c :: l)
    rwa [List.takeWhile_cons_of_pos hc, h] at htake
  rw [resume, List.takeWhile_cons_of_pos hc, List.dropWhile_cons_of_pos hc, toBytes_literal hrun,
    resume, ← List.append_assoc]
  cases s <;> rfl

/-- Another character stays, behind what was pending. -/
theorem resume_of_not_ascii (s : Option Utf8.Pending) (hc : isAscii c = false) :
    resume s (c :: l) = Utf8.decode s [] ++ c :: resume none l := by
  have hneg : ¬ isAscii c = true := by simp [hc]
  rw [resume, List.takeWhile_cons_of_neg hneg, List.dropWhile_cons_of_neg hneg, ← unquoteRuns_nil]
  rfl

/-- A character that begins no escape stays. -/
theorem resume_literal (h : escape? (c :: l) = none) :
    resume none (c :: l) = c :: resume none l := by
  cases hc : isAscii c with
  | true =>
    have hlt : c.toNat < 0x80 := of_decide_eq_true hc
    rw [resume_ascii none hc h, Utf8.step, Utf8.first_of_lt hlt, Char.ofNat_toNat]
    rfl
  | false =>
    rw [resume_of_not_ascii none hc]
    rfl

/-- A text without escapes stays. -/
theorem resume_of_hasEscape_eq_false (h : hasEscape l = false) : resume none l = l := by
  induction l with
  | nil => rfl
  | cons c l ih =>
    rw [hasEscape, Bool.or_eq_false_iff, Option.isSome_eq_false_iff, Option.isNone_iff_eq_none] at h
    rw [resume_literal h.1, ih h.2]

theorem hasEscape_eq_false_of_notMem (h : '%' ∉ l) : hasEscape l = false := by
  induction l with
  | nil => rfl
  | cons c l ih =>
    have hc : c ≠ '%' := fun heq => h (heq ▸ List.mem_cons_self)
    rw [hasEscape, escape?_eq_none_of_ne hc, ih fun hl => h (List.mem_cons_of_mem c hl)]
    rfl

theorem unquote_eq_resume (l : List Char) : unquote l = resume none l := by
  rw [unquote, unquoteRuns_nil]
  split
  · rfl
  · rename_i hl
    exact (resume_of_hasEscape_eq_false (hasEscape_eq_false_of_notMem hl)).symm

/-- The lenient reading is no longer than the text, and shorter if there is an escape. -/
theorem length_resume_le (s : Option Utf8.Pending) (l : List Char) :
    (resume s l).length + (if hasEscape l then 2 else 0) ≤ Utf8.pendingLength s + l.length := by
  -- by the length of the text, as an escape takes three characters at once
  induction hn : l.length using Nat.strongRecOn generalizing s l with
  | _ n ih =>
    subst hn
    cases l with
    | nil =>
      rw [resume_nil]
      exact Utf8.length_decode_le s []
    | cons c l =>
      cases hescape : escape? (c :: l) with
      | some e =>
        obtain ⟨b, rest⟩ := e
        obtain ⟨a, a', x, y, hl, -⟩ := escape?_eq_some.mp hescape
        have hlength : (c :: l).length = rest.length + 3 := by rw [hl]; rfl
        have hstep := Utf8.length_step_le s b
        have hrest := ih rest.length (by omega) (Utf8.step s b).2 rest rfl
        rw [resume_escape s hescape, List.length_append, hlength]
        split <;> split at hrest <;> omega
      | none =>
        have hlater : hasEscape (c :: l) = hasEscape l := by rw [hasEscape, hescape]; rfl
        rw [hlater, List.length_cons]
        cases hc : isAscii c with
        | true =>
          have hstep := Utf8.length_step_le s c.toNat
          have hrest := ih l.length (by simp) (Utf8.step s c.toNat).2 l rfl
          rw [resume_ascii s hc hescape, List.length_append]
          omega
        | false =>
          -- what was pending is written before the character
          have hpending := Utf8.length_decode_le s []
          have hrest := ih l.length (by simp) none l rfl
          rw [resume_of_not_ascii s hc, List.length_append, List.length_cons]
          simp only [Utf8.pendingLength, List.length_nil] at hrest hpending ⊢
          omega

/-- An escape makes the lenient reading shorter. -/
theorem length_unquote_lt (h : hasEscape l = true) : (unquote l).length < l.length := by
  have hle := length_resume_le none l
  rw [h, if_pos rfl] at hle
  rw [unquote_eq_resume]
  simp only [Utf8.pendingLength] at hle
  omega

theorem toBytes_ne_nil (h : l ≠ []) : toBytes l ≠ [] := by
  obtain ⟨c, l, rfl⟩ := List.exists_cons_of_ne_nil h
  cases hescape : escape? (c :: l) with
  | some e => simp [toBytes_escape hescape]
  | none => simp [toBytes_literal hescape]

/-- Some text is read as some text. -/
theorem unquote_ne_nil (h : l ≠ []) : unquote l ≠ [] := by
  rw [unquote_eq_resume, resume]
  cases hrun : l.takeWhile isAscii with
  | cons c run =>
    have hbytes := Utf8.decode_ne_nil (s := none) (toBytes_ne_nil (List.cons_ne_nil c run))
    simp [hbytes]
  | nil =>
    obtain ⟨c, l, rfl⟩ := List.exists_cons_of_ne_nil h
    have hc : ¬ isAscii c = true := fun hc => by
      rw [List.takeWhile_cons_of_pos hc] at hrun
      cases hrun
    rw [List.dropWhile_cons_of_neg hc]
    simp

theorem unquotePlus_ne_nil (h : l ≠ []) : unquotePlus l ≠ [] :=
  unquote_ne_nil (by simpa using h)

/-! ### The lenient reading of what the strict one takes -/

/-- A character ends with an escape within the bounds. -/
theorem readTail_zero {low high value : ℕ} : readTail 0 low high value l = some (c, rest) ↔
    ∃ b, escape? l = some (b, rest) ∧ (low ≤ b ∧ b ≤ high) ∧
      Char.ofNat (Utf8.extend value b) = c := by
  constructor
  · intro h
    unfold readTail at h
    split at h
    · cases h
    · rename_i b tail hescape
      split at h
      · rename_i hbounds
        obtain ⟨rfl, rfl⟩ := Prod.mk.inj (Option.some.inj h)
        exact ⟨b, hescape, hbounds, rfl⟩
      · cases h
  · rintro ⟨b, hescape, hbounds, rfl⟩
    unfold readTail
    rw [hescape]
    exact if_pos hbounds

/-- A character that is due more goes on behind an escape within the bounds. -/
theorem readTail_succ {due low high value : ℕ} :
    readTail (due + 1) low high value l = some (c, rest) ↔
      ∃ b tail, escape? l = some (b, tail) ∧ (low ≤ b ∧ b ≤ high) ∧
        readTail due 0x80 0xBF (Utf8.extend value b) tail = some (c, rest) := by
  constructor
  · intro h
    unfold readTail at h
    split at h
    · cases h
    · rename_i b tail hescape
      split at h
      · rename_i hbounds
        exact ⟨b, tail, hescape, hbounds, h⟩
      · cases h
  · rintro ⟨b, tail, hescape, hbounds, htail⟩
    unfold readTail
    rw [hescape]
    exact (if_pos hbounds).trans htail

/-- A character stands for itself, is an escape, or begins with one and is due some more. -/
theorem readChar_eq_some : readChar l = some (c, rest) ↔
    l = c :: rest ∧ c ≠ '%' ∨
    (∃ b, escape? l = some (b, rest) ∧ b < 0x80 ∧ Char.ofNat b = c) ∨
    ∃ b tail p, escape? l = some (b, tail) ∧ ¬ b < 0x80 ∧ Utf8.lead b = some p ∧
      readTail p.due p.low p.high p.value tail = some (c, rest) := by
  constructor
  · intro h
    unfold readChar at h
    split at h
    · cases h
    · split at h
      · split at h
        · cases h
        · rename_i b tail hescape
          split at h
          · rename_i hlt
            obtain ⟨rfl, rfl⟩ := Prod.mk.inj (Option.some.inj h)
            exact .inr (.inl ⟨b, hescape, hlt, rfl⟩)
          · rename_i hge
            split at h
            · cases h
            · rename_i p hlead
              exact .inr (.inr ⟨b, tail, p, hescape, hge, hlead, h⟩)
      · rename_i hne
        obtain ⟨rfl, rfl⟩ := Prod.mk.inj (Option.some.inj h)
        exact .inl ⟨rfl, hne⟩
  · rintro (⟨rfl, hne⟩ | ⟨b, hescape, hlt, rfl⟩ | ⟨b, tail, p, hescape, hge, hlead, htail⟩)
    · rw [readChar, if_neg hne]
    · obtain ⟨a, a', x, y, rfl, -⟩ := escape?_eq_some.mp hescape
      rw [readChar, if_pos rfl, hescape]
      exact if_pos hlt
    · obtain ⟨a, a', x, y, rfl, -⟩ := escape?_eq_some.mp hescape
      rw [readChar, if_pos rfl, hescape]
      simp only [if_neg hge, hlead, htail]

theorem resume_readTail {due low high value : ℕ}
    (h : readTail due low high value l = some (c, rest)) :
    resume (some ⟨due, low, high, value⟩) l = c :: resume none rest := by
  induction due generalizing low high value l with
  | zero =>
    obtain ⟨b, hescape, hbounds, rfl⟩ := readTail_zero.mp h
    rw [resume_escape _ hescape, Utf8.step, if_pos hbounds]
    rfl
  | succ due ih =>
    obtain ⟨b, tail, hescape, hbounds, htail⟩ := readTail_succ.mp h
    rw [resume_escape _ hescape, Utf8.step, if_pos hbounds]
    exact ih htail

theorem resume_readChar (h : readChar l = some (c, rest)) :
    resume none l = c :: resume none rest := by
  rcases readChar_eq_some.mp h with ⟨rfl, hne⟩ | ⟨b, hescape, hlt, rfl⟩ |
    ⟨b, tail, p, hescape, hge, hlead, htail⟩
  · exact resume_literal (escape?_eq_none_of_ne hne)
  · rw [resume_escape _ hescape, Utf8.step, Utf8.first, if_pos hlt]
    rfl
  · rw [resume_escape _ hescape, Utf8.step, Utf8.first, if_neg hge, hlead]
    exact resume_readTail htail

theorem resume_readChars (h : readChars n l = some u) : resume none l = u := by
  induction n generalizing l u with
  | zero =>
    cases l with
    | nil => exact Option.some.inj h
    | cons c l => cases h
  | succ n ih =>
    cases l with
    | nil => exact Option.some.inj h
    | cons c l =>
      rw [readChars] at h
      split at h
      · cases h
      · rename_i d tail hchar
        obtain ⟨v, hv, rfl⟩ := Option.map_eq_some_iff.mp h
        rw [resume_readChar hchar, ih hv]

/-- What the strict reading takes, the lenient one takes as well. -/
theorem unquote_of_decode (h : decodeURIComponent l = some u) : unquote l = u := by
  rw [unquote_eq_resume]
  exact resume_readChars h

/-! ### Plus signs -/

theorem hexValue_blankOfPlus (c : Char) : hexValue (blankOfPlus c) = hexValue c := by
  unfold blankOfPlus
  split
  · rename_i hc
    rw [hc]
    rfl
  · rfl

theorem blankOfPlus_eq_percent_iff : blankOfPlus c = '%' ↔ c = '%' := by
  unfold blankOfPlus
  split
  · rename_i hc
    subst hc
    decide
  · rfl

theorem blankOfPlus_ne_plus (c : Char) : blankOfPlus c ≠ '+' := by
  unfold blankOfPlus
  split
  · decide
  · assumption

/-- Plus signs belong to no escape. -/
theorem escape?_map : escape? (l.map blankOfPlus) =
    (escape? l).map fun e => (e.1, e.2.map blankOfPlus) := by
  cases h : escape? l with
  | some e =>
    obtain ⟨a, a', x, y, rfl, hx, hy, hb⟩ := escape?_eq_some.mp h
    refine escape?_eq_some.mpr ⟨blankOfPlus a, blankOfPlus a', x, y, rfl, ?_, ?_, hb⟩
    · rw [hexValue_blankOfPlus, hx]
    · rw [hexValue_blankOfPlus, hy]
  | none =>
    rw [Option.map_none, Option.eq_none_iff_forall_ne_some]
    rintro ⟨b, tail⟩ hsome
    obtain ⟨a, a', x, y, hl, hx, hy, hb⟩ := escape?_eq_some.mp hsome
    obtain ⟨c, l₁, rfl, hc, hl₁⟩ := List.map_eq_cons_iff.mp hl
    obtain ⟨d, l₂, rfl, rfl, hl₂⟩ := List.map_eq_cons_iff.mp hl₁
    obtain ⟨d', l₃, rfl, rfl, rfl⟩ := List.map_eq_cons_iff.mp hl₂
    rw [hexValue_blankOfPlus] at hx hy
    rw [blankOfPlus_eq_percent_iff.mp hc, escape?_eq_some.mpr ⟨d, d', x, y, rfl, hx, hy, hb⟩] at h
    cases h

theorem escape?_map_of_eq (h : escape? l = some (b, rest)) :
    escape? (l.map blankOfPlus) = some (b, rest.map blankOfPlus) := by
  rw [escape?_map, h]
  rfl

theorem hasEscape_map (l : List Char) : hasEscape (l.map blankOfPlus) = hasEscape l := by
  induction l with
  | nil => rfl
  | cons c l ih =>
    have hmap := escape?_map (l := c :: l)
    rw [List.map_cons] at hmap ⊢
    rw [hasEscape, hasEscape, ih, hmap, Option.isSome_map]

theorem count_cons_plus (c : Char) (l : List Char) :
    (c :: l).count '+' = [c].count '+' + l.count '+' := by
  rw [← List.count_append, List.singleton_append]

theorem count_escape (h : escape? l = some (b, rest)) : l.count '+' = rest.count '+' := by
  obtain ⟨a, a', x, y, rfl, hx, hy, -⟩ := escape?_eq_some.mp h
  have hdigit : ∀ d x, hexValue d = some x → d ≠ '+' := by
    rintro d x hd rfl
    cases hd
  rw [List.count_cons_of_ne (by decide), List.count_cons_of_ne (hdigit a x hx),
    List.count_cons_of_ne (hdigit a' y hy)]

theorem readTail_map {due low high value : ℕ}
    (h : readTail due low high value l = some (c, rest)) :
    readTail due low high value (l.map blankOfPlus) = some (c, rest.map blankOfPlus) ∧
      l.count '+' = rest.count '+' := by
  induction due generalizing low high value l with
  | zero =>
    obtain ⟨b, hescape, hbounds, rfl⟩ := readTail_zero.mp h
    exact ⟨readTail_zero.mpr ⟨b, escape?_map_of_eq hescape, hbounds, rfl⟩, count_escape hescape⟩
  | succ due ih =>
    obtain ⟨b, tail, hescape, hbounds, htail⟩ := readTail_succ.mp h
    obtain ⟨hread, hcount⟩ := ih htail
    exact ⟨readTail_succ.mpr ⟨b, _, escape?_map_of_eq hescape, hbounds, hread⟩,
      (count_escape hescape).trans hcount⟩

/-- The first character is a blank for a plus sign, and what it was otherwise. -/
theorem readChar_map (h : readChar l = some (c, rest)) :
    ∃ d, readChar (l.map blankOfPlus) = some (d, rest.map blankOfPlus) ∧
      [c].count '+' + rest.count '+' = [d].count '+' + l.count '+' := by
  rcases readChar_eq_some.mp h with ⟨rfl, hne⟩ | ⟨b, hescape, hlt, rfl⟩ |
    ⟨b, tail, p, hescape, hge, hlead, htail⟩
  · refine ⟨blankOfPlus c, readChar_eq_some.mpr (.inl ⟨rfl, ?_⟩), ?_⟩
    · exact mt blankOfPlus_eq_percent_iff.mp hne
    · have hzero : [blankOfPlus c].count '+' = 0 :=
        List.count_eq_zero.mpr (by simpa using (blankOfPlus_ne_plus c).symm)
      rw [hzero, Nat.zero_add, ← count_cons_plus]
  · refine ⟨Char.ofNat b, readChar_eq_some.mpr (.inr (.inl ?_)), ?_⟩
    · exact ⟨b, escape?_map_of_eq hescape, hlt, rfl⟩
    · rw [count_escape hescape]
  · obtain ⟨hread, hcount⟩ := readTail_map htail
    refine ⟨c, readChar_eq_some.mpr (.inr (.inr ?_)), ?_⟩
    · exact ⟨b, _, p, escape?_map_of_eq hescape, hge, hlead, hread⟩
    · rw [count_escape hescape, hcount]

theorem readChars_map (h : readChars n l = some u) :
    ∃ v, readChars n (l.map blankOfPlus) = some v ∧ u.count '+' = v.count '+' + l.count '+' := by
  induction n generalizing l u with
  | zero =>
    cases l with
    | nil =>
      cases h
      exact ⟨[], rfl, rfl⟩
    | cons c l => cases h
  | succ n ih =>
    cases l with
    | nil =>
      cases h
      exact ⟨[], rfl, rfl⟩
    | cons c l =>
      rw [readChars] at h
      split at h
      · cases h
      · rename_i d tail hchar
        obtain ⟨w, hw, rfl⟩ := Option.map_eq_some_iff.mp h
        obtain ⟨d', hchar', hcount'⟩ := readChar_map hchar
        obtain ⟨v, hv, hcount⟩ := ih hw
        refine ⟨d' :: v, ?_, ?_⟩
        · rw [List.map_cons] at hchar' ⊢
          rw [readChars, hchar']
          simp only [hv, Option.map_some]
        · rw [count_cons_plus d, count_cons_plus d']
          omega

/-- The lenient reading of a text is the strict one, or the text itself where the strict one
refuses it, exactly if there are no plus signs and the escapes all spell characters, or there are
no plus signs and no escapes. -/
theorem unquotePlus_eq_iff (l : List Char) : (decodeURIComponent l).getD l = unquotePlus l ↔
    '+' ∉ l ∧ (hasEscape l = false ∨ (decodeURIComponent l).isSome = true) := by
  have hsame : '+' ∉ l → l.map blankOfPlus = l := fun hl =>
    (List.map_congr_left (g := id) fun c hc => if_neg fun heq : c = '+' => hl (heq ▸ hc)).trans
      (List.map_id l)
  rw [unquotePlus]
  cases hdecode : decodeURIComponent l with
  | some u =>
    -- the strict reading keeps the plus signs that the lenient one has lost
    obtain ⟨v, hv, hcount⟩ := readChars_map hdecode
    have hdecode' : decodeURIComponent (l.map blankOfPlus) = some v := by
      rw [decodeURIComponent, List.length_map, hv]
    rw [Option.getD_some, unquote_of_decode hdecode', Option.isSome_some, eq_self, or_true,
      and_true]
    constructor
    · rintro rfl hplus
      have hpos := List.count_pos_iff.mpr hplus
      omega
    · intro hplus
      rw [hsame hplus, hdecode] at hdecode'
      exact Option.some.inj hdecode'
  | none =>
    rw [Option.getD_none, Option.isSome_none, Bool.false_eq_true, or_false]
    cases hescape : hasEscape l with
    | true =>
      -- the text is kept on one side, and has become shorter on the other
      have hlt := length_unquote_lt ((hasEscape_map l).trans hescape)
      rw [List.length_map] at hlt
      refine iff_of_false (fun heq => ?_) fun h => by cases h.2
      rw [← heq] at hlt
      exact Nat.lt_irrefl _ hlt
    | false =>
      rw [unquote_eq_resume, resume_of_hasEscape_eq_false ((hasEscape_map l).trans hescape)]
      constructor
      · intro heq
        refine ⟨fun hplus => ?_, rfl⟩
        rw [heq] at hplus
        obtain ⟨c, -, hc⟩ := List.mem_map.mp hplus
        exact blankOfPlus_ne_plus c hc
      · intro h
        exact (hsame h.1).symm

end

end Percent
