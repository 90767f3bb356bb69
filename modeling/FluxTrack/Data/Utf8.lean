import Mathlib.Data.Nat.Notation

/-!
# Lenient UTF-8

A decoder of UTF-8 that never fails: where a character cannot go on it writes one replacement
character for what it has read of it, and starts again with the byte that did not fit. The table
of well-formed byte sequences is that of the Unicode standard.

## Main definitions

* `Utf8.lead` — what may follow the first byte of a character
* `Utf8.decode` — the text of a list of bytes

## Main results

* `length_decode_le` — there are no more characters than bytes
* `decode_ne_nil` — some bytes are some text
-/

namespace Utf8

/-- The replacement character. -/
def replacement : Char := '\uFFFD'

/-- Inside a character: so many bytes are due after the next one, which must be within bounds. -/
structure Pending where
  due : ℕ
  low : ℕ
  high : ℕ
  value : ℕ

/-- What the first byte of a character of several bytes lets follow. -/
def lead (b : ℕ) : Option Pending :=
  if 0xC2 ≤ b ∧ b ≤ 0xDF then some ⟨0, 0x80, 0xBF, b - 0xC0⟩
  -- the shortest form only, and no surrogates
  else if b = 0xE0 then some ⟨1, 0xA0, 0xBF, 0⟩
  else if b = 0xED then some ⟨1, 0x80, 0x9F, 0xD⟩
  else if 0xE1 ≤ b ∧ b ≤ 0xEF then some ⟨1, 0x80, 0xBF, b - 0xE0⟩
  else if b = 0xF0 then some ⟨2, 0x90, 0xBF, 0⟩
  else if 0xF1 ≤ b ∧ b ≤ 0xF3 then some ⟨2, 0x80, 0xBF, b - 0xF0⟩
  else if b = 0xF4 then some ⟨2, 0x80, 0x8F, 4⟩
  else none

/-- The value with the bits of one more byte. -/
def extend (value b : ℕ) : ℕ := value * 64 + (b - 0x80)

/-- The first byte of a character: what is written, and what is pending. -/
def first (b : ℕ) : List Char × Option Pending :=
  if b < 0x80 then ([Char.ofNat b], none)
  else match lead b with
    | some p => ([], some p)
    | none => ([replacement], none)

/-- The next byte: what is written, and what is pending. -/
def step : Option Pending → ℕ → List Char × Option Pending
  | none, b => first b
  | some p, b =>
    if p.low ≤ b ∧ b ≤ p.high then
      match p.due with
      | 0 => ([Char.ofNat (extend p.value b)], none)
      | due + 1 => ([], some ⟨due, 0x80, 0xBF, extend p.value b⟩)
    -- what has been read is replaced, and the byte starts anew
    else (replacement :: (first b).1, (first b).2)

/-- The text of a list of bytes, with a character pending or not. -/
def decode : Option Pending → List ℕ → List Char
  | none, [] => []
  | some _, [] => [replacement]
  | s, b :: bs => (step s b).1 ++ decode (step s b).2 bs

/-- A pending character will be written. -/
def pendingLength : Option Pending → ℕ
  | none => 0
  | some _ => 1

variable {s : Option Pending} {b : ℕ} {bs : List ℕ}

theorem first_of_lt (h : b < 0x80) : first b = ([Char.ofNat b], none) := if_pos h

theorem length_first_le (b : ℕ) : (first b).1.length + pendingLength (first b).2 ≤ 1 := by
  rw [first]
  split
  · exact Nat.le_refl _
  · split <;> exact Nat.le_refl _

/-- A byte adds at most one character to what is written and pending. -/
theorem length_step_le (s : Option Pending) (b : ℕ) :
    (step s b).1.length + pendingLength (step s b).2 ≤ pendingLength s + 1 := by
  have hfirst := length_first_le b
  cases s with
  | none => exact Nat.le_trans hfirst (Nat.le_add_left _ _)
  | some p =>
    rw [step]
    split
    · split <;> simp [pendingLength]
    · rw [List.length_cons]
      simp only [pendingLength] at hfirst ⊢
      omega

theorem length_decode_le (s : Option Pending) (bs : List ℕ) :
    (decode s bs).length ≤ pendingLength s + bs.length := by
  induction bs generalizing s with
  | nil => cases s <;> exact Nat.le_refl _
  | cons b bs ih =>
    have hstep := length_step_le s b
    have hrest := ih (step s b).2
    rw [decode, List.length_append, List.length_cons]
    omega

theorem decode_some_ne_nil (p : Pending) (bs : List ℕ) : decode (some p) bs ≠ [] := by
  induction bs generalizing p with
  | nil => simp [decode]
  | cons b bs ih =>
    rw [decode, step]
    split
    · split
      · simp
      · simpa using ih _
    · simp

theorem decode_ne_nil (h : bs ≠ []) : decode s bs ≠ [] := by
  obtain ⟨b, bs, rfl⟩ := List.exists_cons_of_ne_nil h
  cases s with
  | some p => exact decode_some_ne_nil p _
  | none =>
    rw [decode, step, first]
    split
    · simp
    · split
      · simpa using decode_some_ne_nil _ bs
      · simp

end Utf8
