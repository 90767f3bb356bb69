import FluxTrack.Data.Builtins

/-!
# Texts of a query

What a program writes into a query string: dates, numbers, and the string itself.

## Main definitions

* `Py.isoformat` — `date.isoformat()`, of the days since the first of January 1970
* `Py.urlencode` — `urlencode` of a mapping

## Main results

* `Py.strip_isoformat`, `Py.strip_toString` — written dates and numbers have no blanks around
-/

namespace Py

/-- A text without blanks stays as it is. -/
theorem strip_of_forall_not_isSpace {s : String} (h : ∀ c ∈ s.toList, isSpace c = false) :
    strip s = s := by
  have hfront : s.toList.dropWhile isSpace = s.toList :=
    List.dropWhile_eq_self_iff.mpr fun hl => by
      rw [h _ (List.getElem_mem hl)]
      exact Bool.false_ne_true
  have hback : s.toList.reverse.dropWhile isSpace = s.toList.reverse :=
    List.dropWhile_eq_self_iff.mpr fun hl => by
      rw [h _ (List.mem_reverse.mp (List.getElem_mem hl))]
      exact Bool.false_ne_true
  rw [strip, hfront, hback, List.reverse_reverse, String.ofList_toList]

theorem not_isSpace_of_isDigit {c : Char} (h : c.isDigit = true) : isSpace c = false := by
  simp only [Char.isDigit, Bool.and_eq_true, decide_eq_true_eq, UInt32.le_iff_toNat_le,
    ge_iff_le] at h
  change 48 ≤ c.toNat ∧ c.toNat ≤ 57 at h
  unfold isSpace
  simp only [Bool.or_eq_false_iff, Bool.and_eq_false_iff, decide_eq_false_iff_not,
    beq_eq_false_iff_ne]
  omega

/-- The decimal digits of a number have no blanks around. -/
theorem strip_toString (n : ℕ) : strip (toString n) = toString n :=
  strip_of_forall_not_isSpace fun c hc => by
    rw [Nat.toString_eq_repr, Nat.toList_repr] at hc
    exact not_isSpace_of_isDigit (Nat.isDigit_of_mem_toDigits (by decide) (by decide) hc)

/-! ### Dates -/

/-- Year, month and day of the date so many days after the first of January 1970. -/
def civil (d : ℤ) : ℤ × ℤ × ℤ :=
  -- the days since the first of March of the year 0, by eras of 400 years
  let days := d + 719468
  let era := days / 146097
  let ofEra := days % 146097
  let year := (ofEra - ofEra / 1460 + ofEra / 36524 - ofEra / 146096) / 365
  let ofYear := ofEra - (365 * year + year / 4 - year / 100)
  let month := (5 * ofYear + 2) / 153
  (era * 400 + year + (if month < 10 then 0 else 1), if month < 10 then month + 3 else month - 9,
    ofYear - (153 * month + 2) / 5 + 1)

/-- A number with leading zeros. -/
def zeroPadded (width n : ℕ) : List Char := (Nat.toDigits 10 n).leftpad width '0'

/-- `date.isoformat()`. -/
def isoformat (d : ℤ) : String :=
  String.ofList (zeroPadded 4 (civil d).1.toNat ++ '-' :: zeroPadded 2 (civil d).2.1.toNat ++
    '-' :: zeroPadded 2 (civil d).2.2.toNat)

example : isoformat 0 = "1970-01-01" ∧ isoformat 11016 = "2000-02-29" ∧
    isoformat (-719162) = "0001-01-01" ∧ isoformat 2932896 = "9999-12-31" := by decide +kernel

theorem not_isSpace_of_mem_zeroPadded {width n : ℕ} {c : Char} (h : c ∈ zeroPadded width n) :
    isSpace c = false := by
  rw [zeroPadded, List.leftpad, List.mem_append] at h
  rcases h with h | h
  · rw [List.eq_of_mem_replicate h]
    decide
  · exact not_isSpace_of_isDigit (Nat.isDigit_of_mem_toDigits (by decide) (by decide) h)

theorem strip_isoformat (d : ℤ) : strip (isoformat d) = isoformat d := by
  refine strip_of_forall_not_isSpace fun c hc => ?_
  rw [isoformat, String.toList_ofList, List.mem_append, List.mem_append, List.mem_cons,
    List.mem_cons] at hc
  rcases hc with (hc | rfl | hc) | rfl | hc
  · exact not_isSpace_of_mem_zeroPadded hc
  · decide
  · exact not_isSpace_of_mem_zeroPadded hc
  · decide
  · exact not_isSpace_of_mem_zeroPadded hc

theorem isoformat_ne_empty (d : ℤ) : isoformat d ≠ "" := by
  intro h
  have hnil := congrArg String.toList h
  rw [isoformat, String.toList_ofList] at hnil
  simp at hnil

/-! ### Query strings -/

/-- The characters that `quote_plus` keeps. -/
def isUnreserved (c : Char) : Bool := c.isAlphanum || c == '_' || c == '.' || c == '-' || c == '~'

/-- `quote_plus`: blanks become plus signs, other bytes are written in hexadecimal digits. -/
def quotePlus (s : String) : String :=
  String.ofList (s.toList.flatMap fun c =>
    if isUnreserved c then [c]
    else if c == ' ' then ['+']
    else (String.utf8EncodeChar c).flatMap fun b =>
      ['%', (Nat.digitChar (b.toNat / 16)).toUpper, (Nat.digitChar (b.toNat % 16)).toUpper])

/-- `urlencode` of a mapping. -/
def urlencode (params : List (String × String)) : String :=
  join "&" (params.map fun p => quotePlus p.1 ++ "=" ++ quotePlus p.2)

example : urlencode [("term", "1"), ("q", "a b/é")] = "term=1&q=a+b%2F%C3%A9" := by decide +kernel

end Py
