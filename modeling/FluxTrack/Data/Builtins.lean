import Mathlib.Data.List.DropRight
import Mathlib.Data.List.Nodup

/-!
# Text and slices

The string operations the services use, on lists of code points, and the
consecutive slices of a list that a batched statement walks over.

## Main definitions

* `Py.isSpace`, `Py.strip`, `Py.split`, `Py.words`, `Py.join`, `Py.truncate` — `str.isspace`,
  `str.strip()`, `str.split(sep)`, `str.split()`, `sep.join(l)` and `s[:n]`
* `Py.urlScheme`, `Py.urlHostname` — the parts of `urlparse` the link check reads
* `Py.chunks` — `l[i:i + n]` for `i` in `range(0, len(l), n)`

## Main results

* `Py.join_words_join_words` — normalizing blanks twice is normalizing them once
* `Py.flatten_chunks` — the slices of a list make up the list
-/

namespace Py

/-- The code points `str.isspace` accepts. -/
def isSpace (c : Char) : Bool :=
  let n := c.toNat
  (9 ≤ n && n ≤ 13) || (28 ≤ n && n ≤ 32) || n == 133 || n == 160 || n == 5760 ||
    (8192 ≤ n && n ≤ 8202) || n == 8232 || n == 8233 || n == 8239 || n == 8287 || n == 12288

/-- `s.strip()`. -/
def strip (s : String) : String :=
  String.ofList ((s.toList.dropWhile isSpace).reverse.dropWhile isSpace).reverse

/-- Stripping a text twice is stripping it once. -/
theorem strip_strip (s : String) : strip (strip s) = strip s := by
  have hfront : ∀ l : List Char, ((l.dropWhile isSpace).rdropWhile isSpace).dropWhile isSpace =
      (l.dropWhile isSpace).rdropWhile isSpace := by
    intro l
    refine List.dropWhile_eq_self_iff.mpr fun hl => ?_
    -- the first character left is the first one that is not blank
    have hkept := List.rdropWhile_prefix isSpace (l := l.dropWhile isSpace)
    rw [hkept.getElem hl]
    exact List.dropWhile_eq_self_iff.mp (List.dropWhile_idempotent isSpace l)
      (hl.trans_le hkept.length_le)
  change String.ofList (List.rdropWhile isSpace (List.dropWhile isSpace
      (String.ofList (List.rdropWhile isSpace (List.dropWhile isSpace s.toList))).toList)) =
    String.ofList (List.rdropWhile isSpace (List.dropWhile isSpace s.toList))
  rw [String.toList_ofList, hfront, List.rdropWhile_idempotent]

/-- A text of which nothing is left has blanks only. -/
theorem isSpace_of_strip_eq {s : String} (h : strip s = "") : ∀ c ∈ s.toList, isSpace c = true := by
  have hnil : (s.toList.dropWhile isSpace).rdropWhile isSpace = [] := by
    have hlist := congrArg String.toList h
    rwa [strip, String.toList_ofList] at hlist
  refine List.dropWhile_eq_nil_iff.mp ?_
  rw [← List.dropWhile_idempotent isSpace s.toList]
  exact List.dropWhile_eq_nil_iff.mpr (List.rdropWhile_eq_nil_iff.mp hnil)

/-- `s.split(sep)` for one character. -/
def split (sep : Char) (s : String) : List String :=
  (s.toList.splitOnP fun c => c == sep).map String.ofList

/-- `s.split()`: the maximal runs of non-space characters. -/
def words (s : String) : List String :=
  ((s.toList.splitOnP isSpace).filter fun w => !w.isEmpty).map String.ofList

/-- `sep.join(l)`. -/
def join (sep : String) (l : List String) : String :=
  String.ofList (sep.toList.intercalate (l.map String.toList))

/-- Splitting what has been joined with a character gives the parts back. -/
theorem split_join {sep : Char} {l : List String} (h : ∀ s ∈ l, sep ∉ s.toList) (hne : l ≠ []) :
    split sep (join (String.singleton sep) l) = l := by
  have hparts : ∀ s ∈ l.map String.toList, sep ∉ s := by
    intro s hs
    obtain ⟨t, ht, rfl⟩ := List.mem_map.mp hs
    exact h t ht
  have hsplit := List.splitOn_intercalate sep hparts (by simpa using hne)
  rw [split, join, String.toList_ofList, String.toList_singleton]
  refine (congrArg (List.map String.ofList) hsplit).trans ?_
  simp [Function.comp_def, String.ofList_toList]

/-- Splitting what has been joined with blanks gives the words back. -/
theorem words_join {l : List String}
    (h : ∀ w ∈ l, w.toList ≠ [] ∧ ∀ c ∈ w.toList, isSpace c = false) : words (join " " l) = l := by
  have hsplit : ∀ l : List (List Char), (∀ w ∈ l, w ≠ [] ∧ ∀ c ∈ w, isSpace c = false) →
      (([' '].intercalate l).splitOnP isSpace).filter (fun w => !w.isEmpty) = l := by
    intro l hl
    induction l with
    | nil => rfl
    | cons w l ih =>
      obtain ⟨hne, hspace⟩ := hl w List.mem_cons_self
      have hrest := ih fun v hv => hl v (List.mem_cons_of_mem w hv)
      cases l with
      | nil => simp [List.intercalate, List.splitOnP_eq_singleton hspace, hne]
      | cons v l =>
        have hcons : [' '].intercalate (w :: v :: l) = w ++ ' ' :: [' '].intercalate (v :: l) := by
          simp [List.intercalate]
        rw [hcons, List.splitOnP_append_cons_of_forall_mem hspace ' ' (by decide)]
        simp [hne, hrest]
  have hlists := hsplit (l.map String.toList) fun w hw => by
    obtain ⟨v, hv, rfl⟩ := List.mem_map.mp hw
    exact h v hv
  rw [words, join, String.toList_ofList, show " ".toList = [' '] from rfl, hlists, List.map_map]
  simp

theorem not_isSpace_of_mem_words {s w : String} (hw : w ∈ words s) :
    w.toList ≠ [] ∧ ∀ c ∈ w.toList, isSpace c = false := by
  have hsplit : ∀ l : List Char, ∀ v ∈ l.splitOnP isSpace, ∀ c ∈ v, isSpace c = false := by
    intro l
    induction l with
    | nil => simp
    | cons x xs ih =>
      intro v hv c hc
      rw [List.splitOnP_cons_eq_if_modifyHead] at hv
      split at hv
      · rcases List.mem_cons.mp hv with rfl | hv
        · cases hc
        · exact ih v hv c hc
      · rename_i hx
        obtain ⟨u, us, hus⟩ := List.exists_cons_of_ne_nil (List.splitOnP_ne_nil isSpace xs)
        rw [hus, List.modifyHead_cons] at hv
        rw [hus] at ih
        rcases List.mem_cons.mp hv with rfl | hv
        · rcases List.mem_cons.mp hc with rfl | hc
          · simpa using hx
          · exact ih u List.mem_cons_self c hc
        · exact ih v (List.mem_cons_of_mem u hv) c hc
  obtain ⟨v, hv, rfl⟩ := List.mem_map.mp hw
  obtain ⟨hmem, hne⟩ := List.mem_filter.mp hv
  rw [String.toList_ofList]
  exact ⟨by simpa using hne, hsplit s.toList v hmem⟩

/-- A name whose blanks have been normalized stays as it is. -/
theorem join_words_join_words (s : String) :
    join " " (words (join " " (words s))) = join " " (words s) := by
  rw [words_join fun _ hw => not_isSpace_of_mem_words hw]

/-- `s[:n]`. -/
def truncate (n : ℕ) (s : String) : String := String.ofList (s.toList.take n)

/-! ### URLs -/

/-- The characters a URL scheme is made of. -/
def isSchemeChar (c : Char) : Bool :=
  c.isAlphanum || c == '+' || c == '-' || c == '.'

/-- `urlparse(s)` without leading control characters, tabs and line breaks, split
into scheme and rest. -/
def splitScheme (s : String) : List Char × List Char :=
  let url := (s.toList.dropWhile fun c => c.toNat ≤ 32).filter
    fun c => c != '\t' && c != '\r' && c != '\n'
  match url.span fun c => c != ':' with
  | (c :: cs, ':' :: rest) =>
    if c.isAlpha && cs.all isSchemeChar then ((c :: cs).map Char.toLower, rest) else ([], url)
  | _ => ([], url)

/-- `urlparse(s).scheme`. -/
def urlScheme (s : String) : String := String.ofList (splitScheme s).1

/-- `urlparse(s).netloc`. -/
def urlNetloc (s : String) : List Char :=
  match (splitScheme s).2 with
  | '/' :: '/' :: rest => rest.takeWhile fun c => c != '/' && c != '?' && c != '#'
  | _ => []

/-- `urlparse(s)` raises for an unbalanced bracket in the network location. -/
def urlInvalid (s : String) : Bool :=
  (urlNetloc s).contains '[' != (urlNetloc s).contains ']'

/-- `(urlparse(s).hostname or "").lower()`. -/
def urlHostname (s : String) : String :=
  let hostinfo := ((urlNetloc s).reverse.takeWhile fun c => c != '@').reverse
  let host := match hostinfo.dropWhile fun c => c != '[' with
    | '[' :: bracketed => bracketed.takeWhile fun c => c != ']'
    | _ => hostinfo.takeWhile fun c => c != ':'
  String.ofList (host.map Char.toLower)

variable {α : Type*}

/-- The slices `l[i:i + n]` for `i` in `range(0, len(l), n)`. -/
def chunks (n : ℕ) (l : List α) : List (List α) :=
  (List.range ((l.length + n - 1) / n)).map fun i => (l.drop (i * n)).take n

theorem flatten_map_slices (n k : ℕ) (l : List α) :
    ((List.range k).map fun i => (l.drop (i * n)).take n).flatten = l.take (k * n) := by
  induction k with
  | zero => simp
  | succ k ih =>
    rw [List.range_succ, List.map_append, List.flatten_append, ih, Nat.succ_mul, List.take_add]
    simp

/-- The slices of a list make up the list. -/
theorem flatten_chunks {n : ℕ} (hn : 0 < n) (l : List α) : (chunks n l).flatten = l := by
  rw [chunks, flatten_map_slices]
  refine List.take_of_length_le ?_
  have hdiv := Nat.div_add_mod (l.length + n - 1) n
  have hmod := Nat.mod_lt (l.length + n - 1) hn
  rw [Nat.mul_comm]
  omega

/-- The keys of a dictionary, in the order of their first use, are distinct. -/
theorem nodup_eraseDups [DecidableEq α] (l : List α) : l.eraseDups.Nodup := by
  induction hn : l.length using Nat.strong_induction_on generalizing l with
  | _ n ih =>
    cases l with
    | nil => exact List.nodup_nil
    | cons a l =>
      rw [List.eraseDups_cons, List.nodup_cons, List.mem_eraseDups, List.mem_filter]
      have hlength : (l.filter fun b => !b == a).length < n := by
        rw [← hn, List.length_cons]
        exact Nat.lt_succ_of_le (List.length_filter_le _ l)
      exact ⟨by simp, ih _ hlength _ rfl⟩

end Py
