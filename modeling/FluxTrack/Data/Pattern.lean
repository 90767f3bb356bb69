import Mathlib.Data.List.Infix

/-!
# Search patterns

Patterns as a backtracking matcher reads them. A pattern is run on a text and answers with
all the ways to match a beginning of it, the preferred way first: a greedy repetition prefers
to take more, an alternative prefers its left side. A search takes the preferred way at the
first position where there is one.

## Main definitions

* `Pattern`, `Pattern.run` — patterns and their ways to match
* `Pattern.matchStart`, `Pattern.search` — `re.match` and `re.search`
* `Pattern.Needs` — every match takes a character of a class
* `Pattern.Prefers` — what the preferred match takes, leaves, and has in its groups

## Main results

* `run_suffix` — what a match leaves is an end of the text, and it has taken what it needs
* `length_groups` — every match has the groups of the pattern
* `search_eq_none` — a text without a character that is needed has no match
* `Prefers.seq`, `Prefers.group`, … — the preferred match of a pattern from those of its parts
-/

/-- Patterns; what is repeated is one class of characters. -/
inductive Pattern where
  /-- nothing -/
  | eps
  /-- one character of a class -/
  | char (p : Char → Bool)
  /-- characters of a class, as many as there are -/
  | many (p : Char → Bool)
  | seq (a b : Pattern)
  | alt (a b : Pattern)
  /-- a group whose text is wanted -/
  | group (a : Pattern)
  /-- `$`: the end of the text, before a final line break or after -/
  | stop

namespace Pattern

/-- A way to match: the texts of the groups, and what is left. -/
structure Match where
  groups : List (List Char)
  rest : List Char

/-- The ways to take characters of a class. -/
def runMany (p : Char → Bool) : List Char → List Match
  | [] => [⟨[], []⟩]
  | c :: s => if p c then runMany p s ++ [⟨[], c :: s⟩] else [⟨[], c :: s⟩]

/-- The ways to match a beginning of a text, the preferred one first. -/
def run : Pattern → List Char → List Match
  | eps, s => [⟨[], s⟩]
  | char _, [] => []
  | char p, c :: s => if p c then [⟨[], s⟩] else []
  | many p, s => runMany p s
  -- every way of the first, in order, goes on with every way of the second
  | seq a b, s => (run a s).flatMap fun m => (run b m.rest).map fun n =>
      ⟨m.groups ++ n.groups, n.rest⟩
  -- the right side is tried once the left side has run out of ways
  | alt a b, s => run a s ++ run b s
  | group a, s => (run a s).map fun m => ⟨s.take (s.length - m.rest.length) :: m.groups, m.rest⟩
  | stop, s => if s = [] ∨ s = ['\n'] then [⟨[], s⟩] else []

/-- One pattern after another. -/
def all (l : List Pattern) : Pattern := l.foldr seq eps

/-- A pattern or nothing, rather the pattern. -/
def opt (a : Pattern) : Pattern := alt a eps

/-- One character or more of a class. -/
def plus (p : Char → Bool) : Pattern := seq (char p) (many p)

/-- One character. -/
def lit (c : Char) : Pattern := char fun d => d == c

/-- `re.match`: the preferred match at the beginning of a text. -/
def matchStart (a : Pattern) (s : List Char) : Option Match := (a.run s).head?

/-- `re.search`: the preferred match at the first position that has one. -/
def search (a : Pattern) (s : List Char) : Option Match := s.tails.findSome? a.matchStart

/-- Every match takes a character of the class. -/
def Needs (q : Char → Bool) : Pattern → Prop
  | eps | many _ | stop => False
  | char p => ∀ c, p c = true → q c = true
  | seq a b => Needs q a ∨ Needs q b
  | alt a b => Needs q a ∧ Needs q b
  | group a => Needs q a

/-- The number of groups of every match, if there is one number. -/
def groups? : Pattern → Option ℕ
  | eps | char _ | many _ | stop => some 0
  | seq a b => a.groups?.bind fun i => b.groups?.map fun j => i + j
  | alt a b => if a.groups? = b.groups? then a.groups? else none
  | group a => a.groups?.map fun i => i + 1

variable {q : Char → Bool} {s : List Char} {m : Match} {a : Pattern} {n : ℕ}

theorem runMany_suffix {p : Char → Bool} (h : m ∈ runMany p s) : ∃ taken, s = taken ++ m.rest := by
  induction s with
  | nil =>
    rw [List.mem_singleton.mp h]
    exact ⟨[], rfl⟩
  | cons c s ih =>
    unfold runMany at h
    split at h
    · rcases List.mem_append.mp h with hmore | hnone
      · obtain ⟨taken, hs⟩ := ih hmore
        exact ⟨c :: taken, congrArg (c :: ·) hs⟩
      · rw [List.mem_singleton.mp hnone]
        exact ⟨[], rfl⟩
    · rw [List.mem_singleton.mp h]
      exact ⟨[], rfl⟩

/-- A match takes a beginning of the text, with what it needs. -/
theorem run_suffix (h : m ∈ a.run s) :
    ∃ taken, s = taken ++ m.rest ∧ (Needs q a → ∃ c ∈ taken, q c = true) := by
  -- on the pattern, for every text: a part of it runs on what the part before has left
  induction a generalizing s m with
  | eps =>
    rw [List.mem_singleton.mp h]
    exact ⟨[], rfl, False.elim⟩
  | char p =>
    cases s with
    | nil => cases h
    | cons c s =>
      unfold run at h
      split at h
      · rename_i hc
        rw [List.mem_singleton.mp h]
        exact ⟨[c], rfl, fun hneeds => ⟨c, List.mem_singleton_self c, hneeds c hc⟩⟩
      · cases h
  | many p =>
    obtain ⟨taken, hs⟩ := runMany_suffix h
    exact ⟨taken, hs, False.elim⟩
  | seq a b iha ihb =>
    obtain ⟨m₁, h₁, hrest⟩ := List.mem_flatMap.mp h
    obtain ⟨m₂, h₂, rfl⟩ := List.mem_map.mp hrest
    obtain ⟨taken₁, hs₁, hneeds₁⟩ := iha h₁
    obtain ⟨taken₂, hs₂, hneeds₂⟩ := ihb h₂
    refine ⟨taken₁ ++ taken₂, by rw [hs₁, hs₂, List.append_assoc], fun hneeds => ?_⟩
    rcases hneeds with hneeds | hneeds
    · obtain ⟨c, hc, hq⟩ := hneeds₁ hneeds
      exact ⟨c, List.mem_append_left _ hc, hq⟩
    · obtain ⟨c, hc, hq⟩ := hneeds₂ hneeds
      exact ⟨c, List.mem_append_right _ hc, hq⟩
  | alt a b iha ihb =>
    rcases List.mem_append.mp h with h | h
    · obtain ⟨taken, hs, hneeds⟩ := iha h
      exact ⟨taken, hs, fun hboth => hneeds hboth.1⟩
    · obtain ⟨taken, hs, hneeds⟩ := ihb h
      exact ⟨taken, hs, fun hboth => hneeds hboth.2⟩
  | group a ih =>
    obtain ⟨m', h', rfl⟩ := List.mem_map.mp h
    obtain ⟨taken, hs, hneeds⟩ := ih h'
    exact ⟨taken, hs, hneeds⟩
  | stop =>
    unfold run at h
    split at h
    · rw [List.mem_singleton.mp h]
      exact ⟨[], rfl, False.elim⟩
    · cases h

theorem groups_runMany {p : Char → Bool} (h : m ∈ runMany p s) : m.groups = [] := by
  induction s with
  | nil => rw [List.mem_singleton.mp h]
  | cons c s ih =>
    unfold runMany at h
    split at h
    · rcases List.mem_append.mp h with h | h
      · exact ih h
      · rw [List.mem_singleton.mp h]
    · rw [List.mem_singleton.mp h]

/-- Every match has the groups of the pattern. -/
theorem length_groups (hn : a.groups? = some n) (h : m ∈ a.run s) : m.groups.length = n := by
  induction a generalizing s m n with
  | eps =>
    cases hn
    rw [List.mem_singleton.mp h]
    rfl
  | char p =>
    cases hn
    cases s with
    | nil => cases h
    | cons c s =>
      unfold run at h
      split at h
      · rw [List.mem_singleton.mp h]
        rfl
      · cases h
  | many p =>
    cases hn
    rw [groups_runMany h]
    rfl
  | seq a b iha ihb =>
    obtain ⟨i, hi, hsum⟩ := Option.bind_eq_some_iff.mp hn
    obtain ⟨j, hj, rfl⟩ := Option.map_eq_some_iff.mp hsum
    obtain ⟨m₁, h₁, hrest⟩ := List.mem_flatMap.mp h
    obtain ⟨m₂, h₂, rfl⟩ := List.mem_map.mp hrest
    rw [List.length_append, iha hi h₁, ihb hj h₂]
  -- the two branches of an alternative have the same groups, else the pattern has no count
  | alt a b iha ihb =>
    unfold groups? at hn
    split at hn
    · rename_i hsame
      rcases List.mem_append.mp h with h | h
      · exact iha hn h
      · exact ihb (hsame ▸ hn) h
    · cases hn
  | group a ih =>
    obtain ⟨i, hi, rfl⟩ := Option.map_eq_some_iff.mp hn
    obtain ⟨m', h', rfl⟩ := List.mem_map.mp h
    exact congrArg (· + 1) (ih hi h')
  | stop =>
    cases hn
    unfold run at h
    split at h
    · rw [List.mem_singleton.mp h]
      rfl
    · cases h

theorem mem_run_of_search {t : List Char} (h : a.search t = some m) : ∃ s, m ∈ a.run s := by
  obtain ⟨s, -, hs⟩ := List.exists_of_findSome?_eq_some h
  exact ⟨s, List.mem_of_head? hs⟩

/-- A text in which a needed character does not occur has no match. -/
theorem search_eq_none (hneeds : Needs q a) (h : ∀ c ∈ s, q c = false) : a.search s = none := by
  refine List.findSome?_eq_none_iff.mpr fun t ht => ?_
  rw [matchStart, List.head?_eq_none_iff, List.eq_nil_iff_forall_not_mem]
  intro m hm
  obtain ⟨taken, hs, htaken⟩ := run_suffix (q := q) hm
  obtain ⟨c, hc, hq⟩ := htaken hneeds
  -- what is taken at any position is a piece of the text
  have hmem : c ∈ s := (List.mem_tails t s |>.mp ht).subset (hs ▸ List.mem_append_left _ hc)
  rw [h c hmem] at hq
  cases hq

/-! ### Preferred matches -/

/-- The preferred match takes the beginning `taken`, with these groups. -/
def Prefers (a : Pattern) (taken rest : List Char) (groups : List (List Char)) : Prop :=
  (a.run (taken ++ rest)).head? = some ⟨groups, rest⟩

section

variable {b : Pattern} {p : Char → Bool} {c : Char} {taken taken' rest : List Char}
  {groups groups' : List (List Char)}

theorem Prefers.matchStart (h : Prefers a taken rest groups) :
    a.matchStart (taken ++ rest) = some ⟨groups, rest⟩ := h

/-- A search stops at the beginning if there is a match. -/
theorem Prefers.search (h : Prefers a taken rest groups) :
    a.search (taken ++ rest) = some ⟨groups, rest⟩ := by
  rw [Pattern.search, List.tails.eq_def]
  cases htext : taken ++ rest with
  | nil => rw [List.findSome?_cons, ← htext, h.matchStart]
  | cons c s => rw [List.findSome?_cons, ← htext, h.matchStart]

theorem Prefers.eps : Prefers eps [] rest [] := rfl

theorem Prefers.stop : Prefers stop [] [] [] := rfl

theorem Prefers.char (hc : p c = true) : Prefers (char p) [c] rest [] := by
  change (if p c then [(⟨[], rest⟩ : Match)] else []).head? = _
  rw [if_pos hc]
  rfl

theorem Prefers.lit : Prefers (lit c) [c] rest [] := Prefers.char (beq_self_eq_true c)

/-- A repetition takes what it can. -/
theorem Prefers.many (htaken : ∀ c ∈ taken, p c = true) (hrest : ∀ c ∈ rest.head?, p c = false) :
    Prefers (many p) taken rest [] := by
  change (runMany p (taken ++ rest)).head? = _
  induction taken with
  | nil =>
    cases rest with
    | nil => rfl
    | cons c rest => rw [List.nil_append, runMany, if_neg (by simp [hrest c rfl])]; rfl
  | cons c taken ih =>
    rw [List.cons_append, runMany, if_pos (htaken c List.mem_cons_self), List.head?_append,
      ih fun d hd => htaken d (List.mem_cons_of_mem c hd)]
    rfl

theorem Prefers.seq (ha : Prefers a taken (taken' ++ rest) groups)
    (hb : Prefers b taken' rest groups') :
    Prefers (seq a b) (taken ++ taken') rest (groups ++ groups') := by
  obtain ⟨others, hways⟩ := List.head?_eq_some_iff.mp ha
  change ((a.run (taken ++ taken' ++ rest)).flatMap fun m => (b.run m.rest).map fun n =>
    (⟨m.groups ++ n.groups, n.rest⟩ : Match)).head? = _
  rw [List.append_assoc, hways, List.flatMap_cons, List.head?_append, List.head?_map,
    show (b.run (taken' ++ rest)).head? = _ from hb]
  rfl

theorem Prefers.plus (hc : p c = true) (htaken : ∀ c ∈ taken, p c = true)
    (hrest : ∀ c ∈ rest.head?, p c = false) : Prefers (plus p) (c :: taken) rest [] :=
  Prefers.seq (Prefers.char hc) (Prefers.many htaken hrest)

theorem Prefers.opt (h : Prefers a taken rest groups) : Prefers (opt a) taken rest groups := by
  change (a.run (taken ++ rest) ++ [(⟨[], taken ++ rest⟩ : Match)]).head? = _
  rw [List.head?_append, show (a.run (taken ++ rest)).head? = _ from h]
  rfl

/-- What may be left out is left out where it does not match. -/
theorem Prefers.opt_char (hrest : ∀ c ∈ rest.head?, p c = false) :
    Prefers (Pattern.opt (.char p)) [] rest [] := by
  cases rest with
  | nil => rfl
  | cons c rest =>
    change ((if p c then [(⟨[], rest⟩ : Match)] else []) ++ [(⟨[], c :: rest⟩ : Match)]).head? = _
    rw [if_neg (by simp [hrest c rfl])]
    rfl

theorem Prefers.group (h : Prefers a taken rest groups) :
    Prefers (group a) taken rest (taken :: groups) := by
  change ((a.run (taken ++ rest)).map fun m => (⟨(taken ++ rest).take
    ((taken ++ rest).length - m.rest.length) :: m.groups, m.rest⟩ : Match)).head? = _
  rw [List.head?_map, show (a.run (taken ++ rest)).head? = _ from h, Option.map_some]
  simp

/-- A group of no groups has the text it takes. -/
theorem Prefers.capture (h : Prefers a taken rest []) : Prefers (.group a) taken rest [taken] :=
  h.group

theorem Prefers.two {q : Char → Bool} {d : Char} (hc : p c = true) (hd : q d = true) :
    Prefers (.seq (.char p) (.char q)) [c, d] rest [] := by
  have hfirst : Prefers (.char p) [c] ([d] ++ rest) [] := .char hc
  exact hfirst.seq (.char hd)

/-- One character, where a second one might come and does not. -/
theorem Prefers.one_of_two (hc : p c = true) (hrest : ∀ c ∈ rest.head?, p c = false) :
    Prefers (.seq (.char p) (.opt (.char p))) [c] rest [] := by
  have hfirst : Prefers (.char p) [c] ([] ++ rest) [] := .char hc
  exact hfirst.seq (.opt_char hrest)

theorem Prefers.two_of_two {d : Char} (hc : p c = true) (hd : p d = true) :
    Prefers (.seq (.char p) (.opt (.char p))) [c, d] rest [] := by
  have hfirst : Prefers (.char p) [c] ([d] ++ rest) [] := .char hc
  exact hfirst.seq (.opt (.char hd))

theorem Prefers.all_cons {l : List Pattern} (ha : Prefers a taken (taken' ++ rest) groups)
    (hl : Prefers (.all l) taken' rest groups') :
    Prefers (.all (a :: l)) (taken ++ taken') rest (groups ++ groups') :=
  ha.seq hl

end

end Pattern
