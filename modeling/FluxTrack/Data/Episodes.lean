import Mathlib.Data.List.SplitBy

/-!
# Episodes

A list of readings, each of which holds or does not, falls into maximal blocks of equal
readings. The episodes are the blocks in which the reading holds; each has one reading it
begins with.

## Main definitions

* `episodes` — the number of episodes
* `beginsEpisode` — a reading is the first of an episode

## Main results

* `episodes_append_singleton` — one more reading adds the episode it begins
-/

namespace Episodes

/-- The number of maximal blocks of consecutive readings that hold. -/
def episodes (l : List Bool) : ℕ := (l.splitBy (· == ·)).countP fun block => block.contains true

/-- A reading that holds after readings of which the last does not. -/
def beginsEpisode (l : List Bool) (b : Bool) : Bool := b && !l.getLast?.getD false

@[simp] theorem episodes_nil : episodes [] = 0 := rfl

/-- A reading that differs from the last one makes a block of its own. -/
theorem splitBy_append_of_ne {l : List Bool} {b : Bool} (h : ∀ a ∈ l.getLast?, a ≠ b) :
    (l ++ [b]).splitBy (· == ·) = l.splitBy (· == ·) ++ [[b]] :=
  List.splitBy_append_cons [] fun a ha => by simpa using h a ha

/-- A reading that equals the last one goes to its block. -/
theorem splitBy_append_of_eq {l : List Bool} {b : Bool} (h : l.getLast? = some b) :
    ∃ blocks block, l.splitBy (· == ·) = blocks ++ [block] ∧ block.getLast? = some b ∧
      (l ++ [b]).splitBy (· == ·) = blocks ++ [block ++ [b]] := by
  have hne : l ≠ [] := by
    rintro rfl
    cases h
  obtain ⟨blocks, block, hsplit⟩ :=
    (List.eq_nil_or_concat' (l.splitBy (· == ·))).resolve_left (List.splitBy_ne_nil.mpr hne)
  have hblock : block ≠ [] :=
    List.ne_nil_of_mem_splitBy (l := l) (r := (· == ·)) (hsplit ▸ by simp)
  have hflat : l = (blocks ++ [block]).flatten := by
    rw [← hsplit, List.flatten_splitBy]
  have hlast : block.getLast? = some b := by
    rw [← h, hflat, List.flatten_append, List.flatten_singleton, List.getLast?_append,
      List.getLast?_eq_some_getLast hblock, Option.some_or]
  -- the blocks with the last one made longer have all that `splitBy` asks for
  obtain ⟨-, hnil, hchain, hsep⟩ := List.splitBy_eq_iff.mp hsplit
  refine ⟨blocks, block, hsplit, hlast, List.splitBy_eq_iff.mpr ⟨?_, ?_, ?_, ?_⟩⟩
  · rw [hflat]
    simp
  · intro hmem
    rcases List.mem_append.mp hmem with hmem | hmem
    · exact hnil (List.mem_append_left _ hmem)
    · simp at hmem
  · intro m hm
    rcases List.mem_append.mp hm with hm | hm
    · exact hchain m (List.mem_append_left _ hm)
    · rw [List.mem_singleton.mp hm, List.isChain_append]
      refine ⟨hchain block (by simp), List.isChain_singleton b, fun x hx y hy => ?_⟩
      rw [hlast] at hx
      cases hx
      cases hy
      simp
  · rw [List.isChain_append] at hsep ⊢
    refine ⟨hsep.1, List.isChain_singleton _, fun x hx y hy => ?_⟩
    obtain ⟨ha, hb, hrel⟩ := hsep.2.2 x hx block rfl
    cases hy
    refine ⟨ha, by simp, ?_⟩
    rwa [List.head_append_of_ne_nil hb]

/-- One more reading adds an episode exactly if it begins one. -/
theorem episodes_append_singleton (l : List Bool) (b : Bool) :
    episodes (l ++ [b]) = episodes l + if beginsEpisode l b then 1 else 0 := by
  by_cases h : l.getLast? = some b
  · obtain ⟨blocks, block, hsplit, hlast, hsplit'⟩ := splitBy_append_of_eq h
    have hmem : b ∈ block := List.mem_of_getLast? hlast
    have hcontains : (block ++ [b]).contains true = block.contains true := by
      cases b <;> simp [hmem]
    have hbegins : beginsEpisode l b = false := by
      simp [beginsEpisode, h]
    rw [episodes, hsplit', List.countP_append, List.countP_singleton, hcontains, hbegins, episodes,
      hsplit, List.countP_append, List.countP_singleton]
    simp
  · have hsplit : (l ++ [b]).splitBy (· == ·) = l.splitBy (· == ·) ++ [[b]] :=
      splitBy_append_of_ne fun a ha heq => h (by rw [← heq]; exact ha)
    have hbegins : beginsEpisode l b = b := by
      rcases hl : l.getLast? with _ | a
      · simp [beginsEpisode, hl]
      · rw [hl] at h
        cases a <;> cases b <;> simp_all [beginsEpisode]
    rw [episodes, hsplit, List.countP_append, List.countP_singleton, hbegins, episodes]
    cases b <;> simp

example : episodes [true, true, false, true] = 2 := by decide

end Episodes
