import TerminalUI.Text.Pattern

/-!
# Searching for patterns

Where a match leads to, one equivalence for each kind of pattern, without the order of preference
(`Pattern.mem_ways_run`, `Pattern.mem_ways_seq` and so on). A search ends where some match in the
text leads to (`Pattern.exists_of_searchFrom`), and it does end if there is one
(`Pattern.exists_searchFrom`). So the order of preference only tells which of several matches is
found.
-/

namespace TerminalUI

namespace Pattern

variable {set : Char → Bool} {first second inside pattern : Pattern} {p q : Place}

/-! ### Where a match leads to -/

theorem mem_runs_iff {captured : Option (List Char × List Char × List Char)}
    {before after : List Char} :
    q ∈ runs set captured before after ↔ ∃ taken rest, taken ++ rest = after ∧
      (∀ c ∈ taken, set c = true) ∧ q = ⟨taken.reverse ++ before, rest, captured⟩ := by
  induction after generalizing before with
  | nil =>
    rw [runs, List.mem_singleton]
    constructor
    · rintro rfl
      exact ⟨[], [], rfl, nofun, rfl⟩
    · rintro ⟨taken, rest, happend, -, rfl⟩
      obtain ⟨rfl, rfl⟩ := List.append_eq_nil_iff.1 happend
      rfl
  | cons c after ih =>
    rw [runs, List.mem_append, List.mem_singleton]
    constructor
    · rintro (hmem | rfl)
      · split at hmem
        · rename_i hc
          obtain ⟨taken, rest, rfl, htaken, rfl⟩ := ih.1 hmem
          exact ⟨c :: taken, rest, rfl, List.forall_mem_cons.2 ⟨hc, htaken⟩, by simp⟩
        · cases hmem
      · exact ⟨[], c :: after, rfl, nofun, rfl⟩
    · rintro ⟨taken, rest, happend, htaken, rfl⟩
      cases taken with
      | nil =>
        obtain rfl : rest = c :: after := happend
        exact .inr rfl
      | cons d taken =>
        obtain ⟨rfl, rfl⟩ := List.cons.inj happend
        obtain ⟨hd, htaken⟩ := List.forall_mem_cons.1 htaken
        refine .inl ?_
        rw [if_pos hd]
        exact ih.2 ⟨taken, rest, rfl, htaken, by simp⟩

theorem mem_ways_start : q ∈ start.ways p ↔ p.before = [] ∧ q = p := by
  rw [ways, ← List.isEmpty_iff]
  split <;> simp_all

theorem mem_ways_stop : q ∈ stop.ways p ↔ p.after = [] ∧ q = p := by
  rw [ways, ← List.isEmpty_iff]
  split <;> simp_all

theorem mem_ways_one :
    q ∈ (one set).ways p ↔ ∃ c rest, c :: rest = p.after ∧ set c = true ∧
      q = ⟨c :: p.before, rest, p.captured⟩ := by
  rw [ways]
  cases p.after with
  | nil => simp
  | cons c rest =>
    dsimp only
    constructor
    · intro hq
      split at hq
      · rename_i hc
        exact ⟨c, rest, rfl, hc, List.mem_singleton.1 hq⟩
      · cases hq
    · rintro ⟨d, rest', heq, hd, rfl⟩
      obtain ⟨rfl, rfl⟩ := List.cons.inj heq
      rw [if_pos hd]
      exact List.mem_singleton_self _

theorem mem_ways_run :
    q ∈ (run set).ways p ↔ ∃ taken rest, taken ++ rest = p.after ∧ (∀ c ∈ taken, set c = true) ∧
      q = ⟨taken.reverse ++ p.before, rest, p.captured⟩ := mem_runs_iff

theorem mem_ways_seq :
    q ∈ (seq first second).ways p ↔ ∃ between ∈ first.ways p, q ∈ second.ways between :=
  List.mem_flatMap

theorem mem_ways_either :
    q ∈ (either first second).ways p ↔ q ∈ first.ways p ∨ q ∈ second.ways p :=
  List.mem_append

theorem mem_ways_group :
    q ∈ (group inside).ways p ↔ ∃ stop ∈ inside.ways p, p.capture stop = q :=
  List.mem_map

/-! ### Searches -/

variable {before skipped rest : List Char}

/-- A search ends where a match leads to that starts at some place of the text. -/
theorem exists_of_searchFrom {after : List Char} (h : pattern.searchFrom before after = some q) :
    ∃ skipped rest, skipped ++ rest = after ∧
      q ∈ pattern.ways ⟨skipped.reverse ++ before, rest, none⟩ := by
  induction after generalizing before with
  | nil => exact ⟨[], [], rfl, List.mem_of_mem_head? h⟩
  | cons c after ih =>
    rw [searchFrom] at h
    split at h
    · rename_i p hp
      cases h
      exact ⟨[], c :: after, rfl, List.mem_of_mem_head? hp⟩
    · obtain ⟨skipped, rest, rfl, hq⟩ := ih h
      exact ⟨c :: skipped, rest, rfl, by simpa using hq⟩

/-- A search in which some match is found ends. -/
theorem exists_searchFrom (h : q ∈ pattern.ways ⟨skipped.reverse ++ before, rest, none⟩) :
    ∃ q', pattern.searchFrom before (skipped ++ rest) = some q' := by
  have hhead {ps : List Place} (h : q ∈ ps) : ∃ q', ps.head? = some q' :=
    ⟨_, List.head?_eq_some_head (List.ne_nil_of_mem h)⟩
  induction skipped generalizing before with
  | nil =>
    obtain ⟨q', hq'⟩ := hhead h
    refine ⟨q', ?_⟩
    cases rest with
    | nil => exact hq'
    | cons c rest =>
      rw [List.nil_append, searchFrom]
      simp only [List.reverse_nil, List.nil_append] at hq'
      rw [hq']
  | cons c skipped ih =>
    rw [List.cons_append, searchFrom]
    split
    · rename_i p hp
      exact ⟨p, rfl⟩
    · exact ih (by simpa using h)

/-- What is captured, is captured by a match that starts at some place of the text. -/
theorem exists_of_capture? {s before inside after : String}
    (h : pattern.capture? s = some (before, inside, after)) :
    ∃ skipped rest q, skipped ++ rest = s.toList ∧
      q ∈ pattern.ways ⟨skipped.reverse, rest, none⟩ ∧
      q.captured = some (before.toList, inside.toList, after.toList) := by
  obtain ⟨captured, hcaptured, heq⟩ := Option.map_eq_some_iff.1 h
  obtain ⟨q, hsearch, hq⟩ := Option.bind_eq_some_iff.1 hcaptured
  obtain ⟨skipped, rest, hskipped, hways⟩ := exists_of_searchFrom hsearch
  simp only [Prod.mk.injEq] at heq
  obtain ⟨rfl, rfl, rfl⟩ := heq
  refine ⟨skipped, rest, q, hskipped, by simpa using hways, by simpa using hq⟩

/-- Something is captured if some match captures something, and all of them do. -/
theorem exists_capture? {s : String} (hs : skipped ++ rest = s.toList)
    (h : q ∈ pattern.ways ⟨skipped.reverse, rest, none⟩)
    (hcaptures : ∀ skipped rest q, skipped ++ rest = s.toList →
      q ∈ pattern.ways ⟨skipped.reverse, rest, none⟩ → q.captured ≠ none) :
    ∃ before inside after, pattern.capture? s = some (before, inside, after) := by
  have hways : q ∈ pattern.ways ⟨skipped.reverse ++ [], rest, none⟩ := by simpa using h
  obtain ⟨found, hfound⟩ := exists_searchFrom hways
  obtain ⟨skipped', rest', hs', hways⟩ := exists_of_searchFrom hfound
  rw [hs] at hfound hs'
  cases hcaptured : found.captured with
  | none => exact absurd hcaptured (hcaptures skipped' rest' found hs' (by simpa using hways))
  | some captured =>
    refine ⟨_, _, _, Option.map_eq_some_iff.2 ⟨captured, ?_, rfl⟩⟩
    rw [hfound]
    exact hcaptured

end Pattern

end TerminalUI
