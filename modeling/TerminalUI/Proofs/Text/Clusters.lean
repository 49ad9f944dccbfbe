import TerminalUI.Text.Width

/-!
# Single clusters

What a text is cut into is not cut any further (`clusters_of_mem_clusters`), so a cluster is as wide
on its own as where it stands. A control character is a cluster by itself, and so is the pair of a
carriage return and a line feed; no other cluster has a control character in it
(`eq_or_eq_of_mem_clusters`).
-/

namespace TerminalUI

namespace Cluster

variable {s : State} {cluster cs : List Char} {c d : Char}

/-- A cluster as it grows, last character first, with the state that it leads to. -/
inductive Grown : State → List Char → Prop where
  | start (c : Char) : Grown (.start c) [c]
  | next {s : State} {cluster : List Char} {c : Char} (h : Grown s cluster)
    (hjoins : s.joins c = true) : Grown (s.next c) (c :: cluster)

/-- What a text is cut into after a cluster has grown, are clusters that have grown. -/
theorem exists_grown_of_mem_splitFrom {g : List Char} (h : Grown s cluster)
    (hg : g ∈ splitFrom s cluster cs) : ∃ s' grown, Grown s' grown ∧ g = grown.reverse := by
  induction cs generalizing s cluster with
  | nil => exact ⟨s, cluster, h, List.mem_singleton.1 hg⟩
  | cons c cs ih =>
    rw [splitFrom] at hg
    split at hg
    · rename_i hjoins
      exact ih (.next h hjoins) hg
    · rcases List.mem_cons.1 hg with rfl | hg
      · exact ⟨s, cluster, h, rfl⟩
      · exact ih (.start c) hg

theorem exists_grown_of_mem_split {g : List Char} (hg : g ∈ split cs) :
    ∃ s grown, Grown s grown ∧ g = grown.reverse := by
  cases cs with
  | nil => cases hg
  | cons c cs => exact exists_grown_of_mem_splitFrom (.start c) hg

/-- Cutting a text takes up a cluster that has grown at its start. -/
theorem Grown.split_append (h : Grown s cluster) (cs : List Char) :
    split (cluster.reverse ++ cs) = splitFrom s cluster cs := by
  induction h generalizing cs with
  | start c => rfl
  | @next s cluster c _ hjoins ih =>
    rw [List.reverse_cons, List.append_assoc, List.singleton_append, ih, splitFrom, if_pos hjoins]

theorem split_of_mem_split {g : List Char} (hg : g ∈ split cs) : split g = [g] := by
  obtain ⟨s, grown, h, rfl⟩ := exists_grown_of_mem_split hg
  have hsplit := h.split_append []
  rwa [List.append_nil] at hsplit

/-! ### Control characters -/

theorem Class.of_of_isControl (hc : isControl c = true) :
    Class.of c =
      if c = '\r' then .carriageReturn else if c = '\n' then .lineFeed else .breaking := by
  unfold Class.of
  rw [if_pos hc]

theorem Class.isBreaking_of_isControl (hc : isControl c = true) :
    (Class.of c).isBreaking = true := by
  rw [of_of_isControl hc]
  split
  · rfl
  · split <;> rfl

theorem Class.ne_of_syllableClass_eq_some {k : Class} (h : syllableClass c = some k) :
    k ≠ .carriageReturn ∧ k ≠ .lineFeed := by
  unfold syllableClass at h
  dsimp only at h
  repeat' split at h
  all_goals cases h
  all_goals decide

theorem Class.isControl_of_eq (h : Class.of c = .carriageReturn ∨ Class.of c = .lineFeed) :
    isControl c = true := by
  by_cases hc : isControl c = true
  · exact hc
  · have hreturn : c ≠ '\r' := by
      rintro rfl
      exact hc rfl
    have hfeed : c ≠ '\n' := by
      rintro rfl
      exact hc rfl
    -- the classes of other characters are other ones
    unfold Class.of at h
    rw [if_neg hreturn, if_neg hfeed, if_neg hc] at h
    repeat' split at h
    all_goals try simp at h
    rename_i hsyllable
    obtain ⟨hreturn, hfeed⟩ := ne_of_syllableClass_eq_some hsyllable
    exact absurd h (not_or.2 ⟨hreturn, hfeed⟩)

theorem Class.of_eq_carriageReturn_iff : Class.of c = .carriageReturn ↔ c = '\r' := by
  constructor
  · intro h
    rw [of_of_isControl (isControl_of_eq (.inl h))] at h
    split at h
    · assumption
    · split at h <;> cases h
  · rintro rfl
    rfl

theorem Class.of_eq_lineFeed_iff : Class.of c = .lineFeed ↔ c = '\n' := by
  constructor
  · intro h
    rw [of_of_isControl (isControl_of_eq (.inr h))] at h
    split at h
    · cases h
    · split at h
      · assumption
      · cases h
  · rintro rfl
    rfl

/-- Of the classes that stand alone, only these two belong together. -/
theorem Class.eq_of_joins {a b : Class} (h : a.joins b = true)
    (hbreaking : a.isBreaking = true ∨ b.isBreaking = true) :
    a = .carriageReturn ∧ b = .lineFeed := by
  unfold joins at h
  split at h
  · exact ⟨rfl, rfl⟩
  · rw [if_pos (by simpa using hbreaking)] at h
    cases h

theorem not_mem_conjunctConsonant (hc : isControl c = true) :
    CharSet.conjunctConsonant.mem c = false := by
  have hcodes : ∀ n < 0xA0, CharSet.conjunctConsonant.mem (Char.ofNat n) = false := by
    decide +kernel
  have hbound : c.toNat < 0xA0 := by
    simp only [isControl, Bool.or_eq_true, Bool.and_eq_true, decide_eq_true_eq] at hc
    omega
  simpa using hcodes c.toNat hbound

theorem State.emoji_next (hbreaking : (Class.of c).isBreaking = true) :
    (s.next c).emoji = .absent := by
  unfold State.next
  dsimp only
  cases hclass : Class.of c <;> rw [hclass] at hbreaking <;> first | (cases hbreaking; done) | simp

/-- A control character belongs together with another character only in the pair of a carriage
return and a line feed. -/
theorem State.eq_of_joins (hjoins : (s.next c).joins d = true)
    (hcontrol : isControl c = true ∨ isControl d = true) : c = '\r' ∧ d = '\n' := by
  have hbreaking : (Class.of c).isBreaking = true ∨ (Class.of d).isBreaking = true :=
    hcontrol.imp Class.isBreaking_of_isControl Class.isBreaking_of_isControl
  have hclasses : (Class.of c).joins (Class.of d) = true := by
    have hlast : (s.next c).last = Class.of c := rfl
    simp only [State.joins, hlast, Bool.or_eq_true, Bool.and_eq_true, decide_eq_true_eq,
      Bool.not_eq_true'] at hjoins
    -- the longer sequences that join neither end in a control character nor go on with one
    rcases hjoins with ((hjoins | ⟨hemoji, hpictographic⟩) | ⟨⟨hregional, hregional'⟩, -⟩) |
      ⟨⟨-, hlast⟩, hconsonant⟩
    · exact hjoins
    · rcases hbreaking with hc | hd
      · rw [emoji_next hc] at hemoji
        cases hemoji
      · rw [hpictographic] at hd
        cases hd
    · rw [hregional, hregional'] at hbreaking
      rcases hbreaking with h | h <;> cases h
    · rcases hcontrol with hc | hd
      · rw [Class.isBreaking_of_isControl hc] at hlast
        cases hlast
      · rw [not_mem_conjunctConsonant hd] at hconsonant
        cases hconsonant
  obtain ⟨hc, hd⟩ := Class.eq_of_joins hclasses hbreaking
  exact ⟨Class.of_eq_carriageReturn_iff.1 hc, Class.of_eq_lineFeed_iff.1 hd⟩

theorem Grown.exists_eq_next {rest : List Char} (h : Grown s (c :: rest)) :
    ∃ s' : State, s = s'.next c := by
  cases h with
  | start => exact ⟨.initial, rfl⟩
  | next => exact ⟨_, rfl⟩

/-- A control character in a cluster is all of it, or part of a line end. -/
theorem Grown.eq_or_eq (h : Grown s cluster) (hd : d ∈ cluster) (hcontrol : isControl d = true) :
    cluster = [d] ∨ cluster = ['\n', '\r'] := by
  induction h generalizing d with
  | start c =>
    rw [List.mem_singleton.1 hd]
    exact .inl rfl
  | @next s cluster c h hjoins ih =>
    cases h' : cluster with
    | nil => cases h' ▸ h
    | cons b rest =>
      subst h'
      obtain ⟨s', rfl⟩ := h.exists_eq_next
      -- either way there is a control character among the last two, so these are a line end
      have hpair : b = '\r' ∧ c = '\n' := by
        rcases List.mem_cons.1 hd with rfl | hd
        · exact State.eq_of_joins hjoins (.inr hcontrol)
        · rcases ih hd hcontrol with hcluster | hcluster
          · obtain ⟨rfl, -⟩ := List.cons.inj hcluster
            exact State.eq_of_joins hjoins (.inl hcontrol)
          · obtain ⟨rfl, -⟩ := List.cons.inj hcluster
            exact State.eq_of_joins hjoins (.inl rfl)
      obtain ⟨rfl, rfl⟩ := hpair
      have hreturn : '\r' ∈ '\r' :: rest := List.mem_cons_self
      rcases ih hreturn rfl with hcluster | hcluster
      · rw [hcluster]
        exact .inr rfl
      · cases hcluster

end Cluster

variable {s g : String} {c : Char}

/-- The clusters of a text make it up. -/
theorem join_clusters (s : String) : String.join (clusters s) = s := by
  rw [← String.toList_inj, String.toList_join, clusters, List.flatMap_map]
  simp only [String.toList_ofList, List.flatMap_id', Cluster.split_flatten]

/-- A cluster is not cut any further. -/
theorem clusters_of_mem_clusters (hg : g ∈ clusters s) : clusters g = [g] := by
  obtain ⟨cs, hcs, rfl⟩ := List.mem_map.1 hg
  rw [clusters, String.toList_ofList, Cluster.split_of_mem_split hcs]
  rfl

/-- A cluster is as wide on its own as where it stands. -/
theorem displayWidth_of_mem_clusters (hg : g ∈ clusters s) : displayWidth g = clusterWidth g := by
  rw [displayWidth, clusters_of_mem_clusters hg]
  rfl

theorem ne_empty_of_mem_clusters (hg : g ∈ clusters s) : g ≠ "" := by
  rintro rfl
  cases clusters_of_mem_clusters hg

theorem clusterWidth_pos (h : s ≠ "") : 0 < clusterWidth s := by
  rw [clusterWidth, if_neg h]
  exact Nat.le_max_left _ _

/-- Every text but the empty one fills a column. -/
theorem displayWidth_pos (h : s ≠ "") : 0 < displayWidth s := by
  rw [displayWidth]
  cases hclusters : clusters s with
  | nil =>
    have hjoin := join_clusters s
    rw [hclusters] at hjoin
    exact absurd hjoin.symm h
  | cons g gs =>
    have hg : g ∈ clusters s := hclusters ▸ List.mem_cons_self
    rw [total_cons]
    exact Nat.add_pos_left (clusterWidth_pos (ne_empty_of_mem_clusters hg)) _

theorem mem_toList_iff_exists_mem_clusters :
    c ∈ s.toList ↔ ∃ g ∈ clusters s, c ∈ g.toList := by
  constructor
  · intro hc
    rw [← Cluster.split_flatten s.toList] at hc
    obtain ⟨cs, hcs, hc⟩ := List.mem_flatten.1 hc
    exact ⟨String.ofList cs, List.mem_map.2 ⟨cs, hcs, rfl⟩, by rwa [String.toList_ofList]⟩
  · rintro ⟨g, hg, hc⟩
    obtain ⟨cs, hcs, rfl⟩ := List.mem_map.1 hg
    rw [String.toList_ofList] at hc
    rw [← Cluster.split_flatten s.toList]
    exact List.mem_flatten.2 ⟨cs, hcs, hc⟩

/-- A control character is a cluster by itself, unless it is part of a line end. -/
theorem eq_or_eq_of_mem_clusters (hg : g ∈ clusters s) (hc : c ∈ g.toList)
    (hcontrol : isControl c = true) : g = String.singleton c ∨ g = "\r\n" := by
  obtain ⟨cs, hcs, rfl⟩ := List.mem_map.1 hg
  obtain ⟨s', grown, h, rfl⟩ := Cluster.exists_grown_of_mem_split hcs
  rw [String.toList_ofList, List.mem_reverse] at hc
  rcases h.eq_or_eq hc hcontrol with rfl | rfl
  · exact .inl rfl
  · exact .inr rfl

end TerminalUI
