import TerminalUI.Proofs.Code.Editing

/-!
# Which abbreviation is expanded

The rules for simple abbreviations and small words, stated on the streak and the text before the dot,
and not on how a table is searched. `EndsSimple` and `EndsSmallWord` say which abbreviations may be
expanded, and `IsLongest` which of them is: the longest one, and the first of these in the table.

* `longest?_eq_some_iff`, `longest?_eq_none_iff` : the search finds that entry, or there is none;
* `exists_expandSimple`, `exists_expandSmallWord` : what the two rules give, `Replaces`;
* `expansion_rules` : **both rules expand exactly where they may**, the longest abbreviation, and
  leave the rest of the text as it is.
-/

namespace TerminalUI

theorem CodeBuffer.split_eq_ok_iff {b : CodeBuffer} {before after : String} :
    b.split = .ok (before, after) ↔ b = ofParts before after := by
  constructor
  · intro h
    unfold split at h
    split at h
    · rename_i parts hcut
      cases h
      obtain ⟨hcontent, hdot⟩ := cutAt_eq_some_iff.1 hcut
      rw [ofParts, hcontent, hdot]
    · cases h
  · rintro rfl
    exact split_ofParts before after

namespace Abbreviations

open CodeBuffer

/-! ### The rules -/

/-- The streak ends with the abbreviation, which is not empty. -/
def EndsSimple (streak short : String) : Prop :=
  short ≠ "" ∧ short.toList <:+ streak.toList

/-- The streak ends with the abbreviation, which is not empty, and the trigger. The last character of
the abbreviation is of another class than the trigger, and so is what stands before it in the text,
if anything does, than its first one. -/
structure EndsSmallWord (before streak : String) (trigger : Char) (short : String) : Prop where
  ne_empty : short ≠ ""
  typed : short.toList ++ [trigger] <:+ streak.toList
  ended : ∀ last ∈ short.toList.getLast?, WordClass.of last ≠ WordClass.of trigger
  begun : ∀ rest, before.toList = rest ++ short.toList ++ [trigger] →
    ∀ previous ∈ rest.getLast?, ∀ first ∈ short.toList.head?,
      WordClass.of previous ≠ WordClass.of first

/-- Of the entries whose abbreviations are accepted, the first one of those that are longest. -/
def IsLongest (t : Abbreviations) (accepted : String → Prop) (entry : String × String) : Prop :=
  accepted entry.1 ∧ ∃ earlier later, t.entries = earlier ++ entry :: later ∧
    (∀ e ∈ earlier, accepted e.1 → byteLength e.1 < byteLength entry.1) ∧
    ∀ e ∈ later, accepted e.1 → byteLength e.1 ≤ byteLength entry.1

/-! ### The search -/

/-- The entry is the first one of the longest entries of a list. -/
def FirstLongest (entries : List (String × String)) (entry : String × String) : Prop :=
  ∃ earlier later, entries = earlier ++ entry :: later ∧
    (∀ e ∈ earlier, byteLength e.1 < byteLength entry.1) ∧
    ∀ e ∈ later, byteLength e.1 ≤ byteLength entry.1

variable {entries : List (String × String)} {best e e' entry : String × String}

theorem FirstLongest.mem (h : FirstLongest entries e) : e ∈ entries := by
  obtain ⟨earlier, later, rfl, -, -⟩ := h
  simp

/-- A list has one first entry of the longest ones. -/
theorem FirstLongest.eq (h : FirstLongest entries e) (h' : FirstLongest entries e') : e = e' := by
  obtain ⟨earlier, later, rfl, hearlier, hlater⟩ := h
  obtain ⟨earlier', later', heq, hearlier', hlater'⟩ := h'
  rcases List.append_eq_append_iff.1 heq with ⟨between, hbefore, hafter⟩ | ⟨between, hbefore, hafter⟩
  · cases between with
    | nil => exact (List.cons.inj hafter).1
    | cons b between =>
      -- the second entry comes after the first one, and so may not be longer
      obtain ⟨rfl, rfl⟩ := List.cons.inj hafter
      have hlt := hearlier' e (by simp [hbefore])
      have hle := hlater e' (by simp)
      omega
  · cases between with
    | nil => exact (List.cons.inj hafter).1.symm
    | cons b between =>
      obtain ⟨rfl, rfl⟩ := List.cons.inj hafter
      have hlt := hearlier e' (by simp [hbefore])
      have hle := hlater' e (by simp)
      omega

/-- An entry that is no longer than the one before it is gone by. -/
theorem FirstLongest.insert_shorter (h : FirstLongest (best :: entries) e)
    (hle : byteLength entry.1 ≤ byteLength best.1) :
    FirstLongest (best :: entry :: entries) e := by
  obtain ⟨earlier, later, heq, hearlier, hlater⟩ := h
  cases earlier with
  | nil =>
    obtain ⟨rfl, rfl⟩ := List.cons.inj heq
    exact ⟨[], entry :: entries, rfl, nofun, List.forall_mem_cons.2 ⟨hle, hlater⟩⟩
  | cons b earlier =>
    obtain ⟨rfl, rfl⟩ := List.cons.inj heq
    obtain ⟨hbest, hearlier⟩ := List.forall_mem_cons.1 hearlier
    refine ⟨best :: entry :: earlier, later, rfl, ?_, hlater⟩
    exact List.forall_mem_cons.2 ⟨hbest, List.forall_mem_cons.2 ⟨by omega, hearlier⟩⟩

/-- An entry that a longer one comes right after is gone by. -/
theorem FirstLongest.cons (h : FirstLongest (best :: entries) e)
    (hlt : byteLength entry.1 < byteLength best.1) :
    FirstLongest (entry :: best :: entries) e := by
  obtain ⟨earlier, later, heq, hearlier, hlater⟩ := h
  refine ⟨entry :: earlier, later, by rw [heq, List.cons_append], ?_, hlater⟩
  refine List.forall_mem_cons.2 ⟨?_, hearlier⟩
  cases earlier with
  | nil =>
    obtain ⟨rfl, -⟩ := List.cons.inj heq
    exact hlt
  | cons b earlier =>
    obtain ⟨rfl, -⟩ := List.cons.inj heq
    exact Nat.lt_trans hlt (hearlier best List.mem_cons_self)

theorem exists_foldl_longer (entries : List (String × String)) (best : String × String) :
    ∃ e, entries.foldl longer (some best) = some e ∧ FirstLongest (best :: entries) e := by
  induction entries generalizing best with
  | nil => exact ⟨best, rfl, [], [], rfl, nofun, nofun⟩
  | cons entry entries ih =>
    rw [List.foldl_cons, longer]
    split
    · obtain ⟨e, hfold, he⟩ := ih best
      exact ⟨e, hfold, he.insert_shorter (by assumption)⟩
    · obtain ⟨e, hfold, he⟩ := ih entry
      exact ⟨e, hfold, he.cons (by omega)⟩

theorem foldl_longer_eq_some_iff :
    entries.foldl longer none = some e ↔ FirstLongest entries e := by
  cases entries with
  | nil => exact ⟨nofun, fun h => nomatch h.mem⟩
  | cons entry entries =>
    obtain ⟨found, hfold, hfound⟩ := exists_foldl_longer entries entry
    rw [List.foldl_cons, longer, hfold, Option.some.injEq]
    exact ⟨fun h => h ▸ hfound, fun h => hfound.eq h⟩

variable {t : Abbreviations} {accept : String → Bool} {accepted : String → Prop}

/-- The search finds the first one of the longest entries that are accepted. -/
theorem longest?_eq_some_iff
    (haccept : ∀ short, accepted short ↔ short ≠ "" ∧ accept short = true) :
    t.longest? accept = some e ↔ t.IsLongest accepted e := by
  have hfilter (e : String × String) :
      (decide (e.1 ≠ "") && accept e.1) = true ↔ accepted e.1 := by
    rw [haccept, Bool.and_eq_true, decide_eq_true_iff]
  rw [longest?, foldl_longer_eq_some_iff]
  constructor
  · rintro ⟨earlier, later, heq, hearlier, hlater⟩
    obtain ⟨front, back, hentries, rfl, hback⟩ := List.filter_eq_append_iff.1 heq
    obtain ⟨skipped, rest, rfl, hskipped, he, rfl⟩ := List.filter_eq_cons_iff.1 hback
    refine ⟨(hfilter e).1 he, front ++ skipped, rest, by simp [hentries], ?_, ?_⟩
    · intro x hx hacc
      rcases List.mem_append.1 hx with hx | hx
      · exact hearlier x (List.mem_filter.2 ⟨hx, (hfilter x).2 hacc⟩)
      · exact absurd ((hfilter x).2 hacc) (hskipped x hx)
    · exact fun x hx hacc => hlater x (List.mem_filter.2 ⟨hx, (hfilter x).2 hacc⟩)
  · rintro ⟨he, earlier, later, hentries, hearlier, hlater⟩
    rw [hentries, List.filter_append, List.filter_cons, if_pos ((hfilter e).2 he)]
    refine ⟨_, _, rfl, ?_, ?_⟩
    · intro x hx
      obtain ⟨hx, hacc⟩ := List.mem_filter.1 hx
      exact hearlier x hx ((hfilter x).1 hacc)
    · intro x hx
      obtain ⟨hx, hacc⟩ := List.mem_filter.1 hx
      exact hlater x hx ((hfilter x).1 hacc)

theorem longest?_eq_none_iff
    (haccept : ∀ short, accepted short ↔ short ≠ "" ∧ accept short = true) :
    t.longest? accept = none ↔ ∀ e ∈ t.entries, ¬ accepted e.1 := by
  have hmem (e : String × String) (he : e ∈ t.entries) (hacc : accepted e.1) :
      e ∈ t.entries.filter fun entry => entry.1 ≠ "" && accept entry.1 :=
    List.mem_filter.2 ⟨he, by simpa using (haccept e.1).1 hacc⟩
  rw [longest?]
  cases hfilter : t.entries.filter fun entry => entry.1 ≠ "" && accept entry.1 with
  | nil =>
    refine iff_of_true rfl fun e he hacc => ?_
    have := hmem e he hacc
    rw [hfilter] at this
    cases this
  | cons entry entries =>
    obtain ⟨found, hfold, hfound⟩ := exists_foldl_longer entries entry
    rw [List.foldl_cons, longer, hfold]
    refine iff_of_false (Option.some_ne_none found) fun hnone => ?_
    obtain ⟨hfound, hacc⟩ := List.mem_filter.1 (hfilter ▸ hfound.mem)
    exact hnone found hfound ((haccept found.1).2 (by simpa using hacc))

/-! ### Expanding -/

/-- What a rule gives, at the end of the text before the dot: nothing if no entry is accepted, and
otherwise the buffer with the longest one replaced, which stands before a last part of that text. -/
structure Replaces (t : Abbreviations) (accepted : String → Prop) (last before after : String)
    (result : Option CodeBuffer) : Prop where
  isSome_iff : result.isSome = true ↔ ∃ e ∈ t.entries, accepted e.1
  replaced : ∀ b, result = some b → ∃ short full rest, t.IsLongest accepted (short, full) ∧
    before = rest ++ short ++ last ∧ b = ofParts (rest ++ full ++ last) after

variable {before after streak typed beforeTrigger short full rest last : String} {trigger : Char}

theorem replaces_none (h : ∀ e ∈ t.entries, ¬ accepted e.1) :
    t.Replaces accepted last before after none where
  isSome_iff := iff_of_false nofun fun ⟨e, he, hacc⟩ => h e he hacc
  replaced := nofun

theorem IsLongest.replaces (h : t.IsLongest accepted (short, full))
    (hbefore : before = rest ++ short ++ last) :
    t.Replaces accepted last before after (some (ofParts (rest ++ full ++ last) after)) where
  isSome_iff := by
    obtain ⟨hacc, earlier, later, hentries, -⟩ := h
    exact iff_of_true rfl ⟨(short, full), by simp [hentries], hacc⟩
  replaced := by
    rintro b ⟨⟩
    exact ⟨short, full, rest, h, hbefore, rfl⟩

theorem suffix_iff_endsWith {s tail : String} :
    tail.toList <:+ s.toList ↔ endsWith s tail = true := by
  rw [endsWith, List.isSuffixOf_iff_suffix]

theorem exists_append_of_suffix {s tail : String} (h : tail.toList <:+ s.toList) :
    ∃ rest, s = rest ++ tail := by
  obtain ⟨rest, hrest⟩ := h
  exact ⟨String.ofList rest, String.toList_inj.1 (by simp [← hrest])⟩

theorem beforeSuffix?_append (rest tail : String) : beforeSuffix? (rest ++ tail) tail = some rest :=
  beforeSuffix?_eq_some_iff.2 String.toList_append.symm

theorem endsSimple_iff : EndsSimple streak short ↔ short ≠ "" ∧ endsWith streak short = true := by
  rw [EndsSimple, suffix_iff_endsWith]

/-- The rule for simple abbreviations, in a text that ends with the streak. -/
theorem exists_expandSimple (t : Abbreviations) (after : String)
    (hstreak : streak.toList <:+ before.toList) :
    ∃ result, t.expandSimple (ofParts before after) streak = .ok result ∧
      t.Replaces (EndsSimple streak) "" before after result := by
  have haccept (short : String) :
      EndsSimple streak short ↔ short ≠ "" ∧ endsWith streak short = true := endsSimple_iff
  unfold expandSimple
  cases hfound : t.longest? (endsWith streak) with
  | none => exact ⟨none, rfl, replaces_none ((longest?_eq_none_iff haccept).1 hfound)⟩
  | some entry =>
    have hentry := (longest?_eq_some_iff haccept).1 hfound
    obtain ⟨rest, rfl⟩ := exists_append_of_suffix (hentry.1.2.trans hstreak)
    refine ⟨some (ofParts (rest ++ entry.2 ++ "") after), ?_, hentry.replaces (by simp)⟩
    simp only [split_ofParts, bind, Except.bind, pure, Except.pure, beforeSuffix?_append]
    simp [ofParts]

/-- What the search for a small word asks of its first and last character, taken out of it. -/
theorem isSmallWord_eq_true_iff (hne : short ≠ "") (htyped : short.toList <:+ typed.toList)
    (hrest : beforeTrigger = rest ++ short) :
    isSmallWord beforeTrigger typed trigger short = true ↔
      (∀ last ∈ short.toList.getLast?, WordClass.of last ≠ WordClass.of trigger) ∧
        ∀ previous ∈ rest.toList.getLast?, ∀ first ∈ short.toList.head?,
          WordClass.of previous ≠ WordClass.of first := by
  have hcons : short.toList ≠ [] := fun h => hne (String.toList_eq_nil_iff.1 h)
  rw [isSmallWord, suffix_iff_endsWith.1 htyped, Bool.true_and, hrest, beforeSuffix?_append,
    List.head?_eq_some_head hcons, List.getLast?_eq_some_getLast hcons]
  simp only [Bool.and_eq_true, decide_eq_true_eq, Option.all_eq_true, Option.mem_some_iff,
    forall_eq', ne_comm (a := WordClass.of trigger)]
  rfl

/-- What the search for a small word asks for is the rule, where the streak and the text before the
dot end with the trigger. -/
theorem endsSmallWord_iff (htyped : typed.toList <:+ beforeTrigger.toList) :
    EndsSmallWord (beforeTrigger.push trigger) (typed.push trigger) trigger short ↔
      short ≠ "" ∧ isSmallWord beforeTrigger typed trigger short = true := by
  constructor
  · intro h
    have hshort : short.toList <:+ typed.toList := by
      simpa only [String.toList_push, List.suffix_append_self_iff] using h.typed
    obtain ⟨rest, rfl⟩ := exists_append_of_suffix (hshort.trans htyped)
    refine ⟨h.ne_empty, (isSmallWord_eq_true_iff h.ne_empty hshort rfl).2 ⟨h.ended, ?_⟩⟩
    exact h.begun rest.toList (by simp)
  · rintro ⟨hne, hsmall⟩
    have hshort : short.toList <:+ typed.toList := by
      rw [isSmallWord, Bool.and_eq_true] at hsmall
      exact suffix_iff_endsWith.2 hsmall.1
    obtain ⟨rest, rfl⟩ := exists_append_of_suffix (hshort.trans htyped)
    obtain ⟨hended, hbegun⟩ := (isSmallWord_eq_true_iff hne hshort rfl).1 hsmall
    refine ⟨hne, ?_, hended, ?_⟩
    · simpa only [String.toList_push, List.suffix_append_self_iff] using hshort
    · intro front hfront
      have : front = rest.toList := by simpa using hfront.symm
      exact this ▸ hbegun

theorem append_push (s₁ s₂ : String) (c : Char) : s₁ ++ s₂.push c = (s₁ ++ s₂).push c :=
  String.toList_inj.1 (by simp)

/-- The rule for small words, in a text that ends with the streak. -/
theorem exists_expandSmallWord (t : Abbreviations) (after : String) (trigger : Char)
    (hstreak : streak.toList <:+ before.toList) :
    ∃ result, t.expandSmallWord (ofParts before after) streak trigger = .ok result ∧
      t.Replaces (EndsSmallWord before streak trigger) (String.singleton trigger) before after
        result := by
  unfold expandSmallWord
  cases htyped : beforeSuffix? streak (String.singleton trigger) with
  | none =>
    -- an abbreviation that was typed with the trigger is no end of this streak
    refine ⟨none, rfl, replaces_none fun e _ he => ?_⟩
    obtain ⟨front, hfront⟩ := he.typed
    have hsome : beforeSuffix? streak (String.singleton trigger) =
        some (String.ofList (front ++ e.1.toList)) := by
      rw [beforeSuffix?_eq_some_iff, String.toList_ofList, String.toList_singleton,
        List.append_assoc, hfront]
    rw [htyped] at hsome
    cases hsome
  | some typed =>
    obtain rfl : typed.push trigger = streak := String.toList_inj.1 <| by
      simpa using beforeSuffix?_eq_some_iff.1 htyped
    obtain ⟨front, rfl⟩ := exists_append_of_suffix hstreak
    rw [append_push]
    have hends : typed.toList <:+ (front ++ typed).toList := ⟨front.toList, by simp⟩
    have haccept (short : String) :
        EndsSmallWord ((front ++ typed).push trigger) (typed.push trigger) trigger short ↔
          short ≠ "" ∧ isSmallWord (front ++ typed) typed trigger short = true :=
      endsSmallWord_iff hends
    have hcut : beforeSuffix? ((front ++ typed).push trigger) (String.singleton trigger) =
        some (front ++ typed) := by
      rw [String.push_eq_append, beforeSuffix?_append]
    simp only [split_ofParts, bind, Except.bind, pure, Except.pure, hcut]
    cases hfound : t.longest? (isSmallWord (front ++ typed) typed trigger) with
    | none => exact ⟨none, rfl, replaces_none ((longest?_eq_none_iff haccept).1 hfound)⟩
    | some entry =>
      have hentry := (longest?_eq_some_iff haccept).1 hfound
      have hshort : entry.1.toList <:+ typed.toList := by
        simpa only [String.toList_push, List.suffix_append_self_iff] using hentry.1.typed
      obtain ⟨rest, hrest⟩ := exists_append_of_suffix (hshort.trans hends)
      rw [hrest] at hentry ⊢
      simp only [beforeSuffix?_append]
      refine ⟨some (ofParts (rest ++ entry.2 ++ String.singleton trigger) after), ?_,
        hentry.replaces (String.push_eq_append _)⟩
      have hdot : byteLength (rest ++ entry.1 ++ String.singleton trigger) - byteLength entry.1 +
          byteLength entry.2 = byteLength (rest ++ entry.2 ++ String.singleton trigger) := by
        simp only [byteLength_append]
        omega
      simp only [String.push_eq_append, hdot, ofParts]

/-- **Both rules expand exactly where they may.** In a buffer whose dot is at a character, after a
text that ends with the streak, they give a buffer exactly if some entry's abbreviation may be
expanded. It is the text with the first of the longest such abbreviations replaced, which stands
before the dot or before the trigger there; the dot is after the expansion and the trigger. -/
theorem expansion_rules {b : CodeBuffer} (t : Abbreviations) (trigger : Char)
    (hsplit : b.split = .ok (before, after)) (hstreak : streak.toList <:+ before.toList) :
    (∃ result, t.expandSimple b streak = .ok result ∧
      t.Replaces (EndsSimple streak) "" before after result) ∧
    ∃ result, t.expandSmallWord b streak trigger = .ok result ∧
      t.Replaces (EndsSmallWord before streak trigger) (String.singleton trigger) before after
        result := by
  obtain rfl := split_eq_ok_iff.1 hsplit
  exact ⟨exists_expandSimple t after hstreak, exists_expandSmallWord t after trigger hstreak⟩

/-- Two entries are longest here, and the text before them is not one byte a character. -/
theorem expansion_rules_accented :
    ((∃ result, expandSimple ⟨[("l", "1"), ("ll", "ls -l"), ("ll", "2")]⟩ ⟨"é ll;z", 6⟩ "ll;" =
        .ok result ∧
      Replaces ⟨[("l", "1"), ("ll", "ls -l"), ("ll", "2")]⟩ (EndsSimple "ll;") "" "é ll;" "z"
        result) ∧
    ∃ result, expandSmallWord ⟨[("l", "1"), ("ll", "ls -l"), ("ll", "2")]⟩ ⟨"é ll;z", 6⟩ "ll;" ';' =
        .ok result ∧
      Replaces ⟨[("l", "1"), ("ll", "ls -l"), ("ll", "2")]⟩ (EndsSmallWord "é ll;" "ll;" ';')
        (String.singleton ';') "é ll;" "z" result) ∧
    (expandSmallWord ⟨[("l", "1"), ("ll", "ls -l"), ("ll", "2")]⟩ ⟨"é ll;z", 6⟩ "ll;" ';').toOption =
      some (some ⟨"é ls -l;z", 9⟩) :=
  ⟨expansion_rules _ ';' (split_eq_ok_iff.2 (by decide +kernel)) (by decide +kernel),
    by decide +kernel⟩

end Abbreviations

end TerminalUI
