import Mathlib.Data.List.DropRight
import TerminalUI.Code.Abbreviation
import TerminalUI.Proofs.Text.Searching

/-!
# Command words

A command word is found by searching the text for a pattern. `EndsCommand` says the same without a
search: it takes the text apart from its end, into the last blank, the longest stretch of
characters of a command word before it, and what is left.

* `exists_of_mem_ways_commandWord`, `EndsCommand.exists_mem_ways` : each match of the pattern
  captures such a word, and there is a match if there is such a word;
* `capture?_commandWord_eq_some_iff` : so **the search captures the word that reading the text
  backward gives**, whichever match it prefers;
* `expandCommand_eq_some_iff` : **when a command is expanded**, and what the expansion is.
-/

namespace TerminalUI

namespace Pattern

variable {set : Char → Bool} {p q : Place}

/-- A group of one character or more. -/
theorem mem_ways_group_run :
    q ∈ (group (.seq (.one set) (.run set))).ways p ↔ ∃ taken rest, taken ≠ [] ∧
      (∀ c ∈ taken, set c = true) ∧ taken ++ rest = p.after ∧
      q = ⟨taken.reverse ++ p.before, rest, some (p.before.reverse, taken, rest)⟩ := by
  have hcapture (taken rest : List Char) (captured : Option (List Char × List Char × List Char)) :
      p.capture ⟨taken.reverse ++ p.before, rest, captured⟩ =
        ⟨taken.reverse ++ p.before, rest, some (p.before.reverse, taken, rest)⟩ := by
    simp [Place.capture]
  rw [mem_ways_group]
  constructor
  · rintro ⟨stop, hstop, rfl⟩
    obtain ⟨between, hfirst, hrun⟩ := mem_ways_seq.1 hstop
    obtain ⟨c, after, hafter, hc, rfl⟩ := mem_ways_one.1 hfirst
    obtain ⟨taken, rest, rfl, htaken, rfl⟩ := mem_ways_run.1 hrun
    refine ⟨c :: taken, rest, List.cons_ne_nil c taken, List.forall_mem_cons.2 ⟨hc, htaken⟩,
      hafter, ?_⟩
    rw [← hcapture (c :: taken) rest p.captured]
    simp
  · rintro ⟨taken, rest, hne, htaken, hafter, rfl⟩
    obtain ⟨c, taken, rfl⟩ := List.exists_cons_of_ne_nil hne
    obtain ⟨hc, htaken⟩ := List.forall_mem_cons.1 htaken
    refine ⟨_, mem_ways_seq.2 ⟨_, mem_ways_one.2 ⟨c, taken ++ rest, hafter, hc, rfl⟩,
      mem_ways_run.2 ⟨taken, rest, rfl, htaken, rfl⟩⟩, ?_⟩
    rw [← hcapture (c :: taken) rest p.captured]
    simp

/-- A last character. -/
theorem mem_ways_one_stop :
    q ∈ (seq (.one set) .stop).ways p ↔ ∃ c, set c = true ∧ [c] = p.after ∧
      q = ⟨c :: p.before, [], p.captured⟩ := by
  rw [mem_ways_seq]
  constructor
  · rintro ⟨between, hone, hstop⟩
    obtain ⟨c, rest, hafter, hc, rfl⟩ := mem_ways_one.1 hone
    obtain ⟨rfl, rfl⟩ := mem_ways_stop.1 hstop
    exact ⟨c, hc, hafter, rfl⟩
  · rintro ⟨c, hc, hafter, rfl⟩
    exact ⟨_, mem_ways_one.2 ⟨c, [], hafter, hc, rfl⟩, mem_ways_stop.2 ⟨rfl, rfl⟩⟩

end Pattern

namespace Abbreviations

open Pattern

/-- The text ends with a command word and one blank after it. The word is as long as it can be, and
before it, but for spaces and tabs, there is nothing or a character that starts a command. -/
structure EndsCommand (content before word : String) (blank : Char) : Prop where
  content_eq : content = (before ++ word).push blank
  ne_empty : word ≠ ""
  isCommandChar : ∀ c ∈ word.toList, isCommandChar c = true
  longest : ∀ c ∈ before.toList.getLast?, Abbreviations.isCommandChar c = false
  starts : ∀ c ∈ (before.toList.rdropWhile isIndent).getLast?, startsCommand c = true
  isBlank : isBlank blank = true

variable {content before before' word word' : String} {blank blank' : Char}

/-! ### Characters -/

theorem isCommandChar_of_isBlank {c : Char} (h : isBlank c = true) : isCommandChar c = false := by
  simp [isCommandChar, h]

theorem isBlank_of_isIndent {c : Char} (h : isIndent c = true) : isBlank c = true := by
  rw [isIndent, Bool.or_eq_true, decide_eq_true_iff, decide_eq_true_iff] at h
  rcases h with rfl | rfl <;> decide

theorem isCommandChar_of_startsCommand {c : Char} (h : startsCommand c = true) :
    isCommandChar c = false := by
  simp only [startsCommand, Bool.or_eq_true, decide_eq_true_eq] at h
  rcases h with (((rfl | rfl) | rfl) | hbrace) | rfl
  · decide
  · decide
  · decide
  · simp [isCommandChar, hbrace]
  · decide

theorem isIndent_of_startsCommand {c : Char} (h : startsCommand c = true) : isIndent c = false := by
  rw [isIndent, Bool.or_eq_false_iff, decide_eq_false_iff_not, decide_eq_false_iff_not]
  constructor
  · rintro rfl
    exact absurd h (by decide)
  · rintro rfl
    exact absurd h (by decide)

/-! ### Matches -/

theorem rtakeWhile_append_of_forall {p : Char → Bool} (l : List Char) {taken : List Char}
    (h : ∀ c ∈ taken, p c = true) : (l ++ taken).rtakeWhile p = l.rtakeWhile p ++ taken := by
  rw [List.rtakeWhile, List.reverse_append, List.takeWhile_append_of_pos (by simpa using h),
    List.reverse_append, List.reverse_reverse, List.rtakeWhile]

theorem rdropWhile_append_of_forall {p : Char → Bool} (l : List Char) {dropped : List Char}
    (h : ∀ c ∈ dropped, p c = true) : (l ++ dropped).rdropWhile p = l.rdropWhile p := by
  rw [List.rdropWhile, List.reverse_append, List.dropWhile_append_of_pos (by simpa using h),
    List.rdropWhile]

theorem EndsCommand.rtakeWhile_eq (h : EndsCommand content before word blank) :
    (before ++ word).toList.rtakeWhile Abbreviations.isCommandChar = word.toList := by
  have hbefore : before.toList.rtakeWhile Abbreviations.isCommandChar = [] := by
    refine List.rtakeWhile_eq_nil_iff.2 fun hne => ?_
    rw [h.longest _ (List.getLast?_eq_some_getLast hne)]
    exact Bool.false_ne_true
  rw [String.toList_append, rtakeWhile_append_of_forall _ h.isCommandChar, hbefore, List.nil_append]

/-- A text has at most one command word at its end. -/
theorem EndsCommand.unique (h : EndsCommand content before word blank)
    (h' : EndsCommand content before' word' blank') :
    before = before' ∧ word = word' ∧ blank = blank' := by
  obtain ⟨happend, rfl⟩ := String.push_inj.1 (h.content_eq.symm.trans h'.content_eq)
  have hword : word = word' := by
    rw [← String.toList_inj, ← h.rtakeWhile_eq, happend, h'.rtakeWhile_eq]
  subst hword
  have hbefore : before.toList ++ word.toList = before'.toList ++ word.toList := by
    rw [← String.toList_append, happend, String.toList_append]
  exact ⟨String.toList_inj.1 (List.append_cancel_right hbefore), rfl, rfl⟩

variable {skipped rest opening : List Char} {q : Place}

/-- Where a command may start: after what is skipped and a character that starts it, or first in the
text. -/
theorem mem_ways_opening :
    q ∈ (either .start (.one startsCommand)).ways ⟨skipped.reverse, rest, none⟩ ↔
      ∃ opening rest', opening ++ rest' = rest ∧
        (opening = [] ∧ skipped = [] ∨ ∃ c, opening = [c] ∧ startsCommand c = true) ∧
        q = ⟨(skipped ++ opening).reverse, rest', none⟩ := by
  rw [mem_ways_either, mem_ways_start, mem_ways_one]
  constructor
  · rintro (⟨hnil, rfl⟩ | ⟨c, after, hafter, hc, rfl⟩)
    · have hskipped : skipped = [] := List.reverse_eq_nil_iff.1 hnil
      exact ⟨[], rest, rfl, .inl ⟨rfl, hskipped⟩, by rw [List.append_nil]⟩
    · exact ⟨[c], after, hafter, .inr ⟨c, rfl, hc⟩, by simp⟩
  · rintro ⟨opening, after, hafter, ⟨rfl, rfl⟩ | ⟨c, rfl, hc⟩, rfl⟩
    · obtain rfl : after = rest := hafter
      exact .inl ⟨rfl, rfl⟩
    · exact .inr ⟨c, after, hafter, hc, by simp⟩

/-- Each match captures the command word that the text ends with. -/
theorem exists_of_mem_ways_commandWord
    (h : q ∈ commandWord.ways ⟨skipped.reverse, rest, none⟩) :
    ∃ before word blank, EndsCommand (String.ofList (skipped ++ rest)) before word blank ∧
      q.captured = some (before.toList, word.toList, [blank]) := by
  obtain ⟨p, hopening, h⟩ := mem_ways_seq.1 h
  obtain ⟨opening, rest₁, rfl, hstart, rfl⟩ := mem_ways_opening.1 hopening
  obtain ⟨p, hrun, h⟩ := mem_ways_seq.1 h
  obtain ⟨indent, rest₂, rfl, hindent, rfl⟩ := mem_ways_run.1 hrun
  obtain ⟨p, hgroup, h⟩ := mem_ways_seq.1 h
  obtain ⟨word, rest₃, hne, hword, rfl, rfl⟩ := mem_ways_group_run.1 hgroup
  obtain ⟨blank, hblank, rfl, rfl⟩ := mem_ways_one_stop.1 h
  -- the command starts after a text that is empty or ends with a character that starts it
  have hstarts : ∀ c ∈ (skipped ++ opening).getLast?, startsCommand c = true := by
    rcases hstart with ⟨rfl, rfl⟩ | ⟨c, rfl, hc⟩
    · exact nofun
    · simpa using hc
  have htrimmed : (skipped ++ opening ++ indent).rdropWhile isIndent = skipped ++ opening := by
    rw [rdropWhile_append_of_forall _ hindent]
    refine List.rdropWhile_eq_self_iff.2 fun hnil => ?_
    rw [isIndent_of_startsCommand (hstarts _ (List.getLast?_eq_some_getLast hnil))]
    exact Bool.false_ne_true
  refine ⟨.ofList (skipped ++ opening ++ indent), .ofList word, blank, ?_, by simp⟩
  constructor
  case content_eq => exact String.toList_inj.1 (by simp)
  case ne_empty => simpa [← String.toList_inj] using hne
  case isCommandChar => simpa using hword
  case longest =>
    intro c hc
    rw [String.toList_ofList, List.getLast?_append] at hc
    rcases Option.or_eq_some_iff.1 hc with hc | ⟨-, hc⟩
    · exact isCommandChar_of_isBlank (isBlank_of_isIndent (hindent c (List.mem_of_getLast? hc)))
    · exact isCommandChar_of_startsCommand (hstarts c hc)
  case starts =>
    rw [String.toList_ofList, htrimmed]
    exact hstarts
  case isBlank => exact hblank

/-- There is a match if the text ends with a command word. -/
theorem EndsCommand.exists_mem_ways (h : EndsCommand content before word blank) :
    ∃ skipped rest q, skipped ++ rest = content.toList ∧
      q ∈ commandWord.ways ⟨skipped.reverse, rest, none⟩ := by
  have hindent : ∀ c ∈ before.toList.rtakeWhile isIndent, isIndent c = true :=
    fun c hc => List.mem_rtakeWhile_imp hc
  have hbefore := List.rdropWhile_append_rtakeWhile (p := isIndent) (l := before.toList)
  generalize before.toList.rtakeWhile isIndent = indent at hindent hbefore
  obtain ⟨skipped, opening, htrimmed, hstart⟩ : ∃ skipped opening,
      before.toList.rdropWhile isIndent = skipped ++ opening ∧
        (opening = [] ∧ skipped = [] ∨ ∃ c, opening = [c] ∧ startsCommand c = true) := by
    rcases List.eq_nil_or_concat' (before.toList.rdropWhile isIndent) with hnil | ⟨front, c, hlast⟩
    · exact ⟨[], [], hnil, .inl ⟨rfl, rfl⟩⟩
    · refine ⟨front, [c], by rw [hlast], .inr ⟨c, rfl, h.starts c ?_⟩⟩
      rw [hlast]
      simp
  have hcontent :
      content.toList = skipped ++ (opening ++ (indent ++ (word.toList ++ [blank]))) := by
    rw [h.content_eq, String.toList_push, String.toList_append, ← hbefore, htrimmed]
    simp
  have hword : word.toList ≠ [] := fun hnil => h.ne_empty (String.toList_eq_nil_iff.1 hnil)
  -- the match goes through the parts of the pattern, from one place to the next
  have hopening := mem_ways_opening.2
    ⟨opening, indent ++ (word.toList ++ [blank]), rfl, hstart, rfl⟩
  have hrun : _ ∈ (run isIndent).ways ⟨(skipped ++ opening).reverse, _, none⟩ :=
    mem_ways_run.2 ⟨indent, word.toList ++ [blank], rfl, hindent, rfl⟩
  have hgroup := (mem_ways_group_run (p := ⟨indent.reverse ++ (skipped ++ opening).reverse,
    word.toList ++ [blank], none⟩)).2 ⟨word.toList, [blank], hword, h.isCommandChar, rfl, rfl⟩
  exact ⟨skipped, _, _, hcontent.symm, mem_ways_seq.2 ⟨_, hopening, mem_ways_seq.2 ⟨_, hrun,
    mem_ways_seq.2 ⟨_, hgroup, mem_ways_one_stop.2 ⟨blank, h.isBlank, rfl, rfl⟩⟩⟩⟩⟩

theorem exists_of_capture?_commandWord {after : String}
    (h : commandWord.capture? content = some (before, word, after)) :
    ∃ blank, EndsCommand content before word blank ∧ after = String.singleton blank := by
  obtain ⟨skipped, rest, q, hcontent, hways, hcaptured⟩ := exists_of_capture? h
  obtain ⟨before', word', blank, hends, hcaptured'⟩ := exists_of_mem_ways_commandWord hways
  rw [hcontent, String.ofList_toList] at hends
  rw [hcaptured'] at hcaptured
  simp only [Option.some.injEq, Prod.mk.injEq, String.toList_inj] at hcaptured
  obtain ⟨rfl, rfl, hafter⟩ := hcaptured
  exact ⟨blank, hends, String.toList_inj.1 (by simp [← hafter])⟩

/-- **The search for a command word captures what the text ends with**: the word that reading the
text backward gives. -/
theorem capture?_commandWord_eq_some_iff {after : String} :
    commandWord.capture? content = some (before, word, after) ↔
      ∃ blank, EndsCommand content before word blank ∧ after = String.singleton blank := by
  refine ⟨exists_of_capture?_commandWord, ?_⟩
  rintro ⟨blank, hends, rfl⟩
  obtain ⟨skipped, rest, q, hcontent, hways⟩ := hends.exists_mem_ways
  obtain ⟨before', word', after, hcapture⟩ := exists_capture? hcontent hways
    fun skipped rest q _ hways => by
      obtain ⟨before, word, blank, -, hcaptured⟩ := exists_of_mem_ways_commandWord hways
      rw [hcaptured]
      exact Option.some_ne_none _
  obtain ⟨blank', hends', rfl⟩ := exists_of_capture?_commandWord hcapture
  obtain ⟨rfl, rfl, rfl⟩ := hends.unique hends'
  exact hcapture

/-! ### Expanding -/

variable {t : Abbreviations} {b b' : CodeBuffer} {streak short full : String} {trigger : Char}

/-- The expansion of the first entry whose abbreviation is the word. -/
def FirstEntry (t : Abbreviations) (short full : String) : Prop :=
  ∃ earlier later, t.entries = earlier ++ (short, full) :: later ∧ ∀ e ∈ earlier, e.1 ≠ short

theorem lookup_eq_some_iff : t.entries.lookup short = some full ↔ t.FirstEntry short full := by
  simp only [List.lookup_eq_some_iff, FirstEntry, bne_iff_ne, ne_comm]

theorem endsWith_push_iff {word : String} :
    endsWith streak (word.push trigger) = true ↔ word.toList ++ [trigger] <:+ streak.toList := by
  rw [endsWith, List.isSuffixOf_iff_suffix, String.toList_push]

/-- What an expansion takes, and what it gives. -/
theorem exists_of_expandCommand (h : t.expandCommand b streak trigger = some b') :
    b.dot = byteLength b.content ∧ isBlank trigger = true ∧
      ∃ before word blank full, EndsCommand b.content before word blank ∧
        word.toList ++ [trigger] <:+ streak.toList ∧ t.FirstEntry word full ∧
        b' = .atEnd ((before ++ full).push blank) := by
  unfold expandCommand at h
  split at h
  · cases h
  · rename_i hguard
    simp only [Bool.or_eq_true, decide_eq_true_eq, Bool.not_eq_true', not_or, not_not,
      Bool.not_eq_false] at hguard
    obtain ⟨hdot, htrigger⟩ := hguard
    split at h
    · cases h
    · rename_i before word after hcapture
      obtain ⟨blank, hword, rfl⟩ := exists_of_capture?_commandWord hcapture
      split at h
      · cases h
      · rename_i hstreak
        simp only [Bool.not_eq_true', Bool.not_eq_false] at hstreak
        obtain ⟨full, hlookup, rfl⟩ := Option.map_eq_some_iff.1 h
        refine ⟨hdot, htrigger, before, word, blank, full, hword, endsWith_push_iff.1 hstreak,
          lookup_eq_some_iff.1 hlookup, ?_⟩
        rw [String.push_eq_append]

/-- **Commands are expanded** exactly if the dot is at the end, the trigger is a blank, the text
ends with a command word and one blank after it, the streak ends with the word and the trigger, and
the word is the abbreviation of some entry. The result is the text with the expansion of the first
such entry in place of the word, and the dot at the end. -/
theorem expandCommand_eq_some_iff :
    t.expandCommand b streak trigger = some b' ↔
      b.dot = byteLength b.content ∧ isBlank trigger = true ∧
        ∃ before word blank full, EndsCommand b.content before word blank ∧
          word.toList ++ [trigger] <:+ streak.toList ∧ t.FirstEntry word full ∧
          b' = .atEnd ((before ++ full).push blank) := by
  refine ⟨exists_of_expandCommand, ?_⟩
  rintro ⟨hdot, htrigger, before, word, blank, full, hword, hstreak, hentry, rfl⟩
  have hcapture := capture?_commandWord_eq_some_iff.2 ⟨blank, hword, rfl⟩
  rw [expandCommand, if_neg (by simp [hdot, htrigger]), hcapture]
  dsimp only
  rw [endsWith_push_iff.2 hstreak, lookup_eq_some_iff.2 hentry, String.push_eq_append]
  rfl

/-- A closing bracket starts no command, and a tab may stand before one. -/
example :
    expandCommand ⟨[("gs", "git status"), ("gs", "2")]⟩ (.atEnd "x)gs;\tgs ") "gs " ' ' =
        some (.atEnd "x)gs;\tgit status ") ∧
      expandCommand ⟨[("gs", "git status")]⟩ (.atEnd "x) gs ") "gs " ' ' = none := by
  decide +kernel

end Abbreviations

end TerminalUI
