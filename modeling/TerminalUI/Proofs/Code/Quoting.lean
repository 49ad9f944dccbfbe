import Mathlib.Algebra.Group.Nat.Defs
import TerminalUI.Code.ShellWord

/-!
# Reading shell words back

The reader of a shell and the quoting of a text are inverse to each other. `ShellWord.read` reads
the word at the start of a line: one without quotes up to the next blank, one in single quotes with
every doubled quote for one, and one in double quotes with its escapes. Which of the three it is can
be told from the first character.

* `ShellWord.readDouble_doubleQuoted`, `ShellWord.readSingle_singleQuoted` : a character that was
  written between quotes is read back as itself, whatever comes after it;
* `ShellWord.Enclosure.encloses_flatMap` : what is written between quotes stays between them;
* `ShellWord.read_quote` : a quoted text is one word that reads back as the text.
-/

namespace TerminalUI

namespace ShellWord

/-! ### The reader -/

/-- The value of a hexadecimal digit, in either case. -/
def digitValue? (c : Char) : Option Nat :=
  if '0' ≤ c ∧ c ≤ '9' then some (c.toNat - 0x30)
  else if 'a' ≤ c ∧ c ≤ 'f' then some (c.toNat - 0x57)
  else if 'A' ≤ c ∧ c ≤ 'F' then some (c.toNat - 0x37)
  else none

/-- What a letter after a backslash stands for. -/
def escaped? : Char → Option Char
  | 'n' => some '\n'
  | 't' => some '\t'
  | 'r' => some '\r'
  | 'a' => some (Char.ofNat 0x07)
  | 'b' => some (Char.ofNat 0x08)
  | 'v' => some (Char.ofNat 0x0B)
  | 'f' => some (Char.ofNat 0x0C)
  | 'e' => some (Char.ofNat 0x1B)
  | '\\' => some '\\'
  | '"' => some '"'
  | _ => none

/-- The number of hexadecimal digits that follow a letter after a backslash. -/
def digitCount? : Char → Option Nat
  | 'x' => some 2
  | 'u' => some 4
  | 'U' => some 8
  | _ => none

/-- Where the reader is between double quotes. -/
inductive Place where
  | text
  /-- After a backslash. -/
  | backslash
  /-- In the number of an escape: the digits still to come, and the value of those before. -/
  | number (digits value : Nat)

/-- The text and the rest of the line, with one more character of text in front. -/
def prepend (c : Char) : List Char × List Char → List Char × List Char
  | (text, rest) => (c :: text, rest)

/-- Reads up to the closing double quote: the text, and the rest of the line. -/
def readDouble : Place → List Char → Option (List Char × List Char)
  | _, [] => none
  | .text, c :: cs =>
    if c = '"' then some ([], cs)
    else if c = '\\' then readDouble .backslash cs
    else (readDouble .text cs).map (prepend c)
  | .backslash, c :: cs =>
    match digitCount? c, escaped? c with
    | some digits, _ => readDouble (.number digits 0) cs
    | none, some e => (readDouble .text cs).map (prepend e)
    | none, none => none
  | .number digits value, c :: cs =>
    match digitValue? c with
    | none => none
    | some d =>
      if 1 < digits then readDouble (.number (digits - 1) (16 * value + d)) cs
      else if (16 * value + d).isValidChar then
        (readDouble .text cs).map (prepend (Char.ofNat (16 * value + d)))
      else none

/-- Reads up to the closing single quote, which is one that no other one follows. -/
def readSingle : List Char → Option (List Char × List Char)
  | [] => none
  | [c] => if c = quoteMark then some ([], []) else none
  | c :: d :: cs =>
    if c = quoteMark then
      if d = quoteMark then (readSingle cs).map (prepend quoteMark) else some ([], d :: cs)
    else (readSingle (d :: cs)).map (prepend c)

/-- Reads the word at the start of a line: what it stands for, and the rest of the line. -/
def read : List Char → Option (List Char × List Char)
  | [] => none
  | c :: cs =>
    if c = quoteMark then readSingle cs
    else if c = '"' then readDouble .text cs
    else if isBlank c then none
    else some ((c :: cs).takeWhile (!isBlank ·), (c :: cs).dropWhile (!isBlank ·))

/-! ### Between quotes -/

/-- What encloses a character of a line. -/
inductive Enclosure where
  | unquoted | single | double
  /-- Between double quotes, after a backslash. -/
  | backslash
  deriving DecidableEq

/-- What encloses the character after `c`. -/
def Enclosure.next : Enclosure → Char → Enclosure
  | .unquoted, c => if c = quoteMark then .single else if c = '"' then .double else .unquoted
  | .single, c => if c = quoteMark then .unquoted else .single
  | .double, c => if c = '"' then .unquoted else if c = '\\' then .backslash else .double
  | .backslash, _ => .double

/-- What encloses the end of a line. -/
def Enclosure.after (e : Enclosure) (cs : List Char) : Enclosure := cs.foldl next e

/-- The characters of a line that neither are quotes nor stand between them. -/
def Enclosure.outside : Enclosure → List Char → List Char
  | _, [] => []
  | e, c :: cs =>
    if e = .unquoted ∧ e.next c = .unquoted then c :: outside (e.next c) cs
    else outside (e.next c) cs

variable {e : Enclosure} {c : Char} {cs ds rest : List Char}

/-! ### Numbers -/

theorem digitValue?_digitChar : ∀ d < 16, digitValue? (Nat.digitChar d) = some d := by decide

/-- The number that hexadecimal digits stand for, after a number in front of them. -/
def ofDigits (value : Nat) (ds : List Nat) : Nat := ds.foldl (fun n d => 16 * n + d) value

theorem exists_hexadecimal_eq (n : Nat) :
    ∃ ds, (∀ d ∈ ds, d < 16) ∧ Quoted.hexadecimal n = ds.map Nat.digitChar ∧
      ofDigits 0 ds = n := by
  induction n using Nat.strongRecOn with
  | ind n ih =>
    unfold Quoted.hexadecimal at *
    by_cases hn : n < 16
    · exact ⟨[n], by simpa using hn, by rw [Nat.toDigits_of_lt_base hn]; rfl, by simp [ofDigits]⟩
    · obtain ⟨ds, hds, hmap, hvalue⟩ := ih (n / 16) (by omega)
      refine ⟨ds ++ [n % 16], ?_, ?_, ?_⟩
      · simp only [List.mem_append, List.mem_singleton]
        rintro d (hd | rfl)
        · exact hds d hd
        · omega
      · rw [Nat.toDigits_of_base_le (by decide) (by omega), hmap, List.map_append]
        rfl
      · unfold ofDigits at *
        rw [List.foldl_append, hvalue, List.foldl_cons, List.foldl_nil]
        omega

/-- A number that has room is written in exactly the given number of digits. -/
theorem exists_padded_eq {digits n : Nat} (hdigits : 0 < digits) (hn : n < 16 ^ digits) :
    ∃ ds, ds.length = digits ∧ (∀ d ∈ ds, d < 16) ∧ padded digits n = ds.map Nat.digitChar ∧
      ofDigits 0 ds = n := by
  obtain ⟨ds, hds, hmap, hvalue⟩ := exists_hexadecimal_eq n
  have hlength : ds.length ≤ digits := by
    rw [← List.length_map (f := Nat.digitChar), ← hmap]
    exact (Nat.length_toDigits_le_iff (by decide) hdigits).2 hn
  have hzeros (k : Nat) : ofDigits 0 (List.replicate k 0) = 0 := by
    induction k with
    | zero => rfl
    | succ k ih => exact ih
  refine ⟨List.replicate (digits - ds.length) 0 ++ ds, ?_, ?_, ?_, ?_⟩
  · rw [List.length_append, List.length_replicate]
    omega
  · simp only [List.mem_append, List.mem_replicate]
    rintro d (⟨-, rfl⟩ | hd)
    · decide
    · exact hds d hd
  · rw [padded, hmap, List.length_map, List.map_append, List.map_replicate]
    rfl
  · unfold ofDigits at *
    rw [List.foldl_append, hzeros, hvalue]

theorem readDouble_number {ds : List Nat} (hne : ds ≠ []) (hds : ∀ d ∈ ds, d < 16) (value : Nat)
    (hvalid : (ofDigits value ds).isValidChar) (rest : List Char) :
    readDouble (.number ds.length value) (ds.map Nat.digitChar ++ rest) =
      (readDouble .text rest).map (prepend (Char.ofNat (ofDigits value ds))) := by
  induction ds generalizing value with
  | nil => exact absurd rfl hne
  | cons d ds ih =>
    obtain ⟨hd, hds⟩ := List.forall_mem_cons.1 hds
    simp only [List.map_cons, List.cons_append, readDouble, digitValue?_digitChar d hd]
    cases ds with
    | nil =>
      simp only [List.length_singleton, Nat.lt_irrefl, if_false, List.map_nil, List.nil_append]
      exact if_pos hvalid
    | cons d' ds =>
      rw [if_pos (by simp)]
      exact ih (by simp) hds (16 * value + d) hvalid

/-! ### Characters between double quotes -/

theorem isValidChar_toNat (c : Char) : c.toNat.isValidChar := c.valid

/-- A numbered escape is a backslash, a letter and as many digits as the letter says. -/
theorem exists_numberedEscape_eq (c : Char) :
    ∃ letter digits, numberedEscape c = '\\' :: letter :: padded digits c.toNat ∧
      digitCount? letter = some digits ∧ 0 < digits ∧ c.toNat < 16 ^ digits ∧
      isVisible letter = true := by
  have hbound : c.toNat < 0x110000 := by
    have := isValidChar_toNat c
    unfold Nat.isValidChar at this
    omega
  unfold numberedEscape
  dsimp only
  split
  · exact ⟨'x', 2, rfl, rfl, by decide, by omega, by decide⟩
  · split
    · exact ⟨'u', 4, rfl, rfl, by decide, by omega, by decide⟩
    · exact ⟨'U', 8, rfl, rfl, by decide, by omega, by decide⟩

theorem readDouble_numberedEscape (c : Char) (rest : List Char) :
    readDouble .text (numberedEscape c ++ rest) =
      (readDouble .text rest).map (prepend c) := by
  obtain ⟨letter, digits, hescape, hcount, hdigits, hn, -⟩ := exists_numberedEscape_eq c
  obtain ⟨ds, hlength, hds, hpadded, hvalue⟩ := exists_padded_eq hdigits hn
  have hread := readDouble_number (List.ne_nil_of_length_pos (by omega)) hds 0
    (hvalue ▸ isValidChar_toNat c) rest
  rw [hlength, hvalue, Char.ofNat_toNat, ← hpadded] at hread
  rw [hescape]
  simp only [List.cons_append, readDouble, hcount]
  exact hread

/-- A short escape stands for its character, and its letter starts no number. -/
theorem escaped?_of_shortEscape?_eq_some {letter : Char} (h : shortEscape? c = some letter) :
    digitCount? letter = none ∧ escaped? letter = some c := by
  unfold shortEscape? at h
  split at h
  all_goals
    try cases h
  all_goals
    rename_i hc
    rw [← Char.ofNat_toNat c, hc]
    decide

/-- What has no short escape is neither a double quote nor a backslash. -/
theorem ne_of_shortEscape?_eq_none (h : shortEscape? c = none) : c ≠ '"' ∧ c ≠ '\\' := by
  constructor
  · rintro rfl
    exact absurd h (by decide)
  · rintro rfl
    exact absurd h (by decide)

/-- Between double quotes, every character is read back as itself. -/
theorem readDouble_doubleQuoted (c : Char) (rest : List Char) :
    readDouble .text (doubleQuoted c ++ rest) = (readDouble .text rest).map (prepend c) := by
  unfold doubleQuoted
  cases hshort : shortEscape? c with
  | some letter =>
    obtain ⟨hcount, hescaped⟩ := escaped?_of_shortEscape?_eq_some hshort
    simp [readDouble, hcount, hescaped]
  | none =>
    obtain ⟨hquote, hbackslash⟩ := ne_of_shortEscape?_eq_none hshort
    dsimp only
    split
    · simp [readDouble, hquote, hbackslash]
    · exact readDouble_numberedEscape c rest

theorem readDouble_flatMap (cs rest : List Char) :
    readDouble .text (cs.flatMap doubleQuoted ++ '"' :: rest) = some (cs, rest) := by
  induction cs with
  | nil => rfl
  | cons c cs ih =>
    rw [List.flatMap_cons, List.append_assoc, readDouble_doubleQuoted, ih]
    rfl

/-! ### Characters between single quotes -/

theorem readSingle_cons_of_ne (hc : c ≠ quoteMark) (cs : List Char) :
    readSingle (c :: cs) = (readSingle cs).map (prepend c) := by
  cases cs with
  | nil => simp [readSingle, hc]
  | cons d cs => rw [readSingle, if_neg hc]

/-- A quote ends the text unless another one follows. -/
theorem readSingle_quoteMark (hrest : rest.head? ≠ some quoteMark) :
    readSingle (quoteMark :: rest) = some ([], rest) := by
  cases rest with
  | nil => rfl
  | cons d rest =>
    have hd : d ≠ quoteMark := by simpa using hrest
    rw [readSingle, if_pos rfl, if_neg hd]

/-- Between single quotes, every character is read back as itself. -/
theorem readSingle_singleQuoted (c : Char) (rest : List Char) :
    readSingle (singleQuoted c ++ rest) = (readSingle rest).map (prepend c) := by
  unfold singleQuoted
  split
  · rename_i hc
    rw [hc]
    rfl
  · rename_i hc
    exact readSingle_cons_of_ne hc rest

theorem readSingle_flatMap (cs : List Char) (hrest : rest.head? ≠ some quoteMark) :
    readSingle (cs.flatMap singleQuoted ++ quoteMark :: rest) = some (cs, rest) := by
  induction cs with
  | nil => exact readSingle_quoteMark hrest
  | cons c cs ih =>
    rw [List.flatMap_cons, List.append_assoc, readSingle_singleQuoted, ih]
    rfl

/-! ### Bare words -/

theorem isBlank_of_isVisible (h : isVisible c = true) (hc : c ≠ ' ') : isBlank c = false := by
  simp only [isVisible, Bool.or_eq_true, decide_eq_true_eq, Bool.not_eq_true',
    Bool.or_eq_false_iff] at h
  exact (h.resolve_left hc).2

/-- None of these characters may stand in a word without quotes. -/
theorem ne_of_isBare (h : isBare c = true) : c ≠ quoteMark ∧ c ≠ '"' ∧ c ≠ ' ' := by
  refine ⟨?_, ?_, ?_⟩ <;>
  · rintro rfl
    revert h
    decide +kernel

/-- A word without quotes goes up to the next blank. -/
theorem takeWhile_dropWhile_of_isBlank (hcs : ∀ c ∈ cs, isBlank c = false)
    (hrest : ∀ c ∈ rest.head?, isBlank c = true) :
    (cs ++ rest).takeWhile (!isBlank ·) = cs ∧ (cs ++ rest).dropWhile (!isBlank ·) = rest := by
  have hcs : ∀ c ∈ cs, (!isBlank c) = true := by simpa using hcs
  rw [List.takeWhile_append_of_pos hcs, List.dropWhile_append_of_pos hcs]
  cases rest with
  | nil => exact ⟨List.append_nil cs, rfl⟩
  | cons c rest =>
    have hc : isBlank c = true := hrest c rfl
    simp [hc]

theorem read_of_isBare (hne : cs ≠ []) (hbare : ∀ c ∈ cs, isBare c = true)
    (hblank : ∀ c ∈ cs, isBlank c = false) (hrest : ∀ c ∈ rest.head?, isBlank c = true) :
    read (cs ++ rest) = some (cs, rest) := by
  obtain ⟨htake, hdrop⟩ := takeWhile_dropWhile_of_isBlank hblank hrest
  cases cs with
  | nil => exact absurd rfl hne
  | cons c cs =>
    obtain ⟨hquote, hdouble, -⟩ := ne_of_isBare (hbare c List.mem_cons_self)
    have hc : isBlank c = false := hblank c List.mem_cons_self
    rw [List.cons_append] at htake hdrop
    rw [List.cons_append, read, if_neg hquote, if_neg hdouble, htake, hdrop, hc]
    rfl

/-! ### What quotes enclose -/

/-- In a word without quotes, no quote ever opens. -/
theorem Enclosure.outside_of_isBare (hbare : ∀ c ∈ cs, isBare c = true) :
    unquoted.outside cs = cs ∧ unquoted.after cs = .unquoted := by
  induction cs with
  | nil => exact ⟨rfl, rfl⟩
  | cons c cs ih =>
    obtain ⟨hc, hcs⟩ := List.forall_mem_cons.1 hbare
    obtain ⟨hquote, hdouble, -⟩ := ne_of_isBare hc
    have hnext : unquoted.next c = .unquoted := by simp [next, hquote, hdouble]
    obtain ⟨houtside, hafter⟩ := ih hcs
    refine ⟨?_, ?_⟩
    · rw [outside, hnext, if_pos ⟨rfl, rfl⟩, houtside]
    · rw [after, List.foldl_cons, hnext]
      exact hafter

theorem Enclosure.outside_append (e : Enclosure) (cs ds : List Char) :
    e.outside (cs ++ ds) = e.outside cs ++ (e.after cs).outside ds := by
  induction cs generalizing e with
  | nil => rfl
  | cons c cs ih =>
    simp only [List.cons_append, outside, ih, after, List.foldl_cons]
    split <;> rfl

theorem Enclosure.after_append (e : Enclosure) (cs ds : List Char) :
    e.after (cs ++ ds) = (e.after cs).after ds := List.foldl_append

/-- The characters stand between quotes of one kind, and do not end there. -/
structure Enclosure.Encloses (e : Enclosure) (cs : List Char) : Prop where
  outside_eq : e.outside cs = []
  after_eq : e.after cs = e

theorem Enclosure.Encloses.append (h : e.Encloses cs) (h' : e.Encloses ds) :
    e.Encloses (cs ++ ds) where
  outside_eq := by rw [outside_append, h.outside_eq, h.after_eq, h'.outside_eq, List.append_nil]
  after_eq := by rw [after_append, h.after_eq, h'.after_eq]

theorem Enclosure.Encloses.nil (e : Enclosure) : e.Encloses [] := ⟨rfl, rfl⟩

theorem Enclosure.encloses_flatMap {f : Char → List Char} (hf : ∀ c, e.Encloses (f c))
    (cs : List Char) : e.Encloses (cs.flatMap f) := by
  induction cs with
  | nil => exact .nil e
  | cons c cs ih => exact (hf c).append ih

theorem Enclosure.encloses_singleQuoted (c : Char) : Encloses .single (singleQuoted c) := by
  unfold singleQuoted
  split
  · exact ⟨rfl, rfl⟩
  · constructor <;> simp [outside, after, next, *]

/-- Characters that neither end a double-quoted text nor escape what follows. -/
theorem Enclosure.encloses_of_ne (hcs : ∀ c ∈ cs, c ≠ '"' ∧ c ≠ '\\') : Encloses .double cs := by
  induction cs with
  | nil => exact .nil .double
  | cons c cs ih =>
    obtain ⟨⟨hquote, hbackslash⟩, hcs⟩ := List.forall_mem_cons.1 hcs
    have hc : Encloses .double [c] := by
      constructor <;> simp [outside, after, next, hquote, hbackslash]
    exact hc.append (ih hcs)

/-- What follows a backslash is never the end of a double-quoted text. -/
theorem Enclosure.encloses_backslash (letter : Char) : Encloses .double ['\\', letter] :=
  ⟨rfl, rfl⟩

/-- The digits of an escape. -/
theorem of_mem_padded {digits n : Nat} (hdigits : 0 < digits) (hn : n < 16 ^ digits)
    (hc : c ∈ padded digits n) : (c ≠ '"' ∧ c ≠ '\\') ∧ isVisible c = true := by
  have hdigit : ∀ d < 16, (Nat.digitChar d ≠ '"' ∧ Nat.digitChar d ≠ '\\') ∧
      isVisible (Nat.digitChar d) = true := by decide
  obtain ⟨ds, -, hds, hpadded, -⟩ := exists_padded_eq hdigits hn
  rw [hpadded] at hc
  obtain ⟨d, hd, rfl⟩ := List.mem_map.1 hc
  exact hdigit d (hds d hd)

theorem Enclosure.encloses_doubleQuoted (c : Char) : Encloses .double (doubleQuoted c) := by
  unfold doubleQuoted
  cases hshort : shortEscape? c with
  | some letter => exact encloses_backslash letter
  | none =>
    dsimp only
    split
    · exact encloses_of_ne (by simpa using ne_of_shortEscape?_eq_none hshort)
    · obtain ⟨letter, digits, hescape, -, hdigits, hn, -⟩ := exists_numberedEscape_eq c
      rw [hescape]
      exact (encloses_backslash letter).append
        (encloses_of_ne fun d hd => (of_mem_padded hdigits hn hd).1)

/-! ### Visible characters -/

theorem isVisible_of_mem_doubleQuoted {d : Char} (hd : d ∈ doubleQuoted c) :
    isVisible d = true := by
  unfold doubleQuoted at hd
  cases hshort : shortEscape? c with
  | some letter =>
    have hletter : isVisible letter = true := by
      unfold shortEscape? at hshort
      split at hshort <;> cases hshort <;> decide
    simp only [hshort, List.mem_cons, List.not_mem_nil, or_false] at hd
    rcases hd with rfl | rfl
    · decide
    · exact hletter
  | none =>
    simp only [hshort] at hd
    split at hd
    · rw [List.mem_singleton.1 hd]
      assumption
    · obtain ⟨letter, digits, hescape, -, hdigits, hn, hletter⟩ := exists_numberedEscape_eq c
      rw [hescape, List.mem_cons, List.mem_cons] at hd
      rcases hd with rfl | rfl | hd
      · decide
      · exact hletter
      · exact (of_mem_padded hdigits hn hd).2

theorem isVisible_of_mem_singleQuoted {d : Char} (hc : isVisible c = true)
    (hd : d ∈ singleQuoted c) : isVisible d = true := by
  unfold singleQuoted at hd
  split at hd
  · rename_i hquote
    rw [hquote] at hc
    simp only [List.mem_cons, List.not_mem_nil, or_false, or_self] at hd
    exact hd ▸ hc
  · exact List.mem_singleton.1 hd ▸ hc

/-! ### Quoted texts -/

/-- A word that stands for a text. -/
structure WordFor (cs word : List Char) : Prop where
  /-- It reads back as the text, also in front of a blank and more words. -/
  read_append {rest : List Char} (hrest : ∀ c ∈ rest.head?, isBlank c = true) :
    read (word ++ rest) = some (cs, rest)
  isVisible {c : Char} (hc : c ∈ word) : isVisible c = true
  /-- No blank breaks it up. -/
  not_mem_outside : ' ' ∉ Enclosure.unquoted.outside word
  /-- All of its quotes are closed. -/
  after_eq : Enclosure.unquoted.after word = .unquoted

theorem head?_ne_quoteMark (hrest : ∀ c ∈ rest.head?, isBlank c = true) :
    rest.head? ≠ some quoteMark := by
  intro hhead
  exact absurd (hrest quoteMark hhead) (by decide)

theorem wordFor_single (hvisible : ∀ c ∈ cs, isVisible c = true) :
    WordFor cs (quoteMark :: (cs.flatMap singleQuoted ++ [quoteMark])) where
  read_append {rest} hrest := by
    simp only [List.cons_append, List.append_assoc, List.nil_append, read, if_true]
    exact readSingle_flatMap cs (head?_ne_quoteMark hrest)
  isVisible {c} hc := by
    simp only [List.mem_cons, List.mem_append, List.mem_flatMap, List.not_mem_nil, or_false] at hc
    rcases hc with rfl | ⟨d, hd, hc⟩ | rfl
    · decide
    · exact isVisible_of_mem_singleQuoted (hvisible d hd) hc
    · decide
  not_mem_outside := by
    have hencloses := Enclosure.encloses_flatMap Enclosure.encloses_singleQuoted cs
    change ' ' ∉ Enclosure.single.outside _
    rw [Enclosure.outside_append, hencloses.outside_eq, hencloses.after_eq]
    decide
  after_eq := by
    have hencloses := Enclosure.encloses_flatMap Enclosure.encloses_singleQuoted cs
    change Enclosure.single.after _ = _
    rw [Enclosure.after_append, hencloses.after_eq]
    rfl

theorem wordFor_double (cs : List Char) :
    WordFor cs ('"' :: (cs.flatMap doubleQuoted ++ ['"'])) where
  read_append {rest} _ := by
    simp only [List.cons_append, List.append_assoc, List.nil_append, read]
    exact readDouble_flatMap cs rest
  isVisible {c} hc := by
    simp only [List.mem_cons, List.mem_append, List.mem_flatMap, List.not_mem_nil, or_false] at hc
    rcases hc with rfl | ⟨d, -, hc⟩ | rfl
    · decide
    · exact isVisible_of_mem_doubleQuoted hc
    · decide
  not_mem_outside := by
    have hencloses := Enclosure.encloses_flatMap Enclosure.encloses_doubleQuoted cs
    change ' ' ∉ Enclosure.double.outside _
    rw [Enclosure.outside_append, hencloses.outside_eq, hencloses.after_eq]
    decide
  after_eq := by
    have hencloses := Enclosure.encloses_flatMap Enclosure.encloses_doubleQuoted cs
    change Enclosure.double.after _ = _
    rw [Enclosure.after_append, hencloses.after_eq]
    rfl

theorem wordFor_bare (hne : cs ≠ []) (hvisible : ∀ c ∈ cs, isVisible c = true)
    (hbare : ∀ c ∈ cs, isBare c = true) : WordFor cs cs := by
  have hblank : ∀ c ∈ cs, isBlank c = false := fun c hc =>
    isBlank_of_isVisible (hvisible c hc) (ne_of_isBare (hbare c hc)).2.2
  obtain ⟨houtside, hafter⟩ := Enclosure.outside_of_isBare hbare
  refine ⟨read_of_isBare hne hbare hblank, fun hc => hvisible _ hc, ?_, hafter⟩
  rw [houtside]
  exact fun hmem => (ne_of_isBare (hbare ' ' hmem)).2.2 rfl

theorem wordFor_quoteChars (cs : List Char) : WordFor cs (quoteChars cs) := by
  unfold quoteChars
  split
  · rename_i hempty
    rw [List.isEmpty_iff.1 hempty]
    exact wordFor_single (fun _ h => nomatch h)
  · rename_i hempty
    split
    · exact wordFor_double cs
    · rename_i hvisible
      have hvisible : ∀ c ∈ cs, isVisible c = true := by simpa using hvisible
      split
      · rename_i hbare
        rw [Bool.and_eq_true, List.all_eq_true] at hbare
        exact wordFor_bare (by simpa using hempty) hvisible hbare.2
      · exact wordFor_single hvisible

/-- **Quoting is reversible.** The quoted text is one word: the reader takes all of it and gives
back the text, and so it does in front of a blank and whatever follows. Every character of the word
is a space or neither a control nor a blank, and no space stands outside of its quotes, which are all
closed. -/
theorem read_quote (s : String) :
    read (quote s).toList = some (s.toList, []) ∧
      (∀ rest : List Char, (∀ c ∈ rest.head?, isBlank c = true) →
        read ((quote s).toList ++ rest) = some (s.toList, rest)) ∧
      (∀ c ∈ (quote s).toList, c = ' ' ∨ isControl c = false ∧ isBlank c = false) ∧
      ' ' ∉ Enclosure.unquoted.outside (quote s).toList ∧
      Enclosure.unquoted.after (quote s).toList = .unquoted := by
  have hword : WordFor s.toList (quote s).toList := by
    rw [quote, String.toList_ofList]
    exact wordFor_quoteChars s.toList
  refine ⟨?_, fun rest hrest => hword.read_append hrest, fun c hc => ?_, hword.not_mem_outside,
    hword.after_eq⟩
  · have hread : read ((quote s).toList ++ []) = some (s.toList, []) :=
      hword.read_append fun _ h => nomatch h
    rwa [List.append_nil] at hread
  · simpa [isVisible] using hword.isVisible hc

end ShellWord

end TerminalUI
