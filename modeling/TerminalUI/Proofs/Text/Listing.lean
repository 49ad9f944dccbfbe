import TerminalUI.Proofs.Code.Quoting
import TerminalUI.Text.Listing

/-!
# Listings of texts

A quoted text can be told from what comes after it, whatever characters there are in either: each
character is read back from the front of what is written (`Quoted.unescape_escape`), and the first
quote that is not escaped is the closing one. So different lists of texts have different listings
(`Listing.texts_injective`), also if the texts hold quotes, backslashes, commas or brackets.
-/

namespace TerminalUI

namespace Quoted

variable {c d : Char} {cs ds xs ys : List Char} {s t : String}

/-! ### One character -/

/-- The end of a number. -/
def closing : Char := Char.ofNat 0x7D

/-- What a letter after a backslash stands for. -/
def ofLetter : Char → Char
  | 'n' => '\n'
  | 'r' => '\r'
  | 't' => '\t'
  | '0' => Char.ofNat 0
  | c => c

/-- The character with the number that hexadecimal digits stand for. -/
def ofNumber (digits : List Char) : Char :=
  .ofNat (ShellWord.ofDigits 0 (digits.filterMap ShellWord.digitValue?))

/-- Reads a character between quotes: what it is, and what comes after it. -/
def unescape : List Char → Option (Char × List Char)
  | '\\' :: 'u' :: rest =>
    some (ofNumber (rest.tail.takeWhile (· ≠ closing)), (rest.tail.dropWhile (· ≠ closing)).tail)
  | '\\' :: letter :: rest => some (ofLetter letter, rest)
  | c :: rest => some (c, rest)
  | [] => none

theorem digitChar_ne_closing : ∀ n < 16, Nat.digitChar n ≠ closing := by decide

theorem filterMap_digitValue? {digits : List Nat} (h : ∀ n ∈ digits, n < 16) :
    (digits.map Nat.digitChar).filterMap ShellWord.digitValue? = digits := by
  induction digits with
  | nil => rfl
  | cons n digits ih =>
    obtain ⟨hn, hdigits⟩ := List.forall_mem_cons.1 h
    rw [List.map_cons, List.filterMap_cons_some (ShellWord.digitValue?_digitChar n hn),
      ih hdigits]

theorem unescape_numbered (c : Char) (xs : List Char) :
    unescape (numbered c ++ xs) = some (c, xs) := by
  obtain ⟨digits, hdigits, hwritten, hvalue⟩ := ShellWord.exists_hexadecimal_eq c.toNat
  have hopen : ∀ d ∈ digits.map Nat.digitChar, decide (d ≠ closing) = true := by
    simp only [List.mem_map, decide_eq_true_eq]
    rintro _ ⟨n, hn, rfl⟩
    exact digitChar_ne_closing n (hdigits n hn)
  have hnumber : ofNumber (digits.map Nat.digitChar) = c := by
    rw [ofNumber, filterMap_digitValue? hdigits, hvalue, Char.ofNat_toNat]
  have hread : unescape (numbered c ++ xs) =
      some (ofNumber ((digits.map Nat.digitChar ++ closing :: xs).takeWhile (· ≠ closing)),
        ((digits.map Nat.digitChar ++ closing :: xs).dropWhile (· ≠ closing)).tail) := by
    rw [numbered, hwritten, List.cons_append, List.cons_append, List.cons_append,
      List.append_assoc]
    rfl
  rw [hread, List.takeWhile_append_of_pos hopen, List.dropWhile_append_of_pos hopen,
    List.takeWhile_cons_of_neg (by simp), List.dropWhile_cons_of_neg (by simp), List.append_nil,
    hnumber, List.tail_cons]

/-- **A character is read back**, whatever comes after it. -/
theorem unescape_escape (c : Char) (xs : List Char) : unescape (escape c ++ xs) = some (c, xs) := by
  by_cases hquote : c = '"'
  · subst hquote
    rfl
  by_cases hbackslash : c = '\\'
  · subst hbackslash
    rfl
  by_cases hfeed : c = '\n'
  · subst hfeed
    rfl
  by_cases hreturn : c = '\r'
  · subst hreturn
    rfl
  by_cases htab : c = '\t'
  · subst htab
    rfl
  by_cases hzero : c.toNat = 0
  · obtain rfl : c = Char.ofNat 0 := Char.toNat_inj.1 hzero
    rfl
  rw [escape, if_neg hquote, if_neg hbackslash, if_neg hfeed, if_neg hreturn, if_neg htab,
    if_neg hzero]
  split
  · exact unescape_numbered c xs
  · simp [unescape, hbackslash]

/-- No character is written as the beginning of another one. -/
theorem escape_append_inj (h : escape c ++ xs = escape d ++ ys) : c = d ∧ xs = ys := by
  have hread := congrArg unescape h
  rwa [unescape_escape, unescape_escape, Option.some.injEq, Prod.mk.injEq] at hread

/-! ### Quoted texts -/

theorem escape_append_ne (c : Char) (xs ys : List Char) : escape c ++ xs ≠ '"' :: ys := by
  intro h
  have hread : unescape ('"' :: ys) = some ('"', ys) := rfl
  rw [← h, unescape_escape, Option.some.injEq, Prod.mk.injEq] at hread
  obtain ⟨rfl, -⟩ := hread
  cases h

/-- The closing quote is the first one that is not escaped. -/
theorem flatMap_escape_append_inj
    (h : cs.flatMap escape ++ '"' :: xs = ds.flatMap escape ++ '"' :: ys) : cs = ds ∧ xs = ys := by
  induction cs generalizing ds with
  | nil =>
    cases ds with
    | nil => exact ⟨rfl, List.tail_eq_of_cons_eq h⟩
    | cons d ds =>
      rw [List.flatMap_cons, List.append_assoc] at h
      exact absurd h.symm (escape_append_ne _ _ _)
  | cons c cs ih =>
    cases ds with
    | nil =>
      rw [List.flatMap_cons, List.append_assoc] at h
      exact absurd h (escape_append_ne _ _ _)
    | cons d ds =>
      rw [List.flatMap_cons, List.flatMap_cons, List.append_assoc, List.append_assoc] at h
      obtain ⟨rfl, hrest⟩ := escape_append_inj h
      obtain ⟨rfl, rfl⟩ := ih hrest
      exact ⟨rfl, rfl⟩

theorem quoted_append_inj (h : (quoted s).toList ++ xs = (quoted t).toList ++ ys) :
    s = t ∧ xs = ys := by
  simp only [quoted, String.toList_ofList, List.cons_append, List.append_assoc,
    List.nil_append, List.cons.injEq, true_and] at h
  obtain ⟨hchars, hrest⟩ := flatMap_escape_append_inj h
  exact ⟨String.toList_inj.1 hchars, hrest⟩

end Quoted

namespace Listing

/-! ### Lists of texts -/

/-- The characters of the texts after the first one, up to the end of the listing. -/
def others (ss : List String) : List Char :=
  ss.flatMap (fun s => ", ".toList ++ (quoted s).toList) ++ [']']

theorem toList_texts_nil : (texts []).toList = ['[', ']'] := rfl

theorem toList_texts_cons (s : String) (ss : List String) :
    (texts (s :: ss)).toList = '[' :: ((quoted s).toList ++ others ss) := by
  have hrest : ((", ".intercalate ((s :: ss).map quoted)) ++ "]").toList =
      (quoted s).toList ++ others ss := by
    induction ss generalizing s with
    | nil => simp [others]
    | cons t ss ih =>
      rw [List.map_cons, List.map_cons, String.intercalate_cons_cons, ← List.map_cons,
        String.append_assoc, String.toList_append, ih, String.toList_append, others, others,
        List.flatMap_cons]
      simp only [List.append_assoc]
  rw [texts, items, String.append_assoc, String.toList_append, hrest]
  rfl

/-- A listing of some texts is none of no texts. -/
theorem toList_texts_cons_ne (s : String) (ss : List String) :
    (texts (s :: ss)).toList ≠ (texts []).toList := by
  rw [toList_texts_cons, toList_texts_nil, quoted]
  simp

theorem others_inj {ss ts : List String} (h : others ss = others ts) : ss = ts := by
  induction ss generalizing ts with
  | nil =>
    cases ts with
    | nil => rfl
    | cons t ts => cases h
  | cons s ss ih =>
    cases ts with
    | nil => cases h
    | cons t ts =>
      simp only [others, List.flatMap_cons, List.append_assoc, List.append_cancel_left_eq] at h
      obtain ⟨rfl, hrest⟩ := Quoted.quoted_append_inj h
      rw [ih hrest]

/-- **Different lists of texts have different listings.** -/
theorem texts_injective : Function.Injective texts := by
  intro ss ts h
  have hchars := congrArg String.toList h
  cases ss with
  | nil =>
    cases ts with
    | nil => rfl
    | cons t ts => exact absurd hchars.symm (toList_texts_cons_ne t ts)
  | cons s ss =>
    cases ts with
    | nil => exact absurd hchars (toList_texts_cons_ne s ss)
    | cons t ts =>
      rw [toList_texts_cons, toList_texts_cons, List.cons.injEq] at hchars
      obtain ⟨rfl, hrest⟩ := Quoted.quoted_append_inj hchars.2
      rw [others_inj hrest]

end Listing

end TerminalUI
