import Mathlib.Data.List.Basic
import TerminalUI.Text.Pieces

/-!
# Texts on one line

A text without line feeds and carriage returns stays a line when it is put between others.

* `lines_append_feed` : such a text and a line feed are the first line of what follows;
* `lines_intercalate` : texts without line breaks are the lines of what they are joined to;
* `lines_terminated` : and of what they are when each of them is ended by a line feed.
-/

namespace TerminalUI

/-- No line ends inside of the text. -/
def isOneLine (s : String) : Bool := s.toList.all fun c => c ≠ '\n' && c ≠ '\r'

theorem isOneLine_iff {s : String} :
    isOneLine s = true ↔ '\n' ∉ s.toList ∧ '\r' ∉ s.toList := by
  simp only [isOneLine, List.all_eq_true, Bool.and_eq_true, decide_eq_true_eq]
  exact ⟨fun h => ⟨fun hmem => (h _ hmem).1 rfl, fun hmem => (h _ hmem).2 rfl⟩,
    fun h c hc => ⟨fun heq => h.1 (heq ▸ hc), fun heq => h.2 (heq ▸ hc)⟩⟩

theorem isOneLine_append {s t : String} :
    isOneLine (s ++ t) = true ↔ isOneLine s = true ∧ isOneLine t = true := by
  simp only [isOneLine, String.toList_append, List.all_append, Bool.and_eq_true]

theorem isOneLine_join {ss : List String} :
    isOneLine (String.join ss) = true ↔ ∀ s ∈ ss, isOneLine s = true := by
  simp only [isOneLine, String.toList_join, List.all_flatMap, List.all_eq_true]

/-- A number is on one line. -/
theorem isOneLine_toString (n : Nat) : isOneLine (toString n) = true := by
  rw [isOneLine, List.all_eq_true, Nat.toString_eq_repr, Nat.toList_repr]
  intro c hc
  have hdigit := Nat.isDigit_of_mem_toDigits (by decide) (by decide) hc
  have hfeed : c ≠ '\n' := by rintro rfl; cases hdigit
  have hreturn : c ≠ '\r' := by rintro rfl; cases hdigit
  simp [hfeed, hreturn]

/-- Texts that are ended by a line feed each. -/
def terminated (ls : List String) : String := String.join (ls.map (· ++ "\n"))

theorem terminated_cons (l : String) (ls : List String) :
    terminated (l :: ls) = l ++ "\n" ++ terminated ls := by
  rw [terminated, List.map_cons, String.join_cons]
  rfl

theorem terminated_append (ls ms : List String) :
    terminated (ls ++ ms) = terminated ls ++ terminated ms := by
  rw [terminated, List.map_append, String.join_append]
  rfl

theorem terminated_flatMap {α : Type} (as : List α) (g : α → List String) :
    terminated (as.flatMap g) = String.join (as.map fun a => terminated (g a)) := by
  induction as with
  | nil => rfl
  | cons a as ih => rw [List.flatMap_cons, terminated_append, ih, List.map_cons, String.join_cons]

namespace Pieces

variable {separator : Char} {cs : List Char}

theorem splitFrom_of_notMem (h : separator ∉ cs) (piece : List Char) :
    splitFrom separator piece cs = [piece.reverse ++ cs] := by
  induction cs generalizing piece with
  | nil => simp [splitFrom]
  | cons c cs ih =>
    rw [List.mem_cons, not_or] at h
    rw [splitFrom, if_neg (Ne.symm h.1), ih h.2, List.reverse_cons, List.append_assoc]
    rfl

theorem splitFrom_append (h : separator ∉ cs) (piece rest : List Char) :
    splitFrom separator piece (cs ++ separator :: rest) =
      (piece.reverse ++ cs) :: splitFrom separator [] rest := by
  induction cs generalizing piece with
  | nil => simp [splitFrom]
  | cons c cs ih =>
    rw [List.mem_cons, not_or] at h
    rw [List.cons_append, splitFrom, if_neg (Ne.symm h.1), ih h.2, List.reverse_cons,
      List.append_assoc]
    rfl

theorem splitFrom_ne_nil (piece : List Char) : splitFrom separator piece cs ≠ [] := by
  induction cs generalizing piece with
  | nil => exact List.cons_ne_nil _ _
  | cons c cs ih =>
    rw [splitFrom]
    split
    · exact List.cons_ne_nil _ _
    · exact ih _

theorem stripReturn_of_notMem (h : '\r' ∉ cs) : stripReturn cs = cs := by
  unfold stripReturn
  split
  · rename_i heq
    exact absurd (List.mem_reverse.1 (heq ▸ List.mem_cons_self)) h
  · rfl

theorem linesOf_cons {pieces : List (List Char)} (h : pieces ≠ []) (piece : List Char) :
    linesOf (piece :: pieces) = stripReturn piece :: linesOf pieces := by
  cases pieces with
  | nil => exact absurd rfl h
  | cons next rest => rfl

end Pieces

/-- A text without line breaks is the first line of what begins with it and a line feed. -/
theorem lines_append_feed {l : String} (h : isOneLine l = true) (rest : String) :
    lines (l ++ "\n" ++ rest) = l :: lines rest := by
  obtain ⟨hfeed, hreturn⟩ := isOneLine_iff.1 h
  have hsplit : (l ++ "\n" ++ rest).toList = l.toList ++ '\n' :: rest.toList := by
    rw [String.toList_append, String.toList_append, List.append_assoc]
    rfl
  rw [lines, hsplit, Pieces.splitFrom_append hfeed, Pieces.linesOf_cons (Pieces.splitFrom_ne_nil _),
    List.reverse_nil, List.nil_append, Pieces.stripReturn_of_notMem hreturn, List.map_cons,
    String.ofList_toList, lines]

/-- Texts that are lines are the lines of what they are joined to. -/
theorem lines_intercalate {ls : List String} (h : ∀ l ∈ ls, l ≠ "" ∧ isOneLine l = true) :
    lines ("\n".intercalate ls) = ls := by
  induction ls with
  | nil => rfl
  | cons l ls ih =>
    obtain ⟨⟨hne, hl⟩, hls⟩ := List.forall_mem_cons.1 h
    cases ls with
    | nil =>
      have hchars : l.toList.isEmpty = false := by simpa using hne
      rw [String.intercalate_singleton, lines,
        Pieces.splitFrom_of_notMem (isOneLine_iff.1 hl).1, List.reverse_nil, List.nil_append,
        Pieces.linesOf, hchars]
      simp
    | cons next ls => rw [String.intercalate_cons_cons, lines_append_feed hl, ih hls]

/-- Texts without line breaks are the lines of what they are when each is ended by a line feed. -/
theorem lines_terminated {ls : List String} (h : ∀ l ∈ ls, isOneLine l = true) :
    lines (terminated ls) = ls := by
  induction ls with
  | nil => rfl
  | cons l ls ih =>
    obtain ⟨hl, hls⟩ := List.forall_mem_cons.1 h
    rw [terminated_cons, lines_append_feed hl, ih hls]

end TerminalUI
