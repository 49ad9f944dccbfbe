import Mathlib.Order.Bounds.Defs
import TerminalUI.Text.Offset

/-!
# Cutting text at boundaries

A byte offset is a boundary of a text exactly when the text is the concatenation of a part that
long and a rest (`isBoundary_iff`), and cutting there gives the two parts (`cutAt_eq_some_iff`).
The offset that `floorBoundary` gives is the last boundary up to an offset
(`isGreatest_floorBoundary`).
-/

namespace TerminalUI

@[simp]
theorem total_reverse {α : Type} (f : α → Nat) (as : List α) : total f as.reverse = total f as := by
  induction as with
  | nil => rfl
  | cons a as ih => simp [ih, Nat.add_comm]

namespace Offset

theorem cut_append (before after : List Char) :
    cut (before ++ after) (size before) = some (before, after) := by
  induction before with
  | nil => cases after <;> rfl
  | cons c cs ih =>
    have hpos := c.utf8Size_pos
    obtain ⟨n, hn⟩ : ∃ n, size (c :: cs) = n + 1 :=
      ⟨size (c :: cs) - 1, by simp only [size, total_cons]; omega⟩
    have hrest : n + 1 - c.utf8Size = size cs := by
      rw [← hn]
      simp [size]
    have hle : ¬ n + 1 < c.utf8Size := by
      rw [← hn]
      simp [size]
    rw [hn, List.cons_append, cut, if_neg hle, hrest, ih]
    rfl

theorem exists_floor (cs : List Char) (n : Nat) :
    ∃ before after, before ++ after = cs ∧ size before = floor cs n := by
  induction cs generalizing n with
  | nil => exact ⟨[], [], rfl, rfl⟩
  | cons c cs ih =>
    unfold floor
    split
    · exact ⟨[], c :: cs, rfl, rfl⟩
    · obtain ⟨before, after, happend, hsize⟩ := ih (n - c.utf8Size)
      refine ⟨c :: before, after, by rw [List.cons_append, happend], ?_⟩
      rw [← hsize]
      rfl

theorem floor_le (cs : List Char) (n : Nat) : floor cs n ≤ n := by
  induction cs generalizing n with
  | nil => exact Nat.zero_le n
  | cons c cs ih =>
    unfold floor
    split
    · exact Nat.zero_le n
    · have := ih (n - c.utf8Size)
      omega

theorem size_le_floor {before : List Char} (after : List Char) {n : Nat} (h : size before ≤ n) :
    size before ≤ floor (before ++ after) n := by
  induction before generalizing n with
  | nil => exact Nat.zero_le _
  | cons c before ih =>
    have hcons : size (c :: before) = c.utf8Size + size before := rfl
    rw [hcons] at h ⊢
    rw [List.cons_append, floor, if_neg (by omega)]
    have := ih (n := n - c.utf8Size) (by omega)
    omega

end Offset

theorem byteLength_ofList (cs : List Char) : byteLength (String.ofList cs) = Offset.size cs := by
  induction cs with
  | nil => rfl
  | cons c cs ih =>
    rw [← List.singleton_append, String.ofList_append, byteLength, String.utf8ByteSize_append]
    rw [byteLength] at ih
    rw [ih, ← String.singleton_eq_ofList, String.utf8ByteSize_singleton]
    rfl

theorem size_toList (s : String) : Offset.size s.toList = byteLength s := by
  rw [← byteLength_ofList, String.ofList_toList]

@[simp]
theorem byteLength_append (s t : String) : byteLength (s ++ t) = byteLength s + byteLength t :=
  String.utf8ByteSize_append

@[simp]
theorem byteLength_singleton (c : Char) : byteLength (String.singleton c) = c.utf8Size :=
  String.utf8ByteSize_singleton

@[simp]
theorem byteLength_empty : byteLength "" = 0 := rfl

/-- If two concatenations agree, the longer first part starts with the shorter one. -/
theorem exists_append_of_le {a b c d : String} (h : a ++ b = c ++ d)
    (hle : byteLength a ≤ byteLength c) : ∃ e, c = a ++ e ∧ b = e ++ d := by
  have hlist : a.toList ++ b.toList = c.toList ++ d.toList := by
    rw [← String.toList_append, h, String.toList_append]
  rcases List.append_eq_append_iff.1 hlist with ⟨e, hc, hb⟩ | ⟨e, ha, hd⟩
  · refine ⟨String.ofList e, String.toList_inj.1 ?_, String.toList_inj.1 ?_⟩
    · simpa using hc
    · simpa using hb
  · -- the first part is longer after all, so by nothing
    have hlength : byteLength a = byteLength c + Offset.size e := by
      rw [← size_toList, ha, Offset.size, total_append, ← Offset.size, size_toList]
      rfl
    have hnil : e = [] := by
      cases e with
      | nil => rfl
      | cons c e =>
        have hpos := c.utf8Size_pos
        simp only [Offset.size, total_cons] at hlength
        omega
    subst hnil
    refine ⟨"", String.toList_inj.1 ?_, String.toList_inj.1 ?_⟩
    · simpa using ha.symm
    · simpa using hd.symm

theorem cutAt_append (before after : String) :
    cutAt (before ++ after) (byteLength before) = some (before, after) := by
  rw [cutAt, ← size_toList, String.toList_append, Offset.cut_append]
  simp

theorem cutAt_eq_some_iff {s before after : String} {n : Nat} :
    cutAt s n = some (before, after) ↔ before ++ after = s ∧ byteLength before = n := by
  constructor
  · intro h
    obtain ⟨⟨b, a⟩, hcut, heq⟩ := Option.map_eq_some_iff.1 h
    obtain ⟨happend, hsize⟩ := Offset.append_of_cut hcut
    simp only [Prod.mk.injEq] at heq
    obtain ⟨rfl, rfl⟩ := heq
    refine ⟨?_, by rw [byteLength_ofList, hsize]⟩
    rw [← String.ofList_append, happend, String.ofList_toList]
  · rintro ⟨rfl, rfl⟩
    exact cutAt_append before after

/-- A boundary is the length of a part of the text that starts at its start. -/
theorem isBoundary_iff {s : String} {n : Nat} :
    isBoundary s n = true ↔ ∃ before after, before ++ after = s ∧ byteLength before = n := by
  have hcut : isBoundary s n = (cutAt s n).isSome := by simp [isBoundary, cutAt]
  rw [hcut, Option.isSome_iff_exists]
  constructor
  · rintro ⟨⟨before, after⟩, h⟩
    exact ⟨before, after, cutAt_eq_some_iff.1 h⟩
  · rintro ⟨before, after, h⟩
    exact ⟨(before, after), cutAt_eq_some_iff.2 h⟩

theorem le_of_isBoundary {s : String} {n : Nat} (h : isBoundary s n = true) :
    n ≤ byteLength s := by
  obtain ⟨before, after, rfl, rfl⟩ := isBoundary_iff.1 h
  simp

theorem isBoundary_floorBoundary (s : String) (n : Nat) :
    isBoundary s (floorBoundary s n) = true := by
  obtain ⟨before, after, happend, hsize⟩ := Offset.exists_floor s.toList n
  refine isBoundary_iff.2 ⟨String.ofList before, String.ofList after, ?_, ?_⟩
  · rw [← String.ofList_append, happend, String.ofList_toList]
  · rw [byteLength_ofList, hsize]
    rfl

/-- The offset that `floorBoundary` gives is the last boundary up to there. -/
theorem isGreatest_floorBoundary (s : String) (n : Nat) :
    IsGreatest {i | isBoundary s i = true ∧ i ≤ n} (floorBoundary s n) := by
  refine ⟨⟨isBoundary_floorBoundary s n, Offset.floor_le s.toList n⟩, ?_⟩
  rintro i ⟨hboundary, hle⟩
  obtain ⟨before, after, rfl, rfl⟩ := isBoundary_iff.1 hboundary
  rw [← size_toList] at hle ⊢
  rw [floorBoundary, String.toList_append]
  exact Offset.size_le_floor after.toList hle

end TerminalUI
