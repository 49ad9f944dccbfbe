import Mathlib.Data.List.Forall2
import Mathlib.Data.Nat.Digits.Defs
import TerminalUI.Text.Number

/-!
# Numerals

Which texts `Number.byte?` reads, and as what. `Number.Denotes` says what a row of digits stands for,
and `Number.Signed` allows for a plus sign in front of it.

* `digit?_eq_some_iff` : a digit is read as its value, in either case;
* `byte?_eq_some_iff` : **numbers of one byte are read from their numerals**, with or without a sign.
-/

namespace TerminalUI

/-- A rule on how numbers are written, for any radix. -/
abbrev NumberRule := Nat → List Char → Nat → Prop

namespace Number

/-- The character is a digit of the radix, in either case. -/
def IsDigit (radix : Nat) (c : Char) (d : Nat) : Prop :=
  d < radix ∧ (c = d.digitChar ∨ c = d.digitChar.toUpper)

/-- The text consists of digits, at least one, the first of which counts most, and this is its
value. -/
def Denotes (radix : Nat) (cs : List Char) (n : Nat) : Prop :=
  ∃ ds, ds ≠ [] ∧ List.Forall₂ (IsDigit radix) cs ds ∧ Nat.ofDigits radix ds.reverse = n

/-- The text consists of digits with this value, and there may be a plus sign in front. -/
def Signed (radix : Nat) (cs : List Char) (n : Nat) : Prop :=
  Denotes radix cs n ∨ ∃ digits, cs = '+' :: digits ∧ Denotes radix digits n

variable {radix value n d : Nat} {c : Char} {cs : List Char}

/-! ### Digits -/

theorem toNat_digitChar : ∀ d < 16,
    d.digitChar.toNat = (if d < 10 then 0x30 + d else 0x57 + d) ∧
      d.digitChar.toUpper.toNat = if d < 10 then 0x30 + d else 0x37 + d := by
  decide

theorem isDigit_iff (hradix : radix ≤ 16) : IsDigit radix c d ↔
    d < radix ∧ (c.toNat = (if d < 10 then 0x30 + d else 0x57 + d) ∨
      c.toNat = if d < 10 then 0x30 + d else 0x37 + d) := by
  refine and_congr_right fun hd => ?_
  obtain ⟨hlower, hupper⟩ := toNat_digitChar d (hd.trans_le hradix)
  rw [← hlower, ← hupper, Char.toNat_inj, Char.toNat_inj]

/-- A digit is read as its value, in either case. -/
theorem digit?_eq_some_iff (hradix : radix ≤ 16) : digit? radix c = some d ↔ IsDigit radix c d := by
  rw [isDigit_iff hradix, digit?]
  simp only [Bool.and_eq_true, decide_eq_true_eq, Option.ite_none_right_eq_some, Option.some.injEq]
  constructor
  · rintro ⟨hlt, rfl⟩
    refine ⟨hlt, ?_⟩
    split_ifs at hlt ⊢ <;> omega
  · rintro ⟨hlt, h⟩
    split_ifs at h ⊢ <;> omega

theorem le_toNat_of_isDigit (hradix : radix ≤ 16) (h : IsDigit radix c d) : 0x30 ≤ c.toNat := by
  obtain ⟨-, h⟩ := (isDigit_iff hradix).1 h
  split_ifs at h <;> omega

/-! ### Rows of digits -/

/-- A row of digits is read on from the value of those before. -/
theorem digits?_eq_some_iff (hradix : radix ≤ 16) : digits? radix value cs = some n ↔
    ∃ ds, List.Forall₂ (IsDigit radix) cs ds ∧ ds.foldl (fun v d => v * radix + d) value = n := by
  induction cs generalizing value with
  | nil => simp [digits?]
  | cons c cs ih =>
    simp only [digits?, Option.bind_eq_some_iff, digit?_eq_some_iff hradix, ih,
      List.forall₂_cons_left_iff]
    constructor
    · rintro ⟨d, hd, ds, hds, hn⟩
      exact ⟨d :: ds, ⟨d, ds, hd, hds, rfl⟩, hn⟩
    · rintro ⟨-, ⟨d, ds, hd, hds, rfl⟩, hn⟩
      exact ⟨d, hd, ds, hds, hn⟩

theorem foldl_eq_ofDigits (radix : Nat) (ds : List Nat) :
    ds.foldl (fun v d => v * radix + d) 0 = Nat.ofDigits radix ds.reverse := by
  rw [Nat.ofDigits_eq_foldr, List.foldr_reverse]
  simp only [Nat.cast_id, Nat.mul_comm radix, Nat.add_comm]

theorem denotes_iff (hradix : radix ≤ 16) :
    Denotes radix cs n ↔ cs ≠ [] ∧ digits? radix 0 cs = some n := by
  rw [digits?_eq_some_iff hradix, Denotes]
  simp only [foldl_eq_ofDigits]
  constructor
  · rintro ⟨ds, hne, hds, hn⟩
    refine ⟨?_, ds, hds, hn⟩
    rintro rfl
    exact hne (List.forall₂_nil_left_iff.1 hds)
  · rintro ⟨hne, ds, hds, hn⟩
    refine ⟨ds, ?_, hds, hn⟩
    rintro rfl
    exact hne (List.forall₂_nil_right_iff.1 hds)

theorem le_toNat_of_denotes (hradix : radix ≤ 16) (h : Denotes radix cs n) :
    ∀ c ∈ cs, 0x30 ≤ c.toNat := by
  obtain ⟨ds, -, hds, -⟩ := h
  induction hds with
  | nil => simp
  | cons hd _ ih => exact List.forall_mem_cons.2 ⟨le_toNat_of_isDigit hradix hd, ih⟩

theorem lt_of_forall_isDigit {ds : List Nat} (h : List.Forall₂ (IsDigit radix) cs ds) :
    ∀ d ∈ ds, d < radix := by
  induction h with
  | nil => simp
  | cons hd _ ih => exact List.forall_mem_cons.2 ⟨hd.1, ih⟩

theorem denotes_lt (h : Denotes radix cs n) (hradix : 1 < radix) : n < radix ^ cs.length := by
  obtain ⟨ds, -, hds, rfl⟩ := h
  rw [hds.length_eq, ← List.length_reverse]
  exact Nat.ofDigits_lt_base_pow_length hradix fun d hd =>
    lt_of_forall_isDigit hds d (List.mem_reverse.1 hd)

/-! ### Numbers -/

theorem signed_plus_iff (hradix : radix ≤ 16) :
    Signed radix ('+' :: cs) n ↔ Denotes radix cs n := by
  constructor
  · rintro (h | ⟨digits, heq, h⟩)
    · exact absurd (le_toNat_of_denotes hradix h '+' List.mem_cons_self) (by decide)
    · rwa [(List.cons.inj heq).2]
  · exact fun h => .inr ⟨cs, rfl, h⟩

theorem signed_iff_of_head (h : ∀ digits, cs ≠ '+' :: digits) :
    Signed radix cs n ↔ Denotes radix cs n :=
  ⟨fun hsigned => hsigned.resolve_right fun ⟨digits, heq, _⟩ => h digits heq, .inl⟩

theorem signed_lt (h : Signed radix cs n) (hradix : 1 < radix) : n < radix ^ cs.length := by
  rcases h with h | ⟨digits, rfl, h⟩
  · exact denotes_lt h hradix
  · exact (denotes_lt h hradix).trans_le (Nat.pow_le_pow_right (by omega) (by simp))

/-- Without a plus sign, there are digits only. -/
theorem denotes_of_signed (h : Signed radix cs n) (hplus : '+' ∉ cs) : Denotes radix cs n := by
  refine h.resolve_right ?_
  rintro ⟨digits, rfl, -⟩
  simp at hplus

theorem hyphen_notMem_of_signed (hradix : radix ≤ 16) (h : Signed radix cs n) : '-' ∉ cs := by
  intro hmem
  rcases h with h | ⟨digits, rfl, h⟩
  · exact absurd (le_toNat_of_denotes hradix h '-' hmem) (by decide)
  · rcases List.mem_cons.1 hmem with heq | hmem
    · exact absurd heq (by decide)
    · exact absurd (le_toNat_of_denotes hradix h '-' hmem) (by decide)

/-- **Numbers of one byte are read from their numerals**, with or without a plus sign. -/
theorem byte?_eq_some_iff (hradix : radix ≤ 16) :
    byte? radix cs = some n ↔ Signed radix cs n ∧ n ≤ 255 := by
  -- what is read from digits, with what a value that is too large is turned into
  have hread (digits : List Char) (read : Option ℕ)
      (hnone : digits? radix 0 digits = none → read = none)
      (hsome : ∀ value, digits? radix 0 digits = some value →
        read = if value ≤ 255 then some value else none) :
      (if digits.isEmpty then none else read) = some n ↔ Denotes radix digits n ∧ n ≤ 255 := by
    rw [denotes_iff hradix]
    cases hdigits : digits? radix 0 digits with
    | none => simp [hnone hdigits]
    | some value =>
      simp only [hsome value hdigits, List.isEmpty_iff, Option.ite_none_left_eq_some,
        Option.ite_none_right_eq_some, Option.some.injEq, and_assoc, ne_eq]
      refine and_congr_right fun _ => ⟨?_, ?_⟩
      · rintro ⟨hle, rfl⟩
        exact ⟨rfl, hle⟩
      · rintro ⟨rfl, hle⟩
        exact ⟨hle, rfl⟩
  unfold byte?
  split
  · rename_i digits
    rw [signed_plus_iff hradix]
    exact hread digits _ (fun h => by rw [h]) fun _ h => by rw [h]
  · rename_i hplus
    rw [signed_iff_of_head hplus]
    exact hread cs _ (fun h => by rw [h]) fun _ h => by rw [h]

end Number

end TerminalUI
