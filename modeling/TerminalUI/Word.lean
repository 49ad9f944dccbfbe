import TerminalUI.Error

/-!
# Machine words

Sizes are words of 64 bits. What is left of a size is computed with signed words, as it can be less
than nothing. A result that is no word ends the application.
-/

namespace TerminalUI

/-- Words are the numbers below this one, the power 64 of two. -/
def wordLimit : Nat := 0x10000000000000000

/-- Signed words are the numbers below this one, the power 63 of two, and from its negative on. -/
def signedLimit : Nat := 0x8000000000000000

/-- A size read as a signed word. Sizes from half the range on are negative. -/
def signedWord (n : Nat) : Int := Int.bmod n wordLimit

/-- A sum or product of sizes, which has to be a word. -/
def checkWord (n : Nat) : Except Fault Nat :=
  if n < wordLimit then .ok n else .error .overflow

/-- What is left of a signed word without a count, which has to be a signed word. -/
def signedSub (a : Int) (n : Nat) : Except Fault Int :=
  if -signedLimit ≤ a - n then .ok (a - n) else .error .overflow

/-- What is left of a number without some counts. -/
def subAll (a : Int) (counts : List Nat) : Int := counts.foldl (fun (a : Int) (n : Nat) => a - n) a

/-- What is left of a signed word without some counts, taken away one after the other. -/
def signedSubAll (a : Int) (counts : List Nat) : Except Fault Int := counts.foldlM signedSub a

/-- Sizes below half the range of words are read as they are. -/
theorem signedWord_of_lt {n : Nat} (h : n < signedLimit) : signedWord n = n := by
  unfold signedLimit at h
  unfold signedWord wordLimit
  rw [Int.bmod_def]
  split <;> omega

/-- The word of a size is no more than the size. -/
theorem signedWord_le (n : Nat) : signedWord n ≤ n := by
  unfold signedWord wordLimit
  rw [Int.bmod_def]
  split <;> omega

/-- The result is a value, unless something overflows on the way to it. -/
def Computes {α : Type} (result : Except Fault α) (a : α) : Prop :=
  result = .ok a ∨ result = .error .overflow

theorem Computes.ok {α : Type} (a : α) : Computes (.ok a) a := .inl rfl

theorem Computes.bind {α β : Type} {result : Except Fault α} {f : α → Except Fault β} {a : α}
    {b : β} (h : Computes result a) (hf : Computes (f a) b) : Computes (result >>= f) b := by
  rcases h with rfl | rfl
  · exact hf
  · exact .inr rfl

theorem checkWord_computes (n : Nat) : Computes (checkWord n) n := by
  unfold checkWord
  split
  · exact .ok n
  · exact .inr rfl

theorem signedSub_computes (a : Int) (n : Nat) : Computes (signedSub a n) (a - n) := by
  unfold signedSub
  split
  · exact .ok _
  · exact .inr rfl

theorem signedSubAll_computes (a : Int) (counts : List Nat) :
    Computes (signedSubAll a counts) (subAll a counts) := by
  induction counts generalizing a with
  | nil => exact .ok a
  | cons n counts ih => exact (signedSub_computes a n).bind (ih (a - n))

theorem subAll_pair (a : Int) (m n : Nat) : subAll a [m, n] = a - m - n := rfl

end TerminalUI
