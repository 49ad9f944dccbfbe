import Mathlib.Data.Set.Function
import TerminalUI.Key.Name

/-!
# Reading the names of keys

A key is read from its name. The hyphen stands behind every modifier and is a key of its own, so the
reader has to tell the two apart: it cuts at a hyphen as long as something follows it
(`Key.splitModifier?_append`, `Key.splitModifier?_eq_none`), and no key code has a name in which
anything follows a hyphen (`KeyCode.eq_nil_of_name_eq`).

* `KeyCode.ofName_name_iff` : the key codes that have a name are read from it, and no others;
* `Key.ofNameFrom_modifier`, `Key.ofNameFrom_code` : the two ways in which the reader goes on;
* `Key.ofName_name` : the modifiers that are held are read, and then the key code is;
* `Key.name_laws` : **keys are read from their names**, which tell them apart, and whatever a key
  was read from, it is read from its name too.
-/

namespace TerminalUI

namespace KeyCode

/-- Has the key a name that it is read from? Of the function keys, F1 to F12 have one. -/
def HasName : KeyCode → Prop
  | .function n => 1 ≤ n.toNat ∧ n.toNat ≤ 12
  | _ => True

variable {code : KeyCode} {cs : List Char}

theorem hasName_of_mem_names {word : String} (h : (word, code) ∈ names) : code.HasName := by
  simp only [names, List.mem_cons, Prod.mk.injEq, List.not_mem_nil, or_false] at h
  rcases h with h | h | h | h | h | h | h | h | h | h | h | h | h | h | h | h
  all_goals
    obtain ⟨-, rfl⟩ := h
    trivial

theorem hasName_of_ofName (h : ofName cs = .ok code) : code.HasName := by
  unfold ofName at h
  split at h
  · cases h
  · cases h
    trivial
  · split at h
    · -- one of the named keys
      rename_i found hlookup
      cases h
      obtain ⟨front, back, hnames, -⟩ := List.lookup_eq_some_iff.mp hlookup
      exact hasName_of_mem_names (hnames ▸ List.mem_append_right front List.mem_cons_self)
    · dsimp only at h
      split at h
      · split at h
        · -- the number of a function key, which is too small to wrap around
          rename_i n hn hrange
          cases h
          have hbyte : (UInt8.ofNat n).toNat = n := by
            rw [UInt8.toNat_ofNat', Nat.mod_eq_of_lt (by omega)]
          rw [HasName, hbyte]
          exact hrange
        · cases h
      · cases h

/-- The key codes that have a name are read from it, and no others. -/
theorem ofName_name_iff : ofName code.name.toList = .ok code ↔ code.HasName := by
  refine ⟨hasName_of_ofName, fun h => ?_⟩
  cases code with
  | function n =>
    have hread : ∀ i < 13, 1 ≤ i →
        ofName ("F" ++ toString i).toList = .ok (function (.ofNat i)) := by decide +kernel
    have hn := hread n.toNat (Nat.lt_succ_of_le h.2) h.1
    rwa [UInt8.ofNat_toNat] at hn
  | char c =>
    rw [name]
    split
    · rename_i hspace
      rw [hspace]
      rfl
    · rw [String.toList_singleton]
      rfl
  | _ => rfl

/-- A name that is read has no hyphen in it, unless it is one. -/
theorem hyphen_notMem_or (h : code.HasName) :
    '-' ∉ code.name.toList ∨ code = .char '-' := by
  cases code with
  | function n =>
    have hdigits : ∀ i < 13, '-' ∉ ("F" ++ toString i).toList := by decide +kernel
    exact .inl (hdigits n.toNat (Nat.lt_succ_of_le h.2))
  | char c =>
    rw [name]
    split
    · exact .inl (by decide)
    · rw [String.toList_singleton]
      by_cases hc : c = '-'
      · exact .inr (congrArg char hc)
      · exact .inl (by simpa using Ne.symm hc)
  | _ => exact .inl (by decide)

/-- Nothing follows a hyphen in a name that is read. -/
theorem eq_nil_of_name_eq (h : code.HasName) {front back : List Char}
    (hname : code.name.toList = front ++ '-' :: back) : back = [] := by
  rcases hyphen_notMem_or h with hfree | rfl
  · exact absurd (by simp [hname]) hfree
  · have hone : ['-'] = front ++ '-' :: back := hname
    have hlength := congrArg List.length hone
    simp only [List.length_append, List.length_cons, List.length_nil] at hlength
    exact List.eq_nil_of_length_eq_zero (by omega)

theorem name_ne_nil (h : code.HasName) : code.name.toList ≠ [] := by
  intro hnil
  have hread := ofName_name_iff.mpr h
  rw [hnil] at hread
  cases hread

end KeyCode

namespace Key

variable {seen cs word rest : List Char} {whole : String} {held m : Modifiers} {k : Key}

/-! ### Cutting at a hyphen -/

/-- The reader cuts at the first hyphen, if something follows it. -/
theorem splitModifier?_append (hword : '-' ∉ word) (hrest : rest ≠ []) :
    splitModifier? seen (word ++ '-' :: rest) = some (seen.reverse ++ word, rest) := by
  induction word generalizing seen with
  | nil => simp [splitModifier?, hrest]
  | cons c word ih =>
    rw [List.mem_cons, not_or] at hword
    obtain ⟨hc, hword⟩ := hword
    rw [List.cons_append, splitModifier?, if_neg (Ne.symm hc), ih hword, List.reverse_cons,
      List.append_assoc, List.singleton_append]

theorem splitModifier?_eq_none (h : ∀ front back, cs = front ++ '-' :: back → back = []) :
    splitModifier? seen cs = none := by
  induction cs generalizing seen with
  | nil => rfl
  | cons c cs ih =>
    rw [splitModifier?]
    split
    · rename_i hc
      rw [h [] cs (by rw [hc, List.nil_append])]
      rfl
    · exact ih fun front back hcs => h (c :: front) back (by rw [hcs, List.cons_append])

/-! ### Reading -/

theorem ofNameFrom_modifier (hword : '-' ∉ word) (hm : Modifiers.ofWord? word = some m)
    (hrest : rest ≠ []) :
    ofNameFrom whole held (word ++ '-' :: rest) = ofNameFrom whole (held.union m) rest := by
  have hsplit : splitModifier? [] (word ++ '-' :: rest) = some (word, rest) :=
    splitModifier?_append hword hrest
  rw [ofNameFrom]
  split
  · rename_i hnone
    rw [hsplit] at hnone
    cases hnone
  · rename_i hsome
    rw [hsplit] at hsome
    cases hsome
    rw [hm]

theorem ofNameFrom_code (h : ∀ front back, cs = front ++ '-' :: back → back = []) :
    ofNameFrom whole held cs = (KeyCode.ofName cs).map fun code => ⟨held, code⟩ := by
  have hsplit : splitModifier? [] cs = none := splitModifier?_eq_none h
  rw [ofNameFrom]
  split
  · cases KeyCode.ofName cs <;> rfl
  · rename_i hsome
    rw [hsplit] at hsome
    cases hsome

/-- A modifier that is written if it is held is read if it is held. -/
theorem ofNameFrom_written {text : String} (htext : text.toList = word ++ ['-'])
    (hword : '-' ∉ word) (hm : Modifiers.ofWord? word = some m) (hrest : rest ≠ []) (b : Bool) :
    ofNameFrom whole held ((if b then text else "").toList ++ rest) =
      ofNameFrom whole (if b then held.union m else held) rest := by
  cases b with
  | false => rfl
  | true =>
    have hcs : text.toList ++ rest = word ++ '-' :: rest := by
      rw [htext, List.append_assoc, List.singleton_append]
    rw [if_pos rfl, if_pos rfl, hcs, ofNameFrom_modifier hword hm hrest]

/-- The modifiers that are held are read, and then the key code is. What stands behind each modifier
is not empty, since a key code's name is not, so the reader goes on behind every modifier. -/
theorem ofName_name (h : k.code.HasName) :
    ofName k.name = (KeyCode.ofName k.code.name.toList).map fun code => ⟨k.modifiers, code⟩ := by
  obtain ⟨⟨shift, control, alt⟩, code⟩ := k
  have hne : code.name.toList ≠ [] := KeyCode.name_ne_nil h
  have hcode : ∀ front back, code.name.toList = front ++ '-' :: back → back = [] :=
    fun _ _ => KeyCode.eq_nil_of_name_eq h
  have hcontrol : Modifiers.ofWord? "Ctrl".toList = some { control := true } := by decide
  have halt : Modifiers.ofWord? "Alt".toList = some { alt := true } := by decide
  have hshift : Modifiers.ofWord? "Shift".toList = some { shift := true } := by decide
  simp only [ofName, name, String.toList_append, List.append_assoc]
  rw [ofNameFrom_written (by decide) (by decide) hcontrol (by simp [hne]),
    ofNameFrom_written (by decide) (by decide) halt (by simp [hne]),
    ofNameFrom_written (by decide) (by decide) hshift hne, ofNameFrom_code hcode]
  cases shift <;> cases control <;> cases alt <;> rfl

/-- Only keys with a name are read: whatever the modifiers, the last thing read is a key code. -/
theorem hasName_of_ofNameFrom (h : ofNameFrom whole held cs = .ok k) : k.code.HasName := by
  fun_induction ofNameFrom whole held cs with
  | case1 held cs hsplit =>
    cases hcode : KeyCode.ofName cs with
    | error e =>
      rw [hcode] at h
      cases h
    | ok code =>
      rw [hcode] at h
      cases h
      exact KeyCode.hasName_of_ofName hcode
  | case2 held cs word rest hsplit m hm ih => exact ih h
  | case3 held cs word rest hsplit hm => cases h

/-- The keys that have a name are read from it, and no others. -/
theorem ofName_name_iff : ofName k.name = .ok k ↔ k.code.HasName := by
  refine ⟨hasName_of_ofNameFrom, fun h => ?_⟩
  rw [ofName_name h, KeyCode.ofName_name_iff.mpr h]
  rfl

/-- **Keys are read from their names.** Every key with a name, whatever modifiers are held, is read
from its name, and no other key is. So different keys with a name have different ones, and whatever
text a key is read from, the key's name is a text that it is read from. -/
theorem name_laws :
    (∀ k, ofName k.name = .ok k ↔ k.code.HasName) ∧
      Set.InjOn name {k | k.code.HasName} ∧
      ∀ s k, ofName s = .ok k → ofName k.name = .ok k := by
  refine ⟨fun k => ofName_name_iff, fun k hk k' hk' hname => ?_, fun s k hread => ?_⟩
  · have hread : ofName k.name = .ok k := ofName_name_iff.mpr hk
    rw [hname, ofName_name_iff.mpr hk'] at hread
    exact (Except.ok.inj hread).symm
  · exact ofName_name_iff.mpr (hasName_of_ofNameFrom hread)

/-- The hyphen is a key that is read behind a modifier's hyphen. -/
theorem name_laws_hyphen :
    ofName "C-M--" = .ok ⟨{ control := true, alt := true }, .char '-'⟩ ∧
      ofName (name ⟨{ control := true, alt := true }, .char '-'⟩) =
        .ok ⟨{ control := true, alt := true }, .char '-'⟩ := by
  have hread : ofName "C-M--" = .ok ⟨{ control := true, alt := true }, .char '-'⟩ := by cbv
  exact ⟨hread, name_laws.2.2 "C-M--" _ hread⟩

end Key

end TerminalUI
