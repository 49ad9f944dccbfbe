import TerminalUI.Proofs.Key.Names
import TerminalUI.Proofs.Text.Numerals

/-!
# The grammar of key names

A key is written as modifiers, each followed by a hyphen, and a key code. Here is the grammar of these
names on its own, without a reader: `KeyCode.Spelled` for key codes and `Key.Spelled` for keys, both
for any rule on how the number of a function key is written. What is read are the names in which the
number is one that `Number.Signed` allows, so there may be a plus sign in front of its digits.

* `KeyCode.ofName_eq_ok_iff` : which texts are read as a key code;
* `Key.ofNameFrom_eq_ok_iff` : the reader follows the grammar from any place on;
* `Key.ofName_grammar` : **what is read is what the grammar allows**, and all else is no key.
-/

namespace TerminalUI

namespace KeyCode

/-- The text spells the key code, where the number of a function key is written by the rule. -/
inductive Spelled (rule : NumberRule) : List Char → KeyCode → Prop where
  | char (c : Char) : Spelled rule [c] (.char c)
  | named {word : String} {code : KeyCode} (hmem : (word, code) ∈ names) :
    Spelled rule word.toList code
  | function {digits : List Char} {n : Nat} (hdigits : rule 10 digits n) (hlow : 1 ≤ n)
    (hhigh : n ≤ 12) : Spelled rule ('F' :: digits) (.function (.ofNat n))

variable {rule : NumberRule} {cs digits : List Char} {code : KeyCode} {n : Nat}

theorem head?_ne_of_mem_names : ∀ e ∈ names, e.1.toList.head? ≠ some 'F' := by decide

theorem ofName_of_mem_names : ∀ e ∈ names, ofName e.1.toList = .ok e.2 := by decide

theorem lookup_names_function (digits : List Char) :
    names.lookup (String.ofList ('F' :: digits)) = none := by
  rw [List.lookup_eq_none_iff]
  intro e he
  have hne : String.ofList ('F' :: digits) ≠ e.1 := by
    intro heq
    refine head?_ne_of_mem_names e he ?_
    rw [← heq, String.toList_ofList, List.head?_cons]
  simpa using hne

theorem ofName_function (hne : digits ≠ []) :
    ofName ('F' :: digits) = match Number.byte? 10 digits with
      | some n =>
        if 1 ≤ n ∧ n ≤ 12 then .ok (.function (.ofNat n))
        else .error (.parseKey ("unknown key " ++ quoted (String.ofList ('F' :: digits))))
      | none => .error (.parseKey ("unknown key " ++ quoted (String.ofList ('F' :: digits)))) := by
  obtain ⟨d, ds, rfl⟩ := List.exists_cons_of_ne_nil hne
  rw [ofName]
  · generalize hlookup : names.lookup (String.ofList ('F' :: d :: ds)) = found
    rw [lookup_names_function] at hlookup
    subst hlookup
    rfl
  · simp
  · simp

/-- A text that is read is a character, a listed name, or `F` and a number of a function key. -/
theorem ofName_cases (h : ofName cs = .ok code) :
    (∃ c, cs = [c] ∧ code = .char c) ∨ (String.ofList cs, code) ∈ names ∨
      ∃ digits n, cs = 'F' :: digits ∧ Number.byte? 10 digits = some n ∧ (1 ≤ n ∧ n ≤ 12) ∧
        code = .function (.ofNat n) := by
  unfold ofName at h
  split at h
  · cases h
  · cases h
    exact .inl ⟨_, rfl, rfl⟩
  · split at h
    · rename_i found hlookup
      cases h
      obtain ⟨front, back, hnames, -⟩ := List.lookup_eq_some_iff.mp hlookup
      exact .inr (.inl (hnames ▸ List.mem_append_right front List.mem_cons_self))
    · dsimp only at h
      split at h
      · rename_i n hn
        split at hn
        · split at h
          · rename_i hrange
            cases h
            exact .inr (.inr ⟨_, n, rfl, hn, hrange, rfl⟩)
          · cases h
        · cases hn
      · cases h

/-- A key code is read from the texts that spell it, and from no others. -/
theorem ofName_eq_ok_iff : ofName cs = .ok code ↔ Spelled Number.Signed cs code := by
  constructor
  · intro h
    rcases ofName_cases h with ⟨c, rfl, rfl⟩ | hmem | ⟨digits, n, rfl, hn, hrange, rfl⟩
    · exact .char c
    · have hnamed : Spelled Number.Signed (String.ofList cs).toList code := .named hmem
      rwa [String.toList_ofList] at hnamed
    · exact .function ((Number.byte?_eq_some_iff (by decide)).1 hn).1 hrange.1 hrange.2
  · intro h
    cases h with
    | char c => rfl
    | named hmem => exact ofName_of_mem_names _ hmem
    | @function digits n hdigits hlow hhigh =>
      have hn : Number.byte? 10 digits = some n :=
        (Number.byte?_eq_some_iff (by decide)).2 ⟨hdigits, by omega⟩
      have hne : digits ≠ [] := by
        rintro rfl
        cases hn
      rw [ofName_function hne, hn]
      exact if_pos ⟨hlow, hhigh⟩

/-- What is spelled with numbers of one rule is spelled with those of a wider one. -/
theorem Spelled.mono {rule' : NumberRule} (h : Spelled rule cs code)
    (hrule : ∀ digits n, rule 10 digits n → rule' 10 digits n) : Spelled rule' cs code := by
  cases h with
  | char c => exact .char c
  | named hmem => exact .named hmem
  | function hdigits hlow hhigh => exact .function (hrule _ _ hdigits) hlow hhigh

theorem hyphen_notMem_of_mem_names : ∀ e ∈ names, '-' ∉ e.1.toList := by decide

/-- Nothing follows a hyphen in the spelling of a key code. -/
theorem Spelled.eq_nil (h : Spelled Number.Signed cs code) {front back : List Char}
    (hcs : cs = front ++ '-' :: back) : back = [] := by
  have hfree (hnot : '-' ∉ cs) : back = [] := absurd (by simp [hcs]) hnot
  cases h with
  | char c =>
    have hlength := congrArg List.length hcs
    simp only [List.length_append, List.length_cons, List.length_nil] at hlength
    exact List.eq_nil_of_length_eq_zero (by omega)
  | named hmem => exact hfree (hyphen_notMem_of_mem_names _ hmem)
  | function hdigits =>
    have hdigits := Number.hyphen_notMem_of_signed (by decide) hdigits
    exact hfree (by simp [hdigits])

theorem Spelled.of_function {d : Char} (h : Spelled rule ('F' :: d :: digits) code) :
    ∃ n, rule 10 (d :: digits) n := by
  generalize hcs : 'F' :: d :: digits = cs at h
  cases h with
  | char c => cases hcs
  | named hmem => exact absurd (hcs ▸ rfl) (head?_ne_of_mem_names _ hmem)
  | function hdigits =>
    cases hcs
    exact ⟨_, hdigits⟩

/-- Without a plus sign, there is none in front of the digits. -/
theorem Spelled.denotes (h : Spelled Number.Signed cs code) (hplus : '+' ∉ cs) :
    Spelled Number.Denotes cs code := by
  cases h with
  | char c => exact .char c
  | named hmem => exact .named hmem
  | function hdigits hlow hhigh =>
    exact .function (Number.denotes_of_signed hdigits (by simp_all)) hlow hhigh

theorem exists_parseKey_of_ofName {e : Error} (h : ofName cs = .error e) :
    ∃ message, e = .parseKey message := by
  unfold ofName at h
  split at h
  · cases h
    exact ⟨_, rfl⟩
  · cases h
  · split at h
    · cases h
    · dsimp only at h
      split at h
      · split at h <;> cases h
        exact ⟨_, rfl⟩
      · cases h
        exact ⟨_, rfl⟩

end KeyCode

namespace Modifiers

/-- The words for modifiers. -/
def words : List (String × Modifiers) :=
  [("Ctrl", { control := true }), ("C", { control := true }), ("Alt", { alt := true }),
    ("A", { alt := true }), ("M", { alt := true }), ("Shift", { shift := true }),
    ("S", { shift := true })]

theorem ofWord?_of_mem_words : ∀ e ∈ words, ofWord? e.1.toList = some e.2 := by decide

theorem hyphen_notMem_of_mem_words : ∀ e ∈ words, '-' ∉ e.1.toList := by decide

theorem mem_words_of_ofWord? {word : List Char} {m : Modifiers} (h : ofWord? word = some m) :
    (String.ofList word, m) ∈ words := by
  unfold ofWord? at h
  split at h
  case h_8 => cases h
  all_goals
    rename_i hword
    cases h
    rw [hword]
    decide

theorem union_empty (m : Modifiers) : m.union {} = m := by
  cases m
  simp [union]

theorem empty_union (m : Modifiers) : union {} m = m := by
  cases m
  simp [union]

theorem union_assoc (m n o : Modifiers) : (m.union n).union o = m.union (n.union o) := by
  simp [union, Bool.or_assoc]

end Modifiers

namespace Key

/-- The text spells the key: words for modifiers, each with a hyphen behind it, and a key code. All the
modifiers are held. -/
inductive Spelled (rule : NumberRule) : List Char → Key → Prop where
  | code {cs : List Char} {code : KeyCode} (hcode : code.Spelled rule cs) :
    Spelled rule cs ⟨{}, code⟩
  | modifier {word : String} {m : Modifiers} {rest : List Char} {k : Key}
    (hmem : (word, m) ∈ Modifiers.words) (hrest : Spelled rule rest k) :
    Spelled rule (word.toList ++ '-' :: rest) ⟨m.union k.modifiers, k.code⟩

variable {rule : NumberRule} {seen cs word rest : List Char} {whole : String} {held : Modifiers}
  {k : Key} {e : Error}

theorem Spelled.mono {rule' : NumberRule} (h : Spelled rule cs k)
    (hrule : ∀ digits n, rule 10 digits n → rule' 10 digits n) : Spelled rule' cs k := by
  induction h with
  | code hcode => exact .code (hcode.mono hrule)
  | modifier hmem _ ih => exact .modifier hmem ih

theorem Spelled.exists_code (h : Spelled rule cs k) (hhyphen : '-' ∉ cs) :
    ∃ code : KeyCode, code.Spelled rule cs := by
  cases h with
  | code hcode => exact ⟨_, hcode⟩
  | modifier => simp at hhyphen

theorem Spelled.denotes (h : Spelled Number.Signed cs k) (hplus : '+' ∉ cs) :
    Spelled Number.Denotes cs k := by
  induction h with
  | code hcode => exact .code (hcode.denotes hplus)
  | modifier hmem _ ih =>
    refine .modifier hmem (ih fun hrest => hplus ?_)
    exact List.mem_append_right _ (List.mem_cons_of_mem _ hrest)

theorem Spelled.ne_nil (h : Spelled Number.Signed cs k) : cs ≠ [] := by
  rintro rfl
  generalize hnil : ([] : List Char) = cs at h
  cases h with
  | code hcode =>
    subst hnil
    have hread := KeyCode.ofName_eq_ok_iff.2 hcode
    cases hread
  | modifier => simp at hnil

/-! ### The reader -/

theorem append_of_splitModifier? (h : splitModifier? seen cs = some (word, rest)) :
    seen.reverse ++ cs = word ++ '-' :: rest := by
  induction cs generalizing seen with
  | nil => cases h
  | cons c cs ih =>
    rw [splitModifier?] at h
    split at h
    · rename_i hc
      split at h
      · cases h
      · cases h
        rw [hc]
    · simpa using ih h

/-- What is read after some modifiers is spelled there, and those modifiers are held besides. -/
theorem exists_spelled_of_ofNameFrom (h : ofNameFrom whole held cs = .ok k) :
    ∃ k', Spelled Number.Signed cs k' ∧ k = ⟨held.union k'.modifiers, k'.code⟩ := by
  fun_induction ofNameFrom whole held cs with
  | case1 held cs hsplit =>
    cases hcode : KeyCode.ofName cs with
    | error e =>
      rw [hcode] at h
      cases h
    | ok code =>
      rw [hcode] at h
      cases h
      refine ⟨⟨{}, code⟩, .code (KeyCode.ofName_eq_ok_iff.1 hcode), ?_⟩
      rw [Modifiers.union_empty]
  | case2 held cs word rest hsplit m hm ih =>
    obtain ⟨k', hspelled, rfl⟩ := ih h
    have hcs : cs = word ++ '-' :: rest := append_of_splitModifier? hsplit
    refine ⟨⟨m.union k'.modifiers, k'.code⟩, ?_, ?_⟩
    · simpa [hcs] using Spelled.modifier (Modifiers.mem_words_of_ofWord? hm) hspelled
    · rw [Modifiers.union_assoc]
  | case3 held cs word rest hsplit hm => cases h

/-- What is spelled is read, whatever modifiers were read before. -/
theorem Spelled.ofNameFrom_eq (h : Spelled Number.Signed cs k) (whole : String)
    (held : Modifiers) : ofNameFrom whole held cs = .ok ⟨held.union k.modifiers, k.code⟩ := by
  induction h generalizing held with
  | code hcode =>
    rw [ofNameFrom_code fun _ _ => hcode.eq_nil, KeyCode.ofName_eq_ok_iff.2 hcode,
      Modifiers.union_empty]
    rfl
  | modifier hmem hrest ih =>
    rw [ofNameFrom_modifier (Modifiers.hyphen_notMem_of_mem_words _ hmem)
      (Modifiers.ofWord?_of_mem_words _ hmem) hrest.ne_nil, ih, Modifiers.union_assoc]

theorem exists_parseKey_of_ofNameFrom (h : ofNameFrom whole held cs = .error e) :
    ∃ message, e = .parseKey message := by
  fun_induction ofNameFrom whole held cs with
  | case1 held cs hsplit =>
    cases hcode : KeyCode.ofName cs with
    | error e' =>
      rw [hcode] at h
      cases h
      exact KeyCode.exists_parseKey_of_ofName hcode
    | ok code =>
      rw [hcode] at h
      cases h
  | case2 held cs word rest hsplit m hm ih => exact ih h
  | case3 held cs word rest hsplit hm =>
    cases h
    exact ⟨_, rfl⟩

/-- The keys that are read are those that are spelled, where a plus sign may stand in front of the
digits of a function key. -/
theorem ofName_eq_ok_iff {s : String} : ofName s = .ok k ↔ Spelled Number.Signed s.toList k := by
  constructor
  · intro h
    obtain ⟨k', hspelled, rfl⟩ := exists_spelled_of_ofNameFrom h
    rwa [Modifiers.empty_union]
  · intro h
    rw [ofName, h.ofNameFrom_eq, Modifiers.empty_union]

/-- **What is read is what the grammar allows.** A text is read as a key if it spells it, where a plus
sign may stand in front of the digits of a function key, and any other text is reported as no key. A
text without a plus sign is read as a key exactly if it spells it with digits only. -/
theorem ofName_grammar (s : String) :
    (∀ k, ofName s = .ok k ↔ Spelled Number.Signed s.toList k) ∧
      ((∀ k, ¬ Spelled Number.Signed s.toList k) →
        ∃ message, ofName s = .error (.parseKey message)) ∧
      ('+' ∉ s.toList → ∀ k, ofName s = .ok k ↔ Spelled Number.Denotes s.toList k) := by
  refine ⟨fun k => ofName_eq_ok_iff, fun hnone => ?_, fun hplus k => ?_⟩
  · cases hread : ofName s with
    | ok k => exact absurd (ofName_eq_ok_iff.1 hread) (hnone k)
    | error e =>
      obtain ⟨message, rfl⟩ := exists_parseKey_of_ofNameFrom hread
      exact ⟨message, rfl⟩
  · rw [ofName_eq_ok_iff]
    exact ⟨fun h => h.denotes hplus, fun h => h.mono fun _ _ => .inl⟩

/-- The text spells no key and is no key, and the other one is a key with two modifiers. -/
theorem ofName_grammar_hyper :
    ((∀ k, ¬ Spelled Number.Signed "Hyper-x".toList k) ∧
      ∃ message, ofName "Hyper-x" = .error (.parseKey message)) ∧
    '+' ∉ "M-Ctrl-F012".toList ∧
      Spelled Number.Denotes "M-Ctrl-F012".toList
        ⟨{ control := true, alt := true }, .function 12⟩ := by
  have hnone : ∀ k, ¬ Spelled Number.Signed "Hyper-x".toList k := by
    intro k hspelled
    have hno : (ofName "Hyper-x").isOk = false := by decide +kernel
    rw [ofName_eq_ok_iff.2 hspelled] at hno
    cases hno
  have hplus : '+' ∉ "M-Ctrl-F012".toList := by decide
  exact ⟨⟨hnone, (ofName_grammar "Hyper-x").2.1 hnone⟩, hplus,
    ((ofName_grammar "M-Ctrl-F012").2.2 hplus _).1 (by decide +kernel)⟩

/-- **A number with a plus sign is read**, though it does not consist of digits. -/
theorem ofName_plus_sign :
    ofName "F+5" = .ok (.bare (.function 5)) ∧
      ¬ ∃ k, Spelled Number.Denotes "F+5".toList k := by
  refine ⟨by decide +kernel, ?_⟩
  rintro ⟨k, hspelled⟩
  obtain ⟨code, hcode⟩ := hspelled.exists_code (by decide)
  obtain ⟨n, hn⟩ := hcode.of_function
  exact absurd (Number.le_toNat_of_denotes (by decide) hn '+' (by decide)) (by decide)

end Key

end TerminalUI
