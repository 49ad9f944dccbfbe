import Mathlib.Data.List.Forall2
import Mathlib.Data.List.Induction
import TerminalUI.Proofs.Terminal.Screen
import TerminalUI.Proofs.Text.Numerals
import TerminalUI.Style.Words

/-!
# The grammar of styles

A style is written as words between blanks. Here is the grammar of these texts on its own, without a
reader: `Color.Spelled` for the names of colors, `Style.Word.Spelled` for the words and `Style.Spelled`
for whole texts, all for any rule on how numbers are written. `Style.Describes` says what style some
words give. What is read are the texts in which the numbers are those that `Number.Signed` allows, so
there may be a plus sign in front of the digits of a color.

* `Color.ofName?_eq_some_iff` : which names are read as a color;
* `Style.addWord_eq_ok_iff` : which words are read, and what they add;
* `Style.ofWords_grammar` : **what is read is what the grammar allows**, and in all other texts a word
  that is not allowed is reported.
-/

namespace TerminalUI

/-! ### Words -/

namespace Pieces

theorem wordsFrom_eq (word cs : List Char) :
    wordsFrom word cs = (List.splitOnPPrepend isBlank cs word).filter (· ≠ []) := by
  induction cs generalizing word with
  | nil => cases word <;> simp [wordsFrom]
  | cons c cs ih =>
    rw [wordsFrom, List.splitOnPPrepend_cons_eq_if, List.splitOnP_eq_splitOnPPrepend]
    split
    · cases word <;> simp [ih]
    · exact ih (c :: word)

/-- What stands in a piece stands in the text. -/
theorem mem_of_mem_splitOnPPrepend {p : Char → Bool} {piece cs word : List Char} {c : Char}
    (hpiece : piece ∈ List.splitOnPPrepend p cs word) (hc : c ∈ piece) : c ∈ word ∨ c ∈ cs := by
  induction cs generalizing word with
  | nil =>
    rw [List.splitOnPPrepend_nil, List.mem_singleton] at hpiece
    rw [hpiece, List.mem_reverse] at hc
    exact .inl hc
  | cons d cs ih =>
    rw [List.splitOnPPrepend_cons_eq_if, List.splitOnP_eq_splitOnPPrepend] at hpiece
    split at hpiece
    · rcases List.mem_cons.1 hpiece with rfl | hpiece
      · exact .inl (List.mem_reverse.1 hc)
      · exact .inr (List.mem_cons_of_mem _ ((ih hpiece).resolve_left List.not_mem_nil))
    · simpa [or_assoc, or_comm, or_left_comm] using ih hpiece

end Pieces

/-- The words are the pieces between blanks that hold something. -/
theorem words_eq (s : String) :
    words s = ((s.toList.splitOnP isBlank).filter (· ≠ [])).map String.ofList := by
  rw [words, Pieces.wordsFrom_eq, List.splitOnP_eq_splitOnPPrepend]

/-! ### Colors -/

namespace Color

/-- The text spells the color: by its name, by its number in the palette or by two digits for each
channel, where numbers are written by the rule. -/
inductive Spelled (rule : NumberRule) : List Char → Color → Prop where
  | named {word : String} {color : Color} (hmem : (word, color) ∈ names) :
    Spelled rule word.toList color
  | palette {digits : List Char} {n : Nat} (hdigits : rule 10 digits n) (hle : n ≤ 255) :
    Spelled rule ('c' :: 'o' :: 'l' :: 'o' :: 'r' :: digits) (.palette (.ofNat n))
  | direct {a b c d e f : Char} {red green blue : Nat} (hred : rule 16 [a, b] red)
    (hgreen : rule 16 [c, d] green) (hblue : rule 16 [e, f] blue) :
    Spelled rule ['#', a, b, c, d, e, f] (.rgb (.ofNat red) (.ofNat green) (.ofNat blue))

variable {rule : NumberRule} {cs digits : List Char} {name : String} {color : Color}

theorem ofName?_of_mem_names : ∀ e ∈ names, ofName? e.1 = some e.2 := by decide

theorem head?_of_mem_names : ∀ e ∈ names, e.1.toList.head? ≠ some '#' ∧
    e.1.toList.take 5 ≠ ['c', 'o', 'l', 'o', 'r'] := by
  decide

theorem lookup_names_eq_none (h : ∀ e ∈ names, e.1.toList ≠ name.toList) :
    names.lookup name = none := by
  rw [List.lookup_eq_none_iff]
  intro e he
  have hne : name ≠ e.1 := fun heq => h e he (by rw [heq])
  simpa using hne

theorem ofName?_hexadecimal (digits : List Char) :
    ofName? (String.ofList ('#' :: digits)) = ofHexadecimal? digits := by
  rw [ofName?, lookup_names_eq_none fun e he heq => ?_]
  · simp
  · exact (head?_of_mem_names e he).1 (by simp [heq])

theorem ofName?_palette (digits : List Char) :
    ofName? (String.ofList ('c' :: 'o' :: 'l' :: 'o' :: 'r' :: digits)) =
      (Number.byte? 10 digits).map fun n => .palette (.ofNat n) := by
  rw [ofName?, lookup_names_eq_none fun e he heq => ?_]
  · simp
  · exact (head?_of_mem_names e he).2 (by simp [heq])

theorem ofHexadecimal?_eq_some_iff : ofHexadecimal? digits = some color ↔
    ∃ a b c d e f red green blue, digits = [a, b, c, d, e, f] ∧ Number.Signed 16 [a, b] red ∧
      Number.Signed 16 [c, d] green ∧ Number.Signed 16 [e, f] blue ∧
      color = .rgb (.ofNat red) (.ofNat green) (.ofNat blue) := by
  have hbyte (c d : Char) (n : Nat) :
      Number.byte? 16 [c, d] = some n ↔ Number.Signed 16 [c, d] n := by
    rw [Number.byte?_eq_some_iff (by decide), and_iff_left_iff_imp]
    exact fun h => Nat.le_of_lt_succ (Number.signed_lt h (by decide))
  unfold ofHexadecimal?
  split
  · rename_i a b c d e f
    simp only [Option.bind_eq_bind, Option.bind_eq_some_iff, hbyte]
    constructor
    · rintro ⟨red, hred, green, hgreen, blue, hblue, heq⟩
      cases heq
      exact ⟨a, b, c, d, e, f, red, green, blue, rfl, hred, hgreen, hblue, rfl⟩
    · rintro ⟨_, _, _, _, _, _, red, green, blue, heq, hred, hgreen, hblue, rfl⟩
      cases heq
      exact ⟨red, hred, green, hgreen, blue, hblue, rfl⟩
  · rename_i hnot
    refine ⟨fun h => (nomatch h), ?_⟩
    rintro ⟨a, b, c, d, e, f, -, -, -, rfl, -⟩
    exact absurd rfl (hnot a b c d e f)

/-- A color is read from the names that spell it, and from no others. -/
theorem ofName?_eq_some_iff : ofName? name = some color ↔ Spelled Number.Signed name.toList color := by
  constructor
  · intro h
    unfold ofName? at h
    split at h
    · rename_i found hlookup
      cases h
      obtain ⟨front, back, hnames, -⟩ := List.lookup_eq_some_iff.mp hlookup
      exact .named (hnames ▸ List.mem_append_right front List.mem_cons_self)
    · split at h
      · rename_i digits hname
        obtain ⟨a, b, c, d, e, f, red, green, blue, rfl, hred, hgreen, hblue, rfl⟩ :=
          ofHexadecimal?_eq_some_iff.1 h
        rw [hname]
        exact .direct hred hgreen hblue
      · rename_i digits hname
        obtain ⟨n, hn, rfl⟩ := Option.map_eq_some_iff.1 h
        obtain ⟨hdigits, hle⟩ := (Number.byte?_eq_some_iff (by decide)).1 hn
        rw [hname]
        exact .palette hdigits hle
      · cases h
  · intro h
    rw [← String.ofList_toList (s := name)]
    generalize name.toList = cs at h
    cases h with
    | named hmem => simpa using ofName?_of_mem_names _ hmem
    | palette hdigits hle =>
      rw [ofName?_palette, (Number.byte?_eq_some_iff (by decide)).2 ⟨hdigits, hle⟩]
      rfl
    | direct hred hgreen hblue =>
      rw [ofName?_hexadecimal, ofHexadecimal?_eq_some_iff]
      exact ⟨_, _, _, _, _, _, _, _, _, rfl, hred, hgreen, hblue, rfl⟩

/-- What is spelled with numbers of one rule is spelled with those of a wider one. -/
theorem Spelled.mono {rule' : NumberRule} (h : Spelled rule cs color)
    (hrule : ∀ radix digits n, rule radix digits n → rule' radix digits n) :
    Spelled rule' cs color := by
  cases h with
  | named hmem => exact .named hmem
  | palette hdigits hle => exact .palette (hrule _ _ _ hdigits) hle
  | direct hred hgreen hblue => exact .direct (hrule _ _ _ hred) (hrule _ _ _ hgreen) (hrule _ _ _ hblue)

theorem Spelled.denotes (h : Spelled Number.Signed cs color) (hplus : '+' ∉ cs) :
    Spelled Number.Denotes cs color := by
  have hdenotes {radix n : Nat} {digits : List Char} (h : Number.Signed radix digits n)
      (hsub : ∀ c ∈ digits, c ∈ cs) : Number.Denotes radix digits n :=
    Number.denotes_of_signed h fun hmem => hplus (hsub _ hmem)
  cases h with
  | named hmem => exact .named hmem
  | palette hdigits hle => exact .palette (hdenotes hdigits (by simp +contextual)) hle
  | direct hred hgreen hblue =>
    exact .direct (hdenotes hred (by simp)) (hdenotes hgreen (by simp)) (hdenotes hblue (by simp))

end Color

namespace Style

/-! ### Single words -/

/-- What a word of a style asks for. -/
inductive Word where
  | attributed (a : Attribute)
  | foreground (color : Color)
  | background (color : Color)
  deriving DecidableEq, Repr

/-- The words for attributes. -/
def attributeWords : List (String × Attribute) :=
  [("bold", .bold), ("dim", .dim), ("italic", .italic), ("underline", .underline),
    ("underlined", .underline), ("blink", .blink), ("inverse", .inverse)]

/-- The text spells the word: as an attribute, or as a color with what it is for in front, where a
color alone is for the foreground. -/
inductive Word.Spelled (rule : NumberRule) : List Char → Word → Prop where
  | attributed {word : String} {a : Attribute} (hmem : (word, a) ∈ attributeWords) :
    Spelled rule word.toList (.attributed a)
  | color {name : List Char} {color : Color} (hname : color.Spelled rule name) :
    Spelled rule name (.foreground color)
  | foreground {name : List Char} {color : Color} (hname : color.Spelled rule name) :
    Spelled rule ('f' :: 'g' :: '-' :: name) (.foreground color)
  | background {name : List Char} {color : Color} (hname : color.Spelled rule name) :
    Spelled rule ('b' :: 'g' :: '-' :: name) (.background color)

/-- The style with what a word asks for. -/
def Word.addTo (style : Style) : Word → Style
  | .attributed a => style.withAttribute a
  | .foreground color => style.withForeground color
  | .background color => style.withBackground color

variable {rule : NumberRule} {cs : List Char} {word : String} {w : Word} {style style' : Style}
  {color : Color}

theorem attributeOfName?_of_mem : ∀ e ∈ attributeWords, attributeOfName? e.1 = some e.2 := by
  decide

theorem mem_attributeWords {a : Attribute} (h : attributeOfName? word = some a) :
    (word, a) ∈ attributeWords := by
  unfold attributeOfName? at h
  split at h <;> cases h <;> decide

theorem start_attributeWords : ∀ e ∈ attributeWords, e.1.toList.head? ≠ some '#' ∧
    e.1.toList.take 2 ≠ ['c', 'o'] ∧ e.1.toList.take 2 ≠ ['b', 'g'] ∧
    e.1.toList.take 2 ≠ ['f', 'g'] := by
  decide

theorem start_names : ∀ e ∈ Color.names, attributeOfName? e.1 = none ∧
    e.1.toList.take 2 ≠ ['b', 'g'] ∧ e.1.toList.take 2 ≠ ['f', 'g'] := by
  decide

theorem attributeOfName?_eq_none (h : ∀ e ∈ attributeWords, e.1 ≠ word) :
    attributeOfName? word = none :=
  Option.eq_none_iff_forall_ne_some.2 fun _ ha => h _ (mem_attributeWords ha) rfl

theorem attributeOfName?_prefix {x : Char} (hx : x = 'b' ∨ x = 'f') (name : List Char) :
    attributeOfName? (String.ofList (x :: 'g' :: '-' :: name)) = none := by
  refine attributeOfName?_eq_none fun e he heq => ?_
  obtain ⟨-, -, hb, hf⟩ := start_attributeWords e he
  rcases hx with rfl | rfl
  · exact hb (by simp [heq])
  · exact hf (by simp [heq])

/-- The names of colors are not those of attributes and have nothing in front. -/
theorem attributeOfName?_color (h : color.Spelled rule cs) :
    attributeOfName? (String.ofList cs) = none ∧ cs.take 2 ≠ ['b', 'g'] ∧
      cs.take 2 ≠ ['f', 'g'] := by
  cases h with
  | named hmem => simpa using start_names _ hmem
  | palette =>
    refine ⟨attributeOfName?_eq_none fun e he heq => ?_, by simp, by simp⟩
    exact (start_attributeWords e he).2.1 (by simp [heq])
  | direct =>
    refine ⟨attributeOfName?_eq_none fun e he heq => ?_, by simp, by simp⟩
    exact (start_attributeWords e he).1 (by simp [heq])

theorem addWord_bare (hnone : attributeOfName? word = none)
    (hb : word.toList.take 2 ≠ ['b', 'g']) (hf : word.toList.take 2 ≠ ['f', 'g'])
    (hcolor : Color.ofName? word = some color) :
    addWord style word = .ok (style.withForeground color) := by
  simp only [addWord, hnone]
  split
  case h_1 s hs =>
    split at hs
    · simp_all
    · simp_all
    · rw [hcolor] at hs
      cases hs
      rfl
  case h_2 hs =>
    split at hs
    · simp_all
    · simp_all
    · rw [hcolor] at hs
      cases hs

/-- A word is read if it is spelled, and adds what it asks for. -/
theorem addWord_eq_ok_iff : addWord style word = .ok style' ↔
    ∃ w : Word, w.Spelled Number.Signed word.toList ∧ style' = w.addTo style := by
  constructor
  · intro h
    unfold addWord at h
    split at h
    · rename_i a ha
      cases h
      exact ⟨.attributed a, .attributed (mem_attributeWords ha), rfl⟩
    · dsimp only at h
      split at h
      · rename_i s hs
        cases h
        split at hs
        · rename_i name hname
          obtain ⟨color, hcolor, rfl⟩ := Option.map_eq_some_iff.1 hs
          rw [hname]
          have hspelled := Color.ofName?_eq_some_iff.1 hcolor
          exact ⟨.background color, .background (by simpa using hspelled), rfl⟩
        · rename_i name hname
          obtain ⟨color, hcolor, rfl⟩ := Option.map_eq_some_iff.1 hs
          rw [hname]
          have hspelled := Color.ofName?_eq_some_iff.1 hcolor
          exact ⟨.foreground color, .foreground (by simpa using hspelled), rfl⟩
        · obtain ⟨color, hcolor, rfl⟩ := Option.map_eq_some_iff.1 hs
          exact ⟨.foreground color, .color (Color.ofName?_eq_some_iff.1 hcolor), rfl⟩
      · cases h
  · rintro ⟨w, hspelled, rfl⟩
    rw [← String.ofList_toList (s := word)]
    generalize word.toList = cs at hspelled
    have hread {name : List Char} {color : Color} (hname : color.Spelled Number.Signed name) :
        Color.ofName? (String.ofList name) = some color :=
      Color.ofName?_eq_some_iff.2 (by simpa using hname)
    cases hspelled with
    | attributed hmem =>
      rw [addWord, String.ofList_toList, attributeOfName?_of_mem _ hmem]
      rfl
    | @color _ color hname =>
      obtain ⟨hnone, hb, hf⟩ := attributeOfName?_color hname
      exact addWord_bare hnone (by simpa using hb) (by simpa using hf) (hread hname)
    | foreground hname =>
      rw [addWord, attributeOfName?_prefix (.inr rfl), String.toList_ofList]
      simp only [hread hname, Option.map_some, Word.addTo]
    | background hname =>
      rw [addWord, attributeOfName?_prefix (.inl rfl), String.toList_ofList]
      simp only [hread hname, Option.map_some, Word.addTo]

theorem Word.Spelled.mono {rule' : NumberRule} (h : Word.Spelled rule cs w)
    (hrule : ∀ radix digits n, rule radix digits n → rule' radix digits n) :
    Word.Spelled rule' cs w := by
  cases h with
  | attributed hmem => exact .attributed hmem
  | color hname => exact .color (hname.mono hrule)
  | foreground hname => exact .foreground (hname.mono hrule)
  | background hname => exact .background (hname.mono hrule)

theorem Word.Spelled.denotes (h : Word.Spelled Number.Signed cs w) (hplus : '+' ∉ cs) :
    Word.Spelled Number.Denotes cs w := by
  cases h with
  | attributed hmem => exact .attributed hmem
  | color hname => exact .color (hname.denotes hplus)
  | foreground hname => exact .foreground (hname.denotes (by simp_all))
  | background hname => exact .background (hname.denotes (by simp_all))

/-- A word that is not spelled is reported. -/
theorem addWord_eq_error (style : Style) (h : ∀ w : Word, ¬ w.Spelled Number.Signed word.toList) :
    addWord style word = .error (.parseStyle ("unknown styling " ++ quoted word)) := by
  have hnot (style' : Style) : addWord style word ≠ .ok style' := fun hok =>
    let ⟨w, hw, _⟩ := addWord_eq_ok_iff.1 hok
    h w hw
  generalize hread : addWord style word = read at hnot
  unfold addWord at hread
  split at hread
  · exact absurd hread.symm (hnot _)
  · dsimp only at hread
    split at hread
    · exact absurd hread.symm (hnot _)
    · exact hread.symm

theorem Word.Spelled.of_direct {digits : List Char} (h : Word.Spelled rule ('#' :: digits) w) :
    ∃ n, rule 16 (digits.take 2) n := by
  generalize hcs : '#' :: digits = cs at h
  cases h with
  | attributed hmem => exact absurd (hcs ▸ rfl) (start_attributeWords _ hmem).1
  | color hname =>
    cases hname with
    | named hmem => exact absurd (hcs ▸ rfl) (Color.head?_of_mem_names _ hmem).1
    | palette => cases hcs
    | direct hred =>
      cases hcs
      exact ⟨_, hred⟩
  | foreground => cases hcs
  | background => cases hcs

/-! ### Whole texts -/

/-- The foreground that a word asks for. -/
def Word.foreground? : Word → Option Color
  | .foreground color => some color
  | _ => none

/-- The background that a word asks for. -/
def Word.background? : Word → Option Color
  | .background color => some color
  | _ => none

/-- The style has the last foreground and the last background that the words ask for, and all their
attributes. -/
structure Describes (ws : List Word) (style : Style) : Prop where
  foreground : style.foreground = (ws.filterMap Word.foreground?).getLast?
  background : style.background = (ws.filterMap Word.background?).getLast?
  attributes : ∀ a, style.attributes.contains a = true ↔ .attributed a ∈ ws

/-- The pieces of the text between blanks spell the words, those that are empty left out. -/
def Spelled (rule : NumberRule) (s : String) (ws : List Word) : Prop :=
  List.Forall₂ (Word.Spelled rule) ((s.toList.splitOnP isBlank).filter (· ≠ [])) ws

variable {ws : List Word} {s : String}

theorem Describes.nil : Describes [] plain := by
  refine ⟨rfl, rfl, fun a => ?_⟩
  cases a <;> simp [plain, AttributeSet.contains]

/-- One more word is layered on those before. -/
theorem Describes.concat (h : Describes ws style) (w : Word) :
    Describes (ws ++ [w]) (w.addTo style) := by
  obtain ⟨hforeground, hbackground, hattributes⟩ := h
  cases w with
  | attributed b =>
    refine ⟨?_, ?_, fun a => ?_⟩
    · simpa [Word.addTo, withAttribute, Word.foreground?] using hforeground
    · simpa [Word.addTo, withAttribute, Word.background?] using hbackground
    · simp [Word.addTo, withAttribute, AttributeSet.contains_insert, hattributes, @eq_comm _ b]
  | foreground color =>
    refine ⟨?_, ?_, fun a => ?_⟩
    · simp [Word.addTo, withForeground, Word.foreground?]
    · simpa [Word.addTo, withForeground, Word.background?] using hbackground
    · simpa [Word.addTo, withForeground] using hattributes a
  | background color =>
    refine ⟨?_, ?_, fun a => ?_⟩
    · simpa [Word.addTo, withBackground, Word.foreground?] using hforeground
    · simp [Word.addTo, withBackground, Word.background?]
    · simpa [Word.addTo, withBackground] using hattributes a

theorem describes_foldl (ws : List Word) : Describes ws (ws.foldl Word.addTo plain) := by
  induction ws using List.reverseRecOn with
  | nil => exact Describes.nil
  | append_singleton ws w ih =>
    rw [List.foldl_append]
    exact ih.concat w

/-- Words describe one style. -/
theorem Describes.eq (h : Describes ws style) (h' : Describes ws style') : style = style' := by
  cases style
  cases style'
  have hattributes := AttributeSet.ext_contains fun a =>
    Bool.eq_iff_iff.2 ((h.attributes a).trans (h'.attributes a).symm)
  rw [mk.injEq]
  exact ⟨h.foreground.trans h'.foreground.symm, h.background.trans h'.background.symm, hattributes⟩

theorem foldlM_addWord_eq_ok_iff {texts : List (List Char)} :
    (texts.map String.ofList).foldlM addWord style = .ok style' ↔
      ∃ ws, List.Forall₂ (Word.Spelled Number.Signed) texts ws ∧ style' = ws.foldl Word.addTo style := by
  induction texts generalizing style with
  | nil => simp [pure, Except.pure, eq_comm]
  | cons text texts ih =>
    rw [List.map_cons, List.foldlM_cons]
    constructor
    · intro h
      cases hadd : addWord style (String.ofList text) with
      | error e =>
        rw [hadd] at h
        cases h
      | ok next =>
        rw [hadd] at h
        obtain ⟨w, hw, rfl⟩ := addWord_eq_ok_iff.1 hadd
        obtain ⟨ws, hws, rfl⟩ := ih.1 h
        exact ⟨w :: ws, .cons (by simpa using hw) hws, rfl⟩
    · rintro ⟨_, hws, rfl⟩
      cases hws with
      | @cons _ w _ ws hw hws =>
        have hadd : addWord style (String.ofList text) = .ok (w.addTo style) :=
          addWord_eq_ok_iff.2 ⟨w, by simpa using hw, rfl⟩
        rw [hadd]
        exact ih.2 ⟨ws, hws, rfl⟩

/-- Texts are read up to the first word that is not spelled, and that one is reported. -/
theorem foldlM_addWord_eq_error {texts : List (List Char)} (style : Style)
    (h : ∀ ws, ¬ List.Forall₂ (Word.Spelled Number.Signed) texts ws) :
    ∃ text ∈ texts, (∀ w : Word, ¬ w.Spelled Number.Signed text) ∧
      (texts.map String.ofList).foldlM addWord style =
        .error (.parseStyle ("unknown styling " ++ quoted (String.ofList text))) := by
  induction texts generalizing style with
  | nil => exact absurd .nil (h [])
  | cons text texts ih =>
    rw [List.map_cons, List.foldlM_cons]
    by_cases hspelled : ∃ w : Word, w.Spelled Number.Signed text
    · obtain ⟨w, hw⟩ := hspelled
      have hadd : addWord style (String.ofList text) = .ok (w.addTo style) :=
        addWord_eq_ok_iff.2 ⟨w, by simpa using hw, rfl⟩
      obtain ⟨bad, hmem, hbad, herror⟩ := ih (w.addTo style) fun ws hws =>
        h (w :: ws) (.cons hw hws)
      refine ⟨bad, List.mem_cons_of_mem _ hmem, hbad, ?_⟩
      rw [hadd]
      exact herror
    · rw [not_exists] at hspelled
      refine ⟨text, List.mem_cons_self, hspelled, ?_⟩
      rw [addWord_eq_error style (by simpa using hspelled)]
      rfl

/-- The texts that are read are those that are spelled, and the style is what their words
describe. -/
theorem ofWords_eq_ok_iff :
    ofWords s = .ok style ↔ ∃ ws, Spelled Number.Signed s ws ∧ Describes ws style := by
  rw [ofWords, words_eq, foldlM_addWord_eq_ok_iff]
  constructor
  · rintro ⟨ws, hws, rfl⟩
    exact ⟨ws, hws, describes_foldl ws⟩
  · rintro ⟨ws, hws, hdescribes⟩
    exact ⟨ws, hws, hdescribes.eq (describes_foldl ws)⟩

theorem Spelled.mono {rule' : NumberRule} (h : Spelled rule s ws)
    (hrule : ∀ radix digits n, rule radix digits n → rule' radix digits n) : Spelled rule' s ws :=
  List.Forall₂.imp (fun _ _ hw => Word.Spelled.mono hw hrule) h

theorem Spelled.denotes (h : Spelled Number.Signed s ws) (hplus : '+' ∉ s.toList) :
    Spelled Number.Denotes s ws := by
  have hword {text : List Char} (htext : text ∈ (s.toList.splitOnP isBlank).filter (· ≠ [])) :
      '+' ∉ text := fun hmem =>
    hplus (by simpa using Pieces.mem_of_mem_splitOnPPrepend (List.mem_filter.1 htext).1 hmem)
  exact ((List.forall₂_and_left _ _).2 ⟨fun _ => hword, h⟩).imp fun _ _ hw => hw.2.denotes hw.1

/-- **What is read is what the grammar allows.** A text is read as a style if its words are spelled,
where a plus sign may stand in front of the digits of a color, and then the style is what they
describe. In any other text a word that is not spelled is reported. A text without a plus sign is read
exactly if its words are spelled with digits only. -/
theorem ofWords_grammar (s : String) :
    (∀ style, ofWords s = .ok style ↔ ∃ ws, Spelled Number.Signed s ws ∧ Describes ws style) ∧
      ((∀ ws, ¬ Spelled Number.Signed s ws) → ∃ text ∈ s.toList.splitOnP isBlank,
        text ≠ [] ∧ (∀ w : Word, ¬ w.Spelled Number.Signed text) ∧
          ofWords s = .error (.parseStyle ("unknown styling " ++ quoted (String.ofList text)))) ∧
      ('+' ∉ s.toList → ∀ style,
        ofWords s = .ok style ↔ ∃ ws, Spelled Number.Denotes s ws ∧ Describes ws style) := by
  refine ⟨fun style => ofWords_eq_ok_iff, fun hnone => ?_, fun hplus style => ?_⟩
  · obtain ⟨text, hmem, hbad, herror⟩ := foldlM_addWord_eq_error plain hnone
    obtain ⟨hpiece, hne⟩ := List.mem_filter.1 hmem
    refine ⟨text, hpiece, by simpa using hne, hbad, ?_⟩
    rw [ofWords, words_eq, herror]
  · rw [ofWords_eq_ok_iff]
    constructor
    · rintro ⟨ws, hws, hdescribes⟩
      exact ⟨ws, hws.denotes hplus, hdescribes⟩
    · rintro ⟨ws, hws, hdescribes⟩
      exact ⟨ws, hws.mono fun _ _ _ => .inl, hdescribes⟩

/-- The first text has a word that is not spelled and is no style, and the words of the other one give a
style with the later foreground. -/
theorem ofWords_grammar_red :
    ((∀ ws, ¬ Spelled Number.Signed "bold rouge" ws) ∧
      ∃ text, ofWords "bold rouge" = .error (.parseStyle ("unknown styling " ++ text))) ∧
    '+' ∉ "red bold color7 bg-#00Ff80".toList ∧
      ∃ ws, Spelled Number.Denotes "red bold color7 bg-#00Ff80" ws ∧
        Describes ws ⟨some (.palette 7), some (.rgb 0 255 128), { bold := true }⟩ := by
  have hnone : ∀ ws, ¬ Spelled Number.Signed "bold rouge" ws := by
    intro ws hspelled
    have hno : (ofWords "bold rouge").isOk = false := by decide +kernel
    rw [ofWords_eq_ok_iff.2 ⟨ws, hspelled, describes_foldl ws⟩] at hno
    cases hno
  have hplus : '+' ∉ "red bold color7 bg-#00Ff80".toList := by decide
  obtain ⟨text, -, -, -, herror⟩ := (ofWords_grammar "bold rouge").2.1 hnone
  exact ⟨⟨hnone, _, herror⟩, hplus, ((ofWords_grammar _).2.2 hplus _).1 (by decide +kernel)⟩

/-- **Numbers with a plus sign are read**, though they do not consist of digits. -/
theorem ofWords_plus_sign :
    ofWords "#+1+2+3" = .ok { foreground := some (.rgb 1 2 3) } ∧
      ¬ ∃ ws, Spelled Number.Denotes "#+1+2+3" ws := by
  refine ⟨by decide +kernel, ?_⟩
  rintro ⟨ws, hspelled⟩
  have hwords : ("#+1+2+3".toList.splitOnP isBlank).filter (· ≠ []) = ["#+1+2+3".toList] := by
    decide +kernel
  rw [Spelled, hwords] at hspelled
  cases hspelled with
  | cons hw =>
    obtain ⟨n, hn⟩ := hw.of_direct
    exact absurd (Number.le_toNat_of_denotes (by decide) hn '+' (by decide)) (by decide)

end Style

end TerminalUI
