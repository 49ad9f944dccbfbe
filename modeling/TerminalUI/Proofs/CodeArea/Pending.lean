import Mathlib.Data.Option.Basic
import TerminalUI.Proofs.CodeArea.Entries
import TerminalUI.Proofs.Style.Bytes

/-!
# Code with a pending overlay

What a code area shows while an overlay is pending. `Overlay.Applies` says to which texts an
overlay applies, and `ShowsPending` what is shown of it: the text with the range of the overlay
replaced, the styles of the highlighter with the bytes of the overlay underlined, and the cursor at
the last boundary up to the dot.

* `Overlay.shown_of_splits`, `Overlay.shown_of_not_applies` : the text that is shown;
* `exists_shownCode_bytes` : the code that is shown, byte by byte;
* `exists_leads_showsPending` : **invoking a code area shows its overlay so**, whatever the entries
  hold.
-/

namespace TerminalUI

/-! ### Where an overlay applies -/

namespace Overlay

/-- The range of the overlay is one of the text, between characters, and the overlay changes
something. -/
structure Applies (o : Overlay) (text : String) : Prop where
  start_le_stop : o.start ≤ o.stop
  stop_le_length : o.stop ≤ byteLength text
  isBoundary_start : isBoundary text o.start = true
  isBoundary_stop : isBoundary text o.stop = true
  changes : ¬ (o.start = o.stop ∧ o.content = "")

variable {o : Overlay} {text before replaced after : String}

/-- The text is taken apart into what is before, in and after the range of the overlay. -/
structure Splits (o : Overlay) (text before replaced after : String) : Prop where
  text_eq : before ++ replaced ++ after = text
  length_before : byteLength before = o.start
  length_replaced : byteLength (before ++ replaced) = o.stop

theorem Applies.exists_splits (h : o.Applies text) :
    ∃ before replaced after, o.Splits text before replaced after := by
  obtain ⟨before, rest, rfl, hbefore⟩ := isBoundary_iff.1 h.isBoundary_start
  obtain ⟨front, after, happend, hfront⟩ := isBoundary_iff.1 h.isBoundary_stop
  have hle := h.start_le_stop
  obtain ⟨replaced, rfl, rfl⟩ := exists_append_of_le happend.symm (by omega)
  exact ⟨before, replaced, after, by rw [String.append_assoc], hbefore, hfront⟩

theorem around?_of_splits (h : o.Splits text before replaced after)
    (hchanges : ¬ (o.start = o.stop ∧ o.content = "")) : o.around? text = some (before, after) := by
  have hstart : cutAt text o.start = some (before, replaced ++ after) :=
    cutAt_eq_some_iff.2 ⟨by rw [← h.text_eq, String.append_assoc], h.length_before⟩
  have hstop : cutAt text o.stop = some (before ++ replaced, after) :=
    cutAt_eq_some_iff.2 ⟨h.text_eq, h.length_replaced⟩
  have hle : o.start ≤ o.stop := by
    rw [← h.length_before, ← h.length_replaced, byteLength_append]
    exact Nat.le_add_right _ _
  have hguard : (!(o.start == o.stop && o.content == "")) = true := by
    rw [Bool.not_eq_true', ← Bool.not_eq_true]
    simpa using hchanges
  simp [around?, guard, hguard, hle, hstart, hstop]

theorem applies_of_around?_eq_some {parts : String × String} (h : o.around? text = some parts) :
    o.Applies text := by
  unfold around? at h
  obtain ⟨_, hchanges, h⟩ := Option.bind_eq_some_iff.1 h
  obtain ⟨_, hle, h⟩ := Option.bind_eq_some_iff.1 h
  obtain ⟨⟨before, rest⟩, hstart, h⟩ := Option.bind_eq_some_iff.1 h
  obtain ⟨⟨front, after⟩, hstop, -⟩ := Option.bind_eq_some_iff.1 h
  have hboundary {n : Nat} {before after : String} (h : cutAt text n = some (before, after)) :
      isBoundary text n = true := isBoundary_iff.2 ⟨before, after, cutAt_eq_some_iff.1 h⟩
  have hchanges := (Option.guard_eq_some' _).1 hchanges
  refine ⟨(Option.guard_eq_some' _).1 hle, le_of_isBoundary (hboundary hstop), hboundary hstart,
    hboundary hstop, ?_⟩
  rintro ⟨hrange, hcontent⟩
  simp [hrange, hcontent] at hchanges

theorem shown_of_splits (h : o.Splits text before replaced after)
    (hchanges : ¬ (o.start = o.stop ∧ o.content = "")) :
    o.shown text =
      (before ++ o.content ++ after, some (o.start, o.start + byteLength o.content)) := by
  rw [shown, around?_of_splits h hchanges]

theorem shown_of_not_applies (h : ¬ o.Applies text) : o.shown text = (text, none) := by
  unfold shown
  cases haround : o.around? text with
  | none => rfl
  | some parts => exact absurd (applies_of_around?_eq_some haround) h

end Overlay

namespace CodeArea

/-- The bytes with those of a range underlined. -/
def underlined (start stop : Nat) (bytes : List (UInt8 × Style)) : List (UInt8 × Style) :=
  bytes.mapIdx fun i b => if start ≤ i ∧ i < stop then (b.1, b.2.withAttribute .underline) else b

theorem mapIdx_eq_map_of_forall {α : Type} {l : List α} {f : Nat → α → α} {g : α → α}
    (h : ∀ i < l.length, ∀ a, f i a = g a) : l.mapIdx f = l.map g := by
  refine List.ext_getElem (by simp) fun i hi _ => ?_
  rw [List.length_mapIdx] at hi
  rw [List.getElem_mapIdx, List.getElem_map, h i hi]

theorem mapIdx_eq_self_of_forall {α : Type} {l : List α} {f : Nat → α → α}
    (h : ∀ i < l.length, ∀ a, f i a = a) : l.mapIdx f = l :=
  (mapIdx_eq_map_of_forall (g := id) h).trans (List.map_id l)

theorem underlined_append (before inside after : List (UInt8 × Style)) :
    underlined before.length (before.length + inside.length) (before ++ inside ++ after) =
      before ++ inside.map (fun b => (b.1, b.2.withAttribute .underline)) ++ after := by
  rw [underlined, List.mapIdx_append, List.mapIdx_append]
  congr 1
  · congr 1
    · exact mapIdx_eq_self_of_forall fun i hi b => if_neg (by omega)
    · exact mapIdx_eq_map_of_forall fun i hi b => if_pos (by omega)
  · refine mapIdx_eq_self_of_forall fun i hi b => if_neg ?_
    rw [List.length_append]
    omega

/-- The code that is shown for a buffer, byte by byte. Coloring it is no fault if the highlighter
keeps the text. -/
theorem exists_shownCode_bytes {h : Highlighter} (hfaithful : h.Faithful) {o : Overlay}
    {content before replaced after : String} (hsplits : o.Splits content before replaced after)
    (hchanges : ¬ (o.start = o.stop ∧ o.content = "")) :
    ∃ code, shownCode h o content =
        .ok (code, (h.highlight (before ++ o.content ++ after)).2) ∧
      code.text = before ++ o.content ++ after ∧ code.bytes =
        underlined o.start (o.start + byteLength o.content)
          (h.highlight (before ++ o.content ++ after)).1.bytes := by
  have htext : before ++ o.content ++ after =
      (h.highlight (before ++ o.content ++ after)).1.text := (hfaithful _).symm
  obtain ⟨x, y, z, hcut, rfl, hy, rfl⟩ := StyledText.partition?_around htext
  obtain ⟨hbytes, -⟩ := StyledText.of_partition?_eq_some hcut
  rw [hsplits.length_before] at hcut
  refine ⟨.concat [x, y.withAttribute .underline, z], ?_, ?_, ?_⟩
  · simp only [shownCode, Overlay.shown_of_splits hsplits hchanges, hcut]
  · simp [StyledText.text_concat, hy, String.append_assoc]
  · have hlength : o.start = x.bytes.length := by
      rw [StyledText.length_bytes, hsplits.length_before]
    rw [← hbytes, hlength, ← hy, ← StyledText.length_bytes y]
    simp only [List.flatMap_cons, List.flatMap_nil, List.append_nil, ← List.append_assoc,
      StyledText.bytes_concat, StyledText.bytes_withAttribute, underlined_append]

/-- What a code area shows of its buffer, its overlay and its highlighter. -/
structure ShowsPending (s : State) (layout : CodeLayout) : Prop where
  unchanged : ¬ s.pending.Applies s.buffer.content →
    layout.code.text = s.buffer.content ∧
      layout.code.bytes = (s.highlighter.highlight layout.code.text).1.bytes
  patched : s.pending.Applies s.buffer.content →
    ∃ before replaced after, s.pending.Splits s.buffer.content before replaced after ∧
      layout.code.text = before ++ s.pending.content ++ after ∧
      layout.code.bytes =
        underlined s.pending.start (s.pending.start + byteLength s.pending.content)
          (s.highlighter.highlight layout.code.text).1.bytes
  cursor : IsGreatest {i | isBoundary layout.code.text i = true ∧ i ≤ s.buffer.dot} layout.dot

variable {hook : Option Hook} {level : Path} {m : Tree} {s : State}

/-- **Invoking a code area shows its overlay.** Where the overlay applies, its text stands in place
of its range and is underlined on top of the styles of the highlighter, and all else has exactly
these; where it does not apply, the code is shown as it is. The cursor is at the last boundary of
the text that is shown up to the dot. -/
theorem exists_leads_showsPending (h : Configured m s) (hfaithful : s.highlighter.Faithful) :
    ∃ layout, Program.Leads hook level (codeArea level) m ⟨.code layout, handler level⟩
      (initialized m) ∧ ShowsPending s layout := by
  have hcursor {code : StyledText} {tips : List StyledText}
      (htext : code.text = (s.pending.shown s.buffer.content).1) :
      IsGreatest {i | isBoundary code.text i = true ∧ i ≤ s.buffer.dot}
        (s.layout code tips).dot := by
    rw [htext]
    exact isGreatest_floorBoundary _ _
  by_cases happlies : s.pending.Applies s.buffer.content
  · obtain ⟨before, replaced, after, hsplits⟩ := happlies.exists_splits
    obtain ⟨code, hcode, htext, hbytes⟩ :=
      exists_shownCode_bytes hfaithful hsplits happlies.changes
    have hshown : code.text = (s.pending.shown s.buffer.content).1 := by
      rw [htext, Overlay.shown_of_splits hsplits happlies.changes]
    rw [← htext] at hbytes
    exact ⟨_, leads_codeArea h hcode, fun hnot => absurd happlies hnot,
      fun _ => ⟨before, replaced, after, hsplits, htext, hbytes⟩, hcursor hshown⟩
  · have hshown := Overlay.shown_of_not_applies happlies
    cases hhighlight : s.highlighter.highlight s.buffer.content with
    | mk code tips =>
      have htext : code.text = s.buffer.content := by
        simpa only [hhighlight] using hfaithful s.buffer.content
      have hcode : shownCode s.highlighter s.pending s.buffer.content = .ok (code, tips) := by
        simp only [shownCode, hshown, hhighlight]
      have hbytes : code.bytes = (s.highlighter.highlight code.text).1.bytes := by
        rw [htext, hhighlight]
      have htextShown : code.text = (s.pending.shown s.buffer.content).1 := by
        rw [htext, hshown]
      exact ⟨_, leads_codeArea h hcode, fun _ => ⟨htext, hbytes⟩,
        fun happ => absurd happ happlies, hcursor htextShown⟩

/-- A highlighter that makes code bold. -/
def bold : Highlighter := ⟨fun code => (.ofString code (Style.plain.withAttribute .bold), [])⟩

theorem faithful_bold : bold.Faithful := by
  intro code
  simp [bold, StyledText.ofString, StyledText.text_empty]

/-- The overlay stands for a character of two bytes, and with it the dot falls into the next one. -/
theorem exists_leads_showsPending_accented :
    (Configured (.ofList [(bufferName, .buffer ⟨"aéé", 3⟩), (pendingName, .overlay ⟨1, 3, "x"⟩),
        (highlighterName, .highlighter bold)])
      { buffer := ⟨"aéé", 3⟩, pending := ⟨1, 3, "x"⟩, highlighter := bold } ∧ bold.Faithful) ∧
    (∃ layout, Program.Leads none .root (codeArea .root)
        (.ofList [(bufferName, .buffer ⟨"aéé", 3⟩), (pendingName, .overlay ⟨1, 3, "x"⟩),
          (highlighterName, .highlighter bold)]) ⟨.code layout, handler .root⟩
        (initialized (.ofList [(bufferName, .buffer ⟨"aéé", 3⟩),
          (pendingName, .overlay ⟨1, 3, "x"⟩), (highlighterName, .highlighter bold)])) ∧
      ShowsPending { buffer := ⟨"aéé", 3⟩, pending := ⟨1, 3, "x"⟩, highlighter := bold } layout) ∧
    Overlay.shown ⟨1, 3, "x"⟩ "aéé" = ("axé", some (1, 2)) ∧ floorBoundary "axé" 3 = 2 := by
  have hconfigured :
      Configured (.ofList [(bufferName, .buffer ⟨"aéé", 3⟩), (pendingName, .overlay ⟨1, 3, "x"⟩),
          (highlighterName, .highlighter bold)])
        { buffer := ⟨"aéé", 3⟩, pending := ⟨1, 3, "x"⟩, highlighter := bold } := by
    constructor
    · rfl
    · rfl
    · rfl
    · rfl
    · rfl
    · rfl
    · rfl
    · rfl
    · rfl
    · rfl
    · rfl
    · rfl
  exact ⟨⟨hconfigured, faithful_bold⟩, exists_leads_showsPending hconfigured faithful_bold,
    by decide +kernel, by decide +kernel⟩

end CodeArea

end TerminalUI
