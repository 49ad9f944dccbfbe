import TerminalUI.Proofs.Text.Cutting
import TerminalUI.Style.StyledText

/-!
# Cutting styled text

A styled text whose plain text is the concatenation of some pieces can be cut where the pieces end,
however the cuts fall into its runs, and the parts have the pieces as their plain texts
(`StyledText.partition?_ends`). Cuts past the end of the text only add empty parts
(`StyledText.partition?_ends_append`).
-/

namespace TerminalUI

namespace StyledText

theorem join_pushRun (text : String) (style : Style) (segments : List Segment) :
    String.join ((pushRun text style segments).map Segment.text) =
      String.join (segments.map Segment.text) ++ text := by
  induction segments with
  | nil => simp [pushRun]
  | cons first rest ih =>
    cases rest with
    | nil =>
      unfold pushRun
      split <;> simp
    | cons second rest =>
      rw [pushRun, List.map_cons, String.join_cons, ih, ← String.append_assoc,
        ← String.join_cons, ← List.map_cons]

theorem text_empty : (StyledText.mk []).text = "" := String.join_nil

@[simp]
theorem text_push (t : StyledText) (s : String) (style : Style) :
    (t.push s style).text = t.text ++ s := by
  unfold push
  split
  · rename_i h
    rw [h, String.append_empty]
  · exact join_pushRun s style t.segments

@[simp]
theorem text_append (t other : StyledText) : (t.append other).text = t.text ++ other.text := by
  unfold append
  obtain ⟨segments⟩ := other
  induction segments generalizing t with
  | nil => rw [List.foldl_nil, text_empty, String.append_empty]
  | cons seg segments ih =>
    rw [List.foldl_cons, ih, text_push, String.append_assoc]
    simp [text]

theorem text_concat (parts : List StyledText) :
    (concat parts).text = String.join (parts.map text) := by
  have hfold (t : StyledText) :
      (parts.foldl append t).text = t.text ++ String.join (parts.map text) := by
    induction parts generalizing t with
    | nil => simp
    | cons part parts ih =>
      rw [List.foldl_cons, ih, text_append, List.map_cons, String.join_cons, String.append_assoc]
  rw [concat, hfold, text_empty, String.empty_append]

@[simp]
theorem text_withAttribute (t : StyledText) (a : Attribute) :
    (t.withAttribute a).text = t.text := by
  simp only [withAttribute, restyle, text, List.map_map]
  rfl

/-- The offsets at which pieces end, all but the last one, where the first starts at an offset. -/
def ends (start : Nat) (piece : String) : List String → List Nat
  | [] => []
  | next :: rest => (start + byteLength piece) :: ends (start + byteLength piece) next rest

theorem map_ends (start : Nat) (piece : String) {rest : List String}
    (h : String.join rest = "") : (ends start piece rest).map (fun _ => "") = rest := by
  induction rest generalizing start piece with
  | nil => rfl
  | cons next rest ih =>
    rw [String.join_cons, String.append_eq_empty_iff] at h
    rw [ends, List.map_cons, ih _ _ h.2, h.1]

namespace Cutting

/-- The plain texts of the parts, when the text still to come has the given pieces. -/
def texts (s : Cutting) (piece : String) (rest : List String) : List String :=
  s.finished.reverse.map StyledText.text ++ (s.current.text ++ piece) :: rest

/-- Cuts past the run are left for later. -/
theorem run_beyond (style : Style) (s : Cutting) {text : String} {cuts : List Nat}
    (h : ∀ cut ∈ cuts, s.position + byteLength text < cut) :
    run style cuts s text = some
      { s with
        current := s.current.push text style, position := s.position + byteLength text
        cuts := cuts } := by
  cases cuts with
  | nil => rfl
  | cons cut cuts => rw [run, if_pos (h cut List.mem_cons_self)]

theorem run_ends (style : Style) (s : Cutting) {text piece remaining : String}
    {rest : List String} {beyond : List Nat} (h : String.join (piece :: rest) = text ++ remaining)
    (hbeyond : ∀ cut ∈ beyond, s.position + byteLength (text ++ remaining) < cut) :
    ∃ s' piece' rest', run style (ends s.position piece rest ++ beyond) s text = some s' ∧
      s'.cuts = ends s'.position piece' rest' ++ beyond ∧
      s'.position = s.position + byteLength text ∧ String.join (piece' :: rest') = remaining ∧
      s'.texts piece' rest' = s.texts piece rest := by
  induction rest generalizing s text piece with
  | nil =>
    have hpiece : piece = text ++ remaining := by simpa using h
    have hcuts : ∀ cut ∈ beyond, s.position + byteLength text < cut := by
      intro cut hcut
      have := hbeyond cut hcut
      rw [byteLength_append] at this
      omega
    refine ⟨_, remaining, [], run_beyond style s hcuts, rfl, rfl, by simp, ?_⟩
    simp [texts, hpiece, String.append_assoc]
  | cons next rest ih =>
    rw [String.join_cons] at h
    -- either the run ends within the piece, or the first cut falls into it
    by_cases hlt : byteLength text < byteLength piece
    · obtain ⟨e, rfl, hremaining⟩ := exists_append_of_le h.symm (Nat.le_of_lt hlt)
      refine ⟨_, e, next :: rest, if_pos (Nat.add_lt_add_left hlt _), ?_, rfl, ?_, ?_⟩
      · simp only [ends, byteLength_append, Nat.add_assoc, List.append_eq, List.cons_append]
      · rw [String.join_cons, hremaining]
      · simp [texts, String.append_assoc]
    · obtain ⟨e, rfl, hrest⟩ := exists_append_of_le h (Nat.le_of_not_lt hlt)
      have hcut : cutAt (piece ++ e) (s.position + byteLength piece - s.position) =
          some (piece, e) := by
        rw [Nat.add_sub_cancel_left, cutAt_append]
      have hbeyond' : ∀ cut ∈ beyond,
          s.position + byteLength piece + byteLength (e ++ remaining) < cut := by
        intro cut hcut
        have := hbeyond cut hcut
        simp only [byteLength_append] at this ⊢
        omega
      obtain ⟨s', piece', rest', hrun, hcuts, hposition, hjoin, htexts⟩ :=
        ih { finished := s.current.push piece style :: s.finished, current := {},
             position := s.position + byteLength piece,
             cuts := ends (s.position + byteLength piece) next rest ++ beyond } hrest hbeyond'
      refine ⟨s', piece', rest', ?_, hcuts, ?_, hjoin, ?_⟩
      · rw [ends, List.cons_append, run, if_neg (by omega), hcut]
        exact hrun
      · rw [hposition, byteLength_append, Nat.add_assoc]
      · rw [htexts]
        simp [texts, text_empty]

theorem foldlM_ends (segments : List Segment) (s : Cutting) {piece : String}
    {rest : List String} {beyond : List Nat} (hcuts : s.cuts = ends s.position piece rest ++ beyond)
    (h : String.join (piece :: rest) = String.join (segments.map Segment.text))
    (hbeyond : ∀ cut ∈ beyond,
      s.position + byteLength (String.join (segments.map Segment.text)) < cut) :
    ∃ s', segments.foldlM (fun s seg => run seg.style s.cuts s seg.text) s = some s' ∧
      (s'.current :: s'.finished).reverse.map StyledText.text ++ s'.cuts.map (fun _ => "") =
        s.texts piece rest ++ beyond.map fun _ => "" := by
  induction segments generalizing s piece rest with
  | nil =>
    rw [String.join_cons, List.map_nil, String.join_nil, String.append_eq_empty_iff] at h
    refine ⟨s, rfl, ?_⟩
    rw [hcuts, List.map_append, map_ends _ _ h.2, h.1]
    simp [texts]
  | cons seg segments ih =>
    rw [List.map_cons, String.join_cons (s := seg.text)] at h hbeyond
    obtain ⟨s', piece', rest', hrun, hcuts', hposition, hjoin, htexts⟩ :=
      run_ends seg.style s h hbeyond
    have hbeyond' : ∀ cut ∈ beyond,
        s'.position + byteLength (String.join (segments.map Segment.text)) < cut := by
      intro cut hcut
      rw [hposition, Nat.add_assoc, ← byteLength_append]
      exact hbeyond cut hcut
    obtain ⟨s'', hfold, hparts⟩ := ih s' hcuts' hjoin hbeyond'
    refine ⟨s'', ?_, hparts.trans (by rw [htexts])⟩
    rw [List.foldlM_cons, hcuts, hrun]
    exact hfold

end Cutting

/-- Cutting a text where its pieces end, and past its end, gives one part for each piece and empty
parts for the other cuts. -/
theorem partition?_ends_append {t : StyledText} (piece : String) (rest : List String)
    {beyond : List Nat} (h : String.join (piece :: rest) = t.text)
    (hbeyond : ∀ cut ∈ beyond, byteLength t.text < cut) :
    ∃ parts, t.partition? (ends 0 piece rest ++ beyond) = some parts ∧
      parts.map StyledText.text = piece :: rest ++ beyond.map fun _ => "" := by
  obtain ⟨s, hfold, hparts⟩ :=
    Cutting.foldlM_ends t.segments { cuts := ends 0 piece rest ++ beyond } rfl h
      (by simpa [text] using hbeyond)
  refine ⟨(s.current :: s.finished).reverse ++ s.cuts.map fun _ => ({} : StyledText), ?_, ?_⟩
  · rw [partition?, hfold]
    rfl
  · rw [List.map_append, List.map_map]
    exact hparts.trans (by simp [Cutting.texts, text_empty])

/-- **Cutting a text where its pieces end** gives one part for each piece. -/
theorem partition?_ends {t : StyledText} (piece : String) (rest : List String)
    (h : String.join (piece :: rest) = t.text) :
    ∃ parts, t.partition? (ends 0 piece rest) = some parts ∧
      parts.map StyledText.text = piece :: rest := by
  have hnone : ∀ cut ∈ ([] : List Nat), byteLength t.text < cut := nofun
  simpa using partition?_ends_append piece rest h hnone

/-- Cutting a text around what is inside of it. -/
theorem partition?_around {t : StyledText} {before inside after : String}
    (h : before ++ inside ++ after = t.text) :
    ∃ x y z : StyledText,
      t.partition? [byteLength before, byteLength before + byteLength inside] = some [x, y, z] ∧
        x.text = before ∧ y.text = inside ∧ z.text = after := by
  have htext : String.join [before, inside, after] = t.text := by
    rw [← h]
    simp [String.append_assoc]
  obtain ⟨parts, hparts, htexts⟩ := partition?_ends before [inside, after] htext
  obtain ⟨x, rest, rfl, hx, hrest⟩ := List.map_eq_cons_iff.1 htexts
  obtain ⟨y, rest, rfl, hy, hrest⟩ := List.map_eq_cons_iff.1 hrest
  obtain ⟨z, rest, rfl, hz, hnil⟩ := List.map_eq_cons_iff.1 hrest
  rw [List.map_eq_nil_iff.1 hnil] at hparts
  simp only [ends, Nat.zero_add] at hparts
  exact ⟨x, y, z, hparts, hx, hy, hz⟩

end StyledText

end TerminalUI
