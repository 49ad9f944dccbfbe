import TerminalUI.Proofs.Style.Partition

/-!
# The bytes of styled text

A styled text seen as its bytes, each with its style (`StyledText.bytes`), so that it does not
matter how the text is divided into runs. Appending texts appends their bytes (`bytes_append`,
`bytes_concat`), and an attribute is turned on for each of them (`bytes_withAttribute`).

* `Cutting.Consumed` : while a text is cut, the parts hold the bytes that were read so far and no
  empty run; every run that is read keeps it so;
* `map_bytes_eq_slices` : parts that are laid end to end are found again where their lengths say;
* `partition?_exact` : **cutting a text gives the bytes between the cuts**, whatever runs they fall
  into, and no part has an empty run.
-/

namespace TerminalUI

/-- The bytes of a run, each with the style of the run. -/
def Segment.bytes (seg : Segment) : List (UInt8 × Style) :=
  seg.text.toUTF8.data.toList.map (·, seg.style)

namespace StyledText

/-- The bytes of a text, each with its style. -/
def bytes (t : StyledText) : List (UInt8 × Style) := t.segments.flatMap Segment.bytes

/-- No run is empty. -/
def Compact (t : StyledText) : Prop := ∀ seg ∈ t.segments, seg.text ≠ ""

/-! ### Bytes -/

theorem bytes_empty : bytes {} = [] := rfl

theorem bytes_segment_append (style : Style) (s s' : String) :
    Segment.bytes ⟨style, s ++ s'⟩ = Segment.bytes ⟨style, s⟩ ++ Segment.bytes ⟨style, s'⟩ := by
  simp [Segment.bytes]

theorem bytes_pushRun (s : String) (style : Style) (segments : List Segment) :
    (pushRun s style segments).flatMap Segment.bytes =
      segments.flatMap Segment.bytes ++ Segment.bytes ⟨style, s⟩ := by
  fun_induction pushRun s style segments with
  | case1 => simp
  | case2 last h => simp [Segment.bytes, h]
  | case3 last h => simp
  | case4 first second rest ih =>
    rw [List.flatMap_cons, ih, ← List.append_assoc, ← List.flatMap_cons]

@[simp]
theorem bytes_push (t : StyledText) (s : String) (style : Style) :
    (t.push s style).bytes = t.bytes ++ Segment.bytes ⟨style, s⟩ := by
  unfold push
  split
  · rename_i h
    simp [h, Segment.bytes]
  · exact bytes_pushRun s style t.segments

@[simp]
theorem bytes_append (t other : StyledText) : (t.append other).bytes = t.bytes ++ other.bytes := by
  unfold append
  obtain ⟨segments⟩ := other
  induction segments generalizing t with
  | nil => simp [bytes]
  | cons seg segments ih =>
    rw [List.foldl_cons, ih, bytes_push, List.append_assoc]
    rfl

theorem bytes_concat (parts : List StyledText) : (concat parts).bytes = parts.flatMap bytes := by
  have hfold (t : StyledText) : (parts.foldl append t).bytes = t.bytes ++ parts.flatMap bytes := by
    induction parts generalizing t with
    | nil => simp
    | cons part parts ih =>
      rw [List.foldl_cons, ih, bytes_append, List.flatMap_cons, List.append_assoc]
  rw [concat, hfold, bytes_empty, List.nil_append]

theorem bytes_withAttribute (t : StyledText) (a : Attribute) :
    (t.withAttribute a).bytes = t.bytes.map fun b => (b.1, b.2.withAttribute a) := by
  simp [withAttribute, restyle, bytes, Segment.bytes, List.flatMap_map, List.map_flatMap,
    Function.comp_def]

/-- The bytes are those of the plain text. -/
theorem map_fst_bytes (t : StyledText) : t.bytes.map Prod.fst = t.text.toUTF8.data.toList := by
  obtain ⟨segments⟩ := t
  induction segments with
  | nil => rfl
  | cons seg segments ih =>
    have htext : text ⟨seg :: segments⟩ = seg.text ++ text ⟨segments⟩ := by simp [text]
    have hbytes : bytes ⟨seg :: segments⟩ = seg.bytes ++ bytes ⟨segments⟩ := rfl
    rw [hbytes, List.map_append, ih, htext]
    simp [Segment.bytes, Function.comp_def]

theorem length_bytes (t : StyledText) : t.bytes.length = byteLength t.text := by
  rw [← List.length_map, map_fst_bytes]
  simp [byteLength]

theorem text_eq_of_bytes_eq {t t' : StyledText} (h : t.bytes = t'.bytes) : t.text = t'.text := by
  have hbytes : t.text.toUTF8.data.toList = t'.text.toUTF8.data.toList := by
    rw [← map_fst_bytes, h, map_fst_bytes]
  exact String.toByteArray_inj.1 (ByteArray.ext (Array.toList_inj.1 hbytes))

/-! ### Empty runs -/

theorem compact_pushRun {s : String} (hs : s ≠ "") (style : Style) {segments : List Segment}
    (h : Compact ⟨segments⟩) : Compact ⟨pushRun s style segments⟩ := by
  unfold Compact at h ⊢
  dsimp only at h ⊢
  fun_induction pushRun s style segments with
  | case1 => simpa using hs
  | case2 last hstyle => simp [hs]
  | case3 last hstyle => simpa [hs] using h
  | case4 first second rest ih =>
    obtain ⟨hfirst, hrest⟩ := List.forall_mem_cons.1 h
    exact List.forall_mem_cons.2 ⟨hfirst, ih hrest⟩

theorem Compact.push {t : StyledText} (h : t.Compact) (s : String) (style : Style) :
    (t.push s style).Compact := by
  unfold StyledText.push
  split
  · exact h
  · exact compact_pushRun (by assumption) style h

theorem compact_empty : Compact {} := fun _ hseg => absurd hseg List.not_mem_nil

/-! ### Cutting -/

namespace Cutting

/-- The parts hold the bytes that were read, and no empty run. -/
structure Consumed (s : Cutting) (read : List (UInt8 × Style)) : Prop where
  bytes_eq : (s.current :: s.finished).reverse.flatMap StyledText.bytes = read
  compact : ∀ part ∈ s.current :: s.finished, part.Compact

variable {s s' : Cutting} {read : List (UInt8 × Style)}

theorem Consumed.push (h : s.Consumed read) (text : String) (style : Style) (position : Nat)
    (cuts : List Nat) :
    Consumed ⟨s.finished, s.current.push text style, position, cuts⟩
      (read ++ Segment.bytes ⟨style, text⟩) where
  bytes_eq := by
    rw [← h.bytes_eq]
    simp
  compact := by
    obtain ⟨hcurrent, hfinished⟩ := List.forall_mem_cons.1 h.compact
    exact List.forall_mem_cons.2 ⟨hcurrent.push text style, hfinished⟩

theorem Consumed.cut (h : s.Consumed read) (position : Nat) (cuts : List Nat) :
    Consumed ⟨s.current :: s.finished, {}, position, cuts⟩ read where
  bytes_eq := by
    rw [← h.bytes_eq]
    simp [bytes_empty]
  compact := List.forall_mem_cons.2 ⟨compact_empty, h.compact⟩

theorem Consumed.run (h : s.Consumed read) {style : Style} {cuts : List Nat} {text : String}
    (hrun : run style cuts s text = some s') :
    s'.Consumed (read ++ Segment.bytes ⟨style, text⟩) := by
  induction cuts generalizing s text read with
  | nil =>
    cases hrun
    exact h.push text style _ _
  | cons cut cuts ih =>
    rw [Cutting.run] at hrun
    split at hrun
    · cases hrun
      exact h.push text style _ _
    · obtain ⟨⟨head, tail⟩, hcut, htail⟩ := Option.bind_eq_some_iff.1 hrun
      obtain ⟨rfl, -⟩ := cutAt_eq_some_iff.1 hcut
      have hrest := ih ((h.push head style (s.position + byteLength head) cuts).cut _ cuts) htail
      rw [List.append_assoc, ← bytes_segment_append] at hrest
      exact hrest

theorem Consumed.foldlM (h : s.Consumed read) {segments : List Segment}
    (hfold : segments.foldlM (fun s seg => Cutting.run seg.style s.cuts s seg.text) s = some s') :
    s'.Consumed (read ++ segments.flatMap Segment.bytes) := by
  induction segments generalizing s read with
  | nil =>
    cases hfold
    rwa [List.flatMap_nil, List.append_nil]
  | cons seg segments ih =>
    rw [List.foldlM_cons] at hfold
    obtain ⟨between, hrun, hrest⟩ := Option.bind_eq_some_iff.1 hfold
    rw [List.flatMap_cons, ← List.append_assoc]
    exact ih (h.run hrun) hrest

end Cutting

variable {t : StyledText} {offsets : List Nat} {parts : List StyledText}

/-- Wherever a text is cut, no byte is lost, and no part has an empty run. -/
theorem of_partition?_eq_some (h : t.partition? offsets = some parts) :
    parts.flatMap bytes = t.bytes ∧ ∀ part ∈ parts, part.Compact := by
  obtain ⟨s, hfold, hparts⟩ := Option.bind_eq_some_iff.1 h
  obtain rfl := Option.some.inj hparts
  have hstart : Cutting.Consumed { cuts := offsets } [] := ⟨rfl, by simpa using compact_empty⟩
  have hconsumed : s.Consumed t.bytes := hstart.foldlM hfold
  constructor
  · rw [List.flatMap_append, hconsumed.bytes_eq]
    simp [bytes_empty]
  · intro part hpart
    rcases List.mem_append.1 hpart with hpart | hpart
    · exact hconsumed.compact part (List.mem_reverse.1 hpart)
    · obtain ⟨_, -, rfl⟩ := List.mem_map.1 hpart
      exact compact_empty

/-! ### Where the parts are -/

/-- Ascending offsets, each of which is a boundary of a text or past its end, are the ends of
pieces of the text and offsets past it. -/
theorem exists_pieces (text : String) (start : Nat) (hascending : offsets.Pairwise (· ≤ ·))
    (hstart : ∀ o ∈ offsets, start ≤ o)
    (hoffsets : ∀ o ∈ offsets, isBoundary text (o - start) = true ∨ start + byteLength text < o) :
    ∃ piece rest beyond, String.join (piece :: rest) = text ∧
      offsets = ends start piece rest ++ beyond ∧
      ∀ o ∈ beyond, start + byteLength text < o := by
  induction offsets generalizing text start with
  | nil => exact ⟨text, [], [], by simp, rfl, nofun⟩
  | cons o offsets ih =>
    obtain ⟨hle, hascending⟩ := List.pairwise_cons.1 hascending
    have hso : start ≤ o := hstart o List.mem_cons_self
    rcases hoffsets o List.mem_cons_self with hboundary | hbeyond
    · obtain ⟨before, after, rfl, hlength⟩ := isBoundary_iff.1 hboundary
      have hafter : ∀ o' ∈ offsets,
          isBoundary after (o' - o) = true ∨ o + byteLength after < o' := by
        intro o' ho'
        have hoo' := hle o' ho'
        rcases hoffsets o' (List.mem_cons_of_mem o ho') with hboundary' | hbeyond'
        · obtain ⟨before', after', happend, hlength'⟩ := isBoundary_iff.1 hboundary'
          obtain ⟨between, rfl, rfl⟩ := exists_append_of_le happend.symm (by omega)
          rw [byteLength_append] at hlength'
          exact .inl (isBoundary_iff.2 ⟨between, after', rfl, by omega⟩)
        · rw [byteLength_append] at hbeyond'
          exact .inr (by omega)
      obtain ⟨piece, rest, beyond, rfl, hends, hbeyond⟩ := ih after o hascending hle hafter
      refine ⟨before, piece :: rest, beyond, by rw [String.join_cons], ?_, ?_⟩
      · rw [ends, hlength, Nat.add_sub_cancel' hso, hends, List.cons_append]
      · intro o' ho'
        have := hbeyond o' ho'
        rw [byteLength_append]
        omega
    · refine ⟨text, [], o :: offsets, by simp, rfl, List.forall_mem_cons.2 ⟨hbeyond, ?_⟩⟩
      exact fun o' ho' => Nat.lt_of_lt_of_le hbeyond (hle o' ho')

@[simp]
theorem length_ends (start : Nat) (piece : String) (rest : List String) :
    (ends start piece rest).length = rest.length := by
  induction rest generalizing start piece with
  | nil => rfl
  | cons next rest ih => rw [ends, List.length_cons, List.length_cons, ih]

theorem le_of_mem_ends {start : Nat} {piece : String} {rest : List String} {o : Nat}
    (h : o ∈ ends start piece rest) : o ≤ start + byteLength (String.join (piece :: rest)) := by
  induction rest generalizing start piece with
  | nil => cases h
  | cons next rest ih =>
    rw [String.join_cons, byteLength_append]
    rcases List.mem_cons.1 h with rfl | h
    · omega
    · have := ih h
      omega

/-- What is in a list between neighbouring positions. -/
def slices {α : Type} (l : List α) : List Nat → List (List α)
  | start :: stop :: positions => l.extract start stop :: slices l (stop :: positions)
  | _ => []

theorem extract_append {α : Type} (front middle back : List α) :
    (front ++ (middle ++ back)).extract front.length (front.length + middle.length) = middle := by
  simp [List.extract_eq_take_drop]

/-- Parts that are laid end to end are found again between their ends. -/
theorem map_bytes_eq_slices {front whole : List (UInt8 × Style)}
    (hwhole : whole = front ++ parts.flatMap bytes) {piece : String} {rest : List String}
    (h : parts.map text = piece :: rest) :
    parts.map bytes =
      slices whole (front.length :: (ends front.length piece rest ++ [whole.length])) := by
  induction parts generalizing front piece rest with
  | nil => cases h
  | cons part parts ih =>
    obtain ⟨rfl, hrest⟩ := List.cons.inj h
    have hend : front.length + byteLength part.text = (front ++ part.bytes).length := by
      rw [List.length_append, length_bytes]
    have hpart : whole.extract front.length (front ++ part.bytes).length = part.bytes := by
      rw [hwhole, List.flatMap_cons, List.length_append]
      exact extract_append front part.bytes _
    cases rest with
    | nil =>
      obtain rfl := List.map_eq_nil_iff.1 hrest
      obtain rfl : whole = front ++ part.bytes := by simpa using hwhole
      rw [ends, List.nil_append, slices, hpart]
      rfl
    | cons next rest =>
      -- the part goes to the front, and its end is where the next one starts
      have hwhole' : whole = front ++ part.bytes ++ parts.flatMap bytes := by
        rw [hwhole, List.flatMap_cons, List.append_assoc]
      rw [ends, List.cons_append, slices, hend, hpart, List.map_cons, ih hwhole' hrest]

/-- The offsets between which the parts of a text lie that is cut at some offsets. Offsets past the
end count as the end. -/
def bounds (t : StyledText) (offsets : List Nat) : List Nat :=
  0 :: (offsets.map (min · (byteLength t.text)) ++ [byteLength t.text])

theorem ends_append_beyond (start : Nat) (piece : String) (rest : List String) (beyond : List Nat) :
    ends start piece (rest ++ beyond.map fun _ => "") =
      ends start piece rest ++
        beyond.map fun _ => start + byteLength (String.join (piece :: rest)) := by
  induction rest generalizing start piece with
  | nil =>
    rw [List.nil_append]
    induction beyond generalizing start piece with
    | nil => rfl
    | cons o beyond ih =>
      have hrest := ih (start + byteLength piece) ""
      simp_all [ends]
  | cons next rest ih =>
    rw [List.cons_append, ends, ih, ends, List.cons_append, String.join_cons (s := piece),
      byteLength_append, Nat.add_assoc]

/-- The parts are what is in a text between neighbouring bounds, bytes and styles, without empty
runs. Put together again, they have the same text and the same styles. -/
structure IsCutInto (t : StyledText) (offsets : List Nat) (parts : List StyledText) : Prop where
  length_eq : parts.length = offsets.length + 1
  bytes_eq : parts.map bytes = slices t.bytes (t.bounds offsets)
  text_concat : (concat parts).text = t.text
  bytes_concat : (concat parts).bytes = t.bytes
  compact : ∀ part ∈ parts, part.Compact

/-- **Cutting is exact.** At ascending offsets, each of which is a boundary of the text or past its
end, cutting a text does not fail, and the parts are what is between the offsets. -/
theorem partition?_exact (hascending : offsets.Pairwise (· ≤ ·))
    (hoffsets : ∀ o ∈ offsets, isBoundary t.text o = true ∨ byteLength t.text < o) :
    ∃ parts, t.partition? offsets = some parts ∧ t.IsCutInto offsets parts := by
  obtain ⟨piece, rest, beyond, hjoin, rfl, hbeyond⟩ :=
    exists_pieces t.text 0 hascending (fun _ _ => Nat.zero_le _) (by simpa using hoffsets)
  simp only [Nat.zero_add] at hbeyond
  obtain ⟨parts, hpartition, htexts⟩ := partition?_ends_append piece rest hjoin hbeyond
  obtain ⟨hbytes, hcompact⟩ := of_partition?_eq_some hpartition
  have hconcat : (concat parts).bytes = t.bytes := (StyledText.bytes_concat parts).trans hbytes
  have hbounds : t.bounds (ends 0 piece rest ++ beyond) =
      0 :: (ends 0 piece (rest ++ beyond.map fun _ => "") ++ [t.bytes.length]) := by
    have hinside : ∀ o ∈ ends 0 piece rest, min o (byteLength t.text) = o := fun o ho =>
      Nat.min_eq_left (by simpa [hjoin] using le_of_mem_ends ho)
    have hpast : ∀ o ∈ beyond, min o (byteLength t.text) = byteLength t.text := fun o ho =>
      Nat.min_eq_right (Nat.le_of_lt (hbeyond o ho))
    rw [bounds, List.map_append, List.map_congr_left hinside, List.map_id',
      List.map_congr_left hpast, ends_append_beyond, hjoin, Nat.zero_add, length_bytes]
  refine ⟨parts, hpartition, ?_, ?_, text_eq_of_bytes_eq hconcat, hconcat, hcompact⟩
  · simpa using congrArg List.length htexts
  · rw [hbounds]
    have hwhole : t.bytes = [] ++ parts.flatMap bytes := hbytes.symm
    exact map_bytes_eq_slices hwhole htexts

/-- Two runs in which a byte is not always a character. -/
def twoRuns : StyledText := ⟨[⟨{}, "aé"⟩, ⟨Style.plain.withAttribute .bold, "b"⟩]⟩

/-- A cut within a run, two where the run ends, and one past the text. -/
theorem partition?_exact_twoRuns :
    ([1, 3, 3, 9].Pairwise (· ≤ ·) ∧
      ∀ o ∈ [1, 3, 3, 9], isBoundary twoRuns.text o = true ∨ byteLength twoRuns.text < o) ∧
    (∃ parts, twoRuns.partition? [1, 3, 3, 9] = some parts ∧
      twoRuns.IsCutInto [1, 3, 3, 9] parts) ∧
    twoRuns.partition? [1, 3, 3, 9] = some
      [.plain "a", .plain "é", {}, .ofString "b" (Style.plain.withAttribute .bold), {}] :=
  ⟨⟨by decide, by decide +kernel⟩, partition?_exact (by decide) (by decide +kernel),
    by decide +kernel⟩

end StyledText

end TerminalUI
