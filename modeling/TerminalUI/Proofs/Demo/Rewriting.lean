import TerminalUI.Proofs.Decimal.Characters
import TerminalUI.Proofs.Demo.Converter

/-!
# What the converter rewrites

Whatever a converter has become, Tab only switches its fields, and any other event is given to the
focused field. The other field is rewritten if the event was consumed and the focused field holds a
number then, whether or not the event changed it (`dispatch_rewrites`). So the start of a paste,
which edits nothing, can take away what was typed into the other field (`rewritten_without_edit`).
-/

namespace TerminalUI

namespace CodeArea

variable {keymap : Keymap} {s s' : State} {event : Event} {action : Action}

/-- What is not consumed is no edit. -/
theorem Step.buffer_eq_of_ne (h : Step keymap s event action s') (haction : action ≠ .consumed) :
    s'.buffer = s.buffer := by
  cases h with
  | submitted => rfl
  | moved => exact absurd rfl haction
  | handled _ _ hhandled =>
    cases hhandled with
    | resized => rfl
    | pasteStarted => rfl
    | pasteEnded => exact absurd rfl haction
    | collected => rfl
    | typing _ htyping =>
      cases htyping with
      | unused => rfl
      | _ => exact absurd rfl haction

end CodeArea

namespace Temperature

variable {keymap : CodeArea.Keymap} {s s' : State} {w : Embedded} {scale : Scale}
  {x y : CodeArea.State} {event : Event} {action : Action}

/-- The buffer of the other field, once a text of the scale has been converted. -/
def converted (scale : Scale) (text : String) (other : CodeBuffer) : CodeBuffer :=
  (convert? scale.formula text).elim other .atEnd

theorem converted_ne_iff {scale : Scale} {text : String} {other : CodeBuffer} :
    converted scale text other ≠ other ↔
      ∃ number, convert? scale.formula text = some number ∧ other ≠ .atEnd number := by
  rw [converted]
  cases convert? scale.formula text with
  | none => simp
  | some number => simp [eq_comm]

theorem rewritten_eq (scale : Scale) (x y : CodeArea.State) :
    rewritten scale x y = { y with buffer := converted scale x.buffer.content y.buffer } := by
  unfold rewritten converted
  cases convert? scale.formula x.buffer.content <;> rfl

/-! ### Steps -/

theorem Step.of_tab (h : Step keymap s (.key (.bare .tab)) action s') :
    action = .consumed ∧ s' = { s with focus := s.focus.other } := by
  cases h with
  | switched => exact ⟨rfl, rfl⟩
  | consumed htab => exact absurd rfl htab
  | other htab => exact absurd rfl htab

/-- Any other event is given to the focused field. -/
theorem Step.of_ne_tab (h : Step keymap s event action s') (htab : event ≠ .key (.bare .tab)) :
    s'.focus = s.focus ∧ CodeArea.Step keymap (s.field s.focus) event action (s'.field s.focus) ∧
      s'.field s.focus.other = { s.field s.focus.other with
        buffer := if action = .consumed then
          converted s.focus (s'.field s.focus).buffer.content (s.field s.focus.other).buffer
          else (s.field s.focus.other).buffer } := by
  have hne : s.focus ≠ s.focus.other := s.focus.other_ne.symm
  cases h with
  | switched => exact absurd rfl htab
  | @consumed _ x _ hfield =>
    have hfocused : ((s.set s.focus x).set s.focus.other
        (rewritten s.focus x (s.field s.focus.other))).field s.focus = x := by
      rw [field_set_of_ne hne, field_set_self]
    rw [hfocused, field_set_self, if_pos rfl, rewritten_eq]
    exact ⟨rfl, hfield, rfl⟩
  | @other _ _ x _ haction hfield =>
    rw [field_set_self, field_set_of_ne hne.symm, if_neg haction]
    exact ⟨rfl, hfield, rfl⟩

/-! ### Events -/

/-- The focused field is that of the scale; the buffers of it and of the other one. -/
structure Shows (w : Embedded) (scale : Scale) (focused other : CodeBuffer) : Prop where
  focus : w.tree.resolve (Path.root.child focusName) = some (.index scale.index)
  focused : w.tree.resolve (CodeArea.buffer (Path.root.child scale.name)).path =
    some (.buffer focused)
  other : w.tree.resolve (CodeArea.buffer (Path.root.child scale.other.name)).path =
    some (.buffer other)

theorem Ready.shows (h : Ready .root w.tree s) :
    Shows w s.focus (s.field s.focus).buffer (s.field s.focus.other).buffer :=
  ⟨h.focus, (h.field s.focus).resolve_buffer, (h.field s.focus.other).resolve_buffer⟩

theorem Ready.shows_of_step {w' : Embedded} (h : Ready .root w'.tree s')
    (hstep : Step keymap s event action s') (htab : event ≠ .key (.bare .tab)) :
    Shows w' s.focus (s'.field s.focus).buffer (if action = .consumed then
      converted s.focus (s'.field s.focus).buffer.content (s.field s.focus.other).buffer
      else (s.field s.focus.other).buffer) := by
  obtain ⟨hfocus, -, hother⟩ := hstep.of_ne_tab htab
  have hshows := h.shows
  rwa [hfocus, hother] at hshows

/-- Tab switches the fields and leaves both as they are. Any other event is a step of the focused
field, which consumes whatever it edits; the other one then holds the converted number if the event
was consumed and the focused field holds a number, and else stays as it was. So it changes exactly
if that number was not what it held before, edited or not. -/
def Rewrites (keymap : CodeArea.Keymap) (w : Embedded) (event : Event) : Prop :=
  ∃ scale x other action w', w.tree.HasField .root scale.name scale.prompt x ∧
    Shows w scale x.buffer other ∧ w.dispatch event = .ok (action, w') ∧
    (event = .key (.bare .tab) → action = .consumed ∧ Shows w' scale.other other x.buffer) ∧
    (event ≠ .key (.bare .tab) →
      ∃ x' other', CodeArea.Step keymap x event action x' ∧
        w'.tree.HasField .root scale.name scale.prompt x' ∧ Shows w' scale x'.buffer other' ∧
        (x'.buffer ≠ x.buffer → action = .consumed) ∧
        (other' = if action = .consumed then converted scale x'.buffer.content other else other) ∧
        (other' ≠ other ↔ action = .consumed ∧
          ∃ number, convert? scale.formula x'.buffer.content = some number ∧
            other ≠ .atEnd number))

/-- **What becomes of the other field**, however the converter got where it is. -/
theorem dispatch_rewrites (h : (machine keymap).Reachable w) (event : Event) :
    Rewrites keymap w event := by
  obtain ⟨s, _, _, hlive, -⟩ := h.exists_live
  obtain ⟨action, w', s', hdispatch, hstep, hlive'⟩ := hlive.exists_dispatch event
  have hready : Ready .root w.tree s := hlive.holds
  have hready' : Ready .root w'.tree s' := hlive'.holds
  refine ⟨s.focus, s.field s.focus, _, action, w', hready.field s.focus, hready.shows, hdispatch,
    ?_, fun htab => ?_⟩
  · rintro rfl
    obtain ⟨rfl, rfl⟩ := Step.of_tab hstep
    have hshows := hready'.shows
    have hother : s.focus.other.other = s.focus := by cases s.focus <;> rfl
    rw [hother] at hshows
    exact ⟨rfl, hshows⟩
  · obtain ⟨-, hfield, -⟩ := Step.of_ne_tab hstep htab
    refine ⟨_, _, hfield, hready'.field s.focus, hready'.shows_of_step hstep htab,
      fun hedit => ?_, rfl, ?_⟩
    · by_contra haction
      exact hedit (hfield.buffer_eq_of_ne haction)
    · split
      · rename_i haction
        rw [converted_ne_iff, and_iff_right haction]
      · rename_i haction
        exact iff_of_false (not_not_intro rfl) fun h => haction h.1

theorem reachable_start {w : Embedded} (h : Embedded.start (application keymap) = .ok w) :
    (machine keymap).Reachable w := ⟨w, [], [], h, rfl⟩

theorem dispatch_rewrites_digit :
    ∃ w, Embedded.start (application .submission) = .ok w ∧
      Rewrites .submission w (.key (.typed '1')) := by
  obtain ⟨w, hstart, -⟩ := (machine .submission).exists_start
  exact ⟨w, hstart, dispatch_rewrites (reachable_start hstart) _⟩

/-! ### An event that edits nothing -/

/-- A key types a character into the focused field, where no paste is in progress. -/
theorem Step.of_insertable {k : Key} {c : Char} (h : Step keymap s (.key k) action s')
    (hidle : (s.field s.focus).pasting = false) (hplain : (s.field s.focus).Plain)
    (hkey : k.literal? = some c) (hinsert : CodeArea.isInsertable c = true) :
    ∃ b streak, (s.field s.focus).buffer.insert (.singleton c) = .ok b ∧ s'.focus = s.focus ∧
      s'.field s.focus = { s.field s.focus with buffer := b, streak := streak } ∧
      s'.field s.focus.other = { s.field s.focus.other with
        buffer := converted s.focus b.content (s.field s.focus.other).buffer } := by
  have htab : Event.key k ≠ .key (.bare .tab) := by
    rintro ⟨⟩
    obtain rfl : '\t' = c := Option.some.inj hkey
    exact absurd hinsert (by decide)
  obtain ⟨hfocus, hfield, hother⟩ := h.of_ne_tab htab
  obtain ⟨rfl, b, streak, hb, hx⟩ := hfield.of_insertable hidle hplain hkey hinsert
  rw [hx, if_pos rfl] at hother
  exact ⟨b, streak, hb, hfocus, hx, hother⟩

/-- A character that typing inserts is typed into the focused field, and the focus is switched. -/
theorem run_typed_tab {c : Char} {actions : List Action}
    (h : (machine keymap).Run s [.key (.typed c), .key (.bare .tab)] actions s')
    (hidle : (s.field s.focus).pasting = false) (hplain : (s.field s.focus).Plain)
    (hinsert : CodeArea.isInsertable c = true) :
    ∃ b streak, (s.field s.focus).buffer.insert (.singleton c) = .ok b ∧
      s'.focus = s.focus.other ∧
      s'.field s.focus = { s.field s.focus with buffer := b, streak := streak } ∧
      s'.field s.focus.other = { s.field s.focus.other with
        buffer := converted s.focus b.content (s.field s.focus.other).buffer } := by
  have hkey : (Key.typed c).literal? = some c := CodeArea.literal?_typed_of_insertable hinsert
  cases h with | cons htyped h => ?_
  cases h with | cons htab h => ?_
  cases h
  obtain ⟨b, streak, hb, hfocus, hfield, hother⟩ :=
    Step.of_insertable htyped hidle hplain hkey hinsert
  obtain ⟨-, rfl⟩ := Step.of_tab htab
  exact ⟨b, streak, hb, congrArg Scale.other hfocus, hfield, hother⟩

theorem exists_converted_one :
    ∃ text, ∀ o, converted .celsius "1" o = .ofParts text "" := by
  obtain ⟨text, htext⟩ : ∃ text, convert? toFahrenheit "1" = some text := by
    rw [← Option.isSome_iff_exists, convert?, Option.isSome_map, Decimal.read?, Option.isSome_map]
    decide
  refine ⟨text, fun o => ?_⟩
  rw [converted, Scale.formula, htext, Option.elim_some, CodeBuffer.atEnd_eq_ofParts]

theorem converted_letter (scale : Scale) (text : String) (o : CodeBuffer) :
    converted scale (text ++ "x") o = o := by
  have hmem : 'x' ∈ (text ++ "x").toList := by simp
  rw [converted, convert?, Decimal.read?_eq_none (by decide) (by decide) hmem, Option.map_none,
    Option.elim_none]

/-- A number in one field, and its conversion with a letter after it in the other one. -/
theorem run_letter {actions : List Action}
    (h : (machine keymap).Run start [.key (.typed '1'), .key (.bare .tab), .key (.typed 'x'),
      .key (.bare .tab)] actions s) :
    s.focus = .celsius ∧ (s.field .celsius).buffer = .ofParts "1" "" ∧
      ∃ text, (∀ o, converted .celsius "1" o = .ofParts text "") ∧
        (s.field .fahrenheit).buffer = .ofParts (text ++ "x") "" := by
  have hsplit : (machine keymap).Run start ([.key (.typed '1'), .key (.bare .tab)] ++
      [.key (.typed 'x'), .key (.bare .tab)]) actions s := h
  obtain ⟨s₁, _, _, hdigit, hletter, -⟩ := hsplit.exists_of_append
  obtain ⟨text, htext⟩ := exists_converted_one
  obtain ⟨b, streak, hb, hfocus, hcelsius, hfahrenheit⟩ :=
    run_typed_tab hdigit rfl ⟨rfl, rfl, rfl⟩ (by decide)
  obtain rfl : CodeBuffer.ofParts "1" "" = b :=
    Except.ok.inj ((CodeBuffer.insert_ofParts "" "" "1").symm.trans hb)
  replace hfahrenheit : s₁.field .fahrenheit =
      { start.field .fahrenheit with buffer := .ofParts text "" } :=
    hfahrenheit.trans (congrArg (fun b => { start.field .fahrenheit with buffer := b }) (htext _))
  replace hfocus : s₁.focus = .fahrenheit := hfocus
  obtain ⟨b, streak', hb, hfocus', hfield, hother⟩ := run_typed_tab hletter
    (by rw [hfocus, hfahrenheit]; rfl) (by rw [hfocus, hfahrenheit]; exact ⟨rfl, rfl, rfl⟩)
    (by decide)
  rw [hfocus] at hb hfocus' hfield hother
  rw [hfahrenheit] at hb
  obtain rfl : CodeBuffer.ofParts (text ++ "x") "" = b :=
    Except.ok.inj ((CodeBuffer.insert_ofParts text "" "x").symm.trans hb)
  rw [CodeBuffer.content_ofParts, String.append_empty, converted_letter] at hother
  have hletters : (s.field .celsius).buffer = (s₁.field .celsius).buffer :=
    congrArg CodeArea.State.buffer hother
  refine ⟨hfocus', ?_, text, htext, congrArg CodeArea.State.buffer hfield⟩
  exact hletters.trans (congrArg CodeArea.State.buffer hcelsius)

theorem rewritten_without_edit :
    ∃ w₀ actions w w' b o o', Embedded.start (application .none) = .ok w₀ ∧
      w₀.dispatchAll [.key (.typed '1'), .key (.bare .tab), .key (.typed 'x'),
        .key (.bare .tab)] = .ok (actions, w) ∧
      w.dispatch (.paste true) = .ok (.consumed, w') ∧
      Shows w .celsius b o ∧ Shows w' .celsius b o' ∧ o' ≠ o := by
  obtain ⟨w₀, hstart, hlive₀⟩ := (machine .none).exists_start
  obtain ⟨actions, w, s, hdispatch, hrun, hlive⟩ := hlive₀.exists_dispatchAll
    [.key (.typed '1'), .key (.bare .tab), .key (.typed 'x'), .key (.bare .tab)]
  obtain ⟨action, w', s', hpaste, hstep, hlive'⟩ := hlive.exists_dispatch (.paste true)
  obtain ⟨hfocus, hcelsius, text, htext, hfahrenheit⟩ := run_letter hrun
  have hshows := Ready.shows hlive.holds
  have hshows' := Ready.shows_of_step hlive'.holds hstep (by decide)
  obtain ⟨-, hfield, -⟩ := Step.of_ne_tab hstep (by decide)
  obtain ⟨rfl, hstarted⟩ := hfield.of_pasteStart
  have hbuffer : (s'.field s.focus).buffer = (s.field s.focus).buffer := by rw [hstarted]
  rw [if_pos rfl, hbuffer, hfocus, hcelsius] at hshows'
  rw [hfocus, hcelsius] at hshows
  refine ⟨w₀, actions, w, w', _, _, _, hstart, hdispatch, hpaste, hshows, hshows', ?_⟩
  -- the conversion is written again, without the letter
  rw [Scale.other, hfahrenheit, CodeBuffer.content_ofParts, String.append_empty, htext]
  intro heq
  have hlength := congrArg (String.length ∘ CodeBuffer.content) heq
  simp at hlength

end Temperature

end TerminalUI
