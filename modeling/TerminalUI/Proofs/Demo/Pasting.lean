import TerminalUI.Proofs.CodeArea.Streak
import TerminalUI.Proofs.Demo.Checklist
import TerminalUI.Proofs.Demo.Rewriting

/-!
# Pastes into forms

A code area inserts a pasted text as a whole. A form that deals with some events itself before its
fields see them can come in between.

* In the converter, Tab never comes to a field. Without it, a paste is one into the focused field
  (`Temperature.run_of_tab_notMem`), and with it, no tab gets into a field
  (`Temperature.Step.held_isTab_le`), so the text is not inserted.
* In the to-do list, the marks of a paste never come to the field. So the keys type, and nothing but
  what typing inserts gets into it (`TodoList.Step.typed`).

Hence exactly some texts are inserted at once (`pasting_inserts_iff`). Others leave a field with a
paste that does not end, or add an entry (`pasting_interrupted`).
-/

namespace TerminalUI

/-- The start of a paste, a key for every character of a text, and the end. -/
def Event.pasting (text : String) : List Event :=
  .paste true :: ((text.toList.map Key.typed).map .key ++ [.paste false])

/-- The text with line feeds for carriage returns. -/
def lineFed (text : String) : String :=
  .ofList (text.toList.map fun c => if c = '\r' then '\n' else c)

theorem mem_lineFed {text : String} {c : Char} (h : c ∈ text.toList) :
    (if c = '\r' then '\n' else c) ∈ (lineFed text).toList := by
  rw [lineFed, String.toList_ofList]
  exact List.mem_map_of_mem h

namespace CodeArea

open CodeBuffer

variable {keymap : Keymap} {s s' : State} {event : Event} {action : Action} {kind : Char → Bool}

theorem lineFed_of_insertable {text : String} (h : ∀ c ∈ text.toList, isInsertable c = true) :
    lineFed text = text := by
  have hbreak : ∀ c ∈ text.toList, (if c = '\r' then '\n' else c) = c := by
    intro c hc
    refine if_neg fun hreturn => ?_
    subst hreturn
    exact absurd (h _ hc) (by decide)
  rw [lineFed, List.map_congr_left hbreak, List.map_id', String.ofList_toList]

theorem literals_map_typed (text : String) :
    literals (text.toList.map Key.typed) = lineFed text := by
  rw [literals, lineFed, List.filterMap_map, ← List.filterMap_eq_map]
  congr 2
  funext c
  exact Key.literal?_typed c

/-- Keys neither start nor end a paste. -/
theorem Step.pasting_eq_of_key {k : Key} (h : Step keymap s (.key k) action s') :
    s'.pasting = s.pasting := by
  cases h with
  | submitted => rfl
  | moved _ hhandled hmovement =>
    obtain ⟨_, -, -, -, rfl⟩ := hhandled.of_movement hmovement
    rfl
  | handled _ _ hhandled =>
    cases hhandled with
    | collected => rfl
    | typing _ htyping => exact htyping.pasting_eq

theorem Run.pasting_eq_of_keys {keys : List Key} {actions : List Action}
    (h : Run keymap s (keys.map .key) actions s') : s'.pasting = s.pasting := by
  induction keys generalizing s actions with
  | nil =>
    cases h
    rfl
  | cons k keys ih =>
    cases h with | cons hstep hrun => ?_
    exact (ih hrun).trans hstep.pasting_eq_of_key

/-! ### Characters of a kind -/

/-- Moving the dot leaves the content as it is. -/
theorem content_of_apply {m : Movement} {b b' : CodeBuffer} (h : m.apply b = .ok b') :
    b'.content = b.content := by
  unfold Movement.apply at h
  cases hsplit : b.split with
  | error e => simp [hsplit, bind, Except.bind] at h
  | ok parts =>
    rw [hsplit] at h
    obtain rfl := Except.ok.inj h
    rfl

/-- How many characters of a kind there are in the content, and in the text that a paste has
collected so far. -/
def State.held (kind : Char → Bool) (s : State) : Nat :=
  s.buffer.content.toList.countP kind + s.pasted.toList.countP kind

theorem Typing.held_le {k : Key} (h : Typing s k action s') (hplain : s.Plain)
    (hkind : ∀ c, isInsertable c = true → kind c = false) : s'.held kind ≤ s.held kind := by
  refine Nat.add_le_add ?_ ?_
  · cases h with
    | @deleted before after _ hbuffer =>
      have hdropped : before.toList.dropLast.countP kind ≤ before.toList.countP kind :=
        before.toList.dropLast_sublist.countP_le
      simp only [hbuffer, content_ofParts, String.toList_append, String.toList_ofList,
        List.countP_append]
      omega
    | typed _ hinsert hbuffer =>
      simp [hbuffer, List.countP_append, hkind _ hinsert]
    | expanded _ _ _ hexpands => exact absurd hexpands hplain.not_expands
    | unused => exact le_rfl
  · cases h <;> exact le_rfl

theorem countP_of_insert {b b' : CodeBuffer} {text : String} (hvalid : b.Valid)
    (h : b.insert text = .ok b') (kind : Char → Bool) :
    b'.content.toList.countP kind =
      b.content.toList.countP kind + text.toList.countP kind := by
  obtain ⟨before, after, rfl⟩ := valid_iff.1 hvalid
  rw [insert_ofParts, Except.ok.injEq] at h
  subst h
  simp only [content_ofParts, String.toList_append, List.countP_append]
  omega

/-- In a field of a form, characters of a kind that typing does not insert get no more, unless a
paste collects one. -/
theorem Step.held_le {prompt : StyledText} (h : Step keymap s event action s')
    (hs : s.configuration = { prompt := prompt })
    (hkind : ∀ c, isInsertable c = true → kind c = false)
    (hkey : ∀ k c, event = .key k → s.pasting = true → k.literal? = some c → kind c = false) :
    s'.held kind ≤ s.held kind := by
  cases h with
  | submitted => exact le_rfl
  | moved _ hhandled hmovement hb =>
    obtain ⟨_, rfl, -, -, rfl⟩ := hhandled.of_movement hmovement
    rw [State.held, State.held, content_of_apply hb]
  | handled _ _ hhandled =>
    cases hhandled with
    | resized => exact le_rfl
    | pasteStarted => simp [State.held]
    | pasteEnded hbuffer =>
      have hnone : "".toList.countP kind = 0 := rfl
      simp only [State.held, State.insertion_of_configuration hs, hbuffer, content_ofParts,
        String.toList_append, List.countP_append, hnone]
      omega
    | collected k hpasting =>
      have hliteral : (literalText k).toList.countP kind = 0 := by
        unfold literalText
        cases hliteral : k.literal? with
        | none => rfl
        | some c => simp [hkey k c rfl hpasting hliteral]
      simp [State.held, List.countP_append, hliteral]
    | typing _ htyping => exact htyping.held_le (State.plain_of_configuration hs) hkind

end CodeArea

theorem Key.eq_tab_of_literal? {c : Char} (h : (Key.typed c).literal? = some '\t') : c = '\t' := by
  rw [literal?_typed, Option.some.injEq] at h
  split at h
  · exact absurd h (by decide)
  · exact h

theorem Event.tab_notMem_pasting {text : String} (h : '\t' ∉ text.toList) :
    Event.key (.bare .tab) ∉ Event.pasting text := by
  intro hmem
  simp only [pasting, List.map_map, List.mem_cons, reduceCtorEq, List.mem_append, List.mem_map,
    Function.comp_apply, key.injEq, List.not_mem_nil, or_false, false_or] at hmem
  obtain ⟨c, hc, htyped⟩ := hmem
  obtain rfl : c = '\t' := Key.eq_tab_of_literal? (by rw [htyped]; rfl)
  exact h hc

/-- The events of a paste: its start and end, and keys that type characters. -/
inductive Event.OfPaste : Event → Prop where
  | mark (starts : Bool) : OfPaste (.paste starts)
  | typed (c : Char) : OfPaste (.key (.typed c))

theorem Event.ofPaste_of_mem_pasting {text : String} {event : Event}
    (h : event ∈ Event.pasting text) : event.OfPaste := by
  simp only [pasting, List.mem_cons, List.mem_append, List.mem_map, List.not_mem_nil,
    or_false] at h
  rcases h with rfl | ⟨_, ⟨c, -, rfl⟩, rfl⟩ | rfl
  · exact .mark true
  · exact .typed c
  · exact .mark false

namespace Temperature

variable {keymap : CodeArea.Keymap} {s s' : State} {w w' : Embedded} {scale : Scale}
  {event : Event} {action : Action} {events : List Event} {actions : List Action} {text : String}

theorem Scale.eq_or_eq_other (scale scale' : Scale) : scale = scale' ∨ scale = scale'.other := by
  cases scale <;> cases scale' <;> decide

/-- The fields are fields of a form. -/
def Configured (s : State) : Prop :=
  ∀ scale : Scale, (s.field scale).configuration = { prompt := .plain scale.prompt }

theorem Ready.configured {level : Path} {t : Tree} (h : Ready level t s) : Configured s :=
  fun scale => (h.field scale).configuration

theorem Step.configured (h : Step keymap s event action s') (hs : Configured s) :
    Configured s' := by
  intro scale
  by_cases htab : event = .key (.bare .tab)
  · subst htab
    obtain ⟨-, rfl⟩ := h.of_tab
    exact hs scale
  · obtain ⟨-, hfield, hother⟩ := h.of_ne_tab htab
    rcases scale.eq_or_eq_other s.focus with rfl | rfl
    · rw [hfield.configuration_eq]
      exact hs _
    · rw [hother]
      exact hs s.focus.other

/-- No field has a paste in progress. -/
def Idle (w : Embedded) : Prop :=
  ∀ scale : Scale, w.tree.resolve (CodeArea.pasting (Path.root.child scale.name)).path =
    some (.bool false)

/-- The focus stays, the text is inserted once at the dot of the focused field, and no field has a
paste in progress afterwards. -/
def Inserts (w : Embedded) (text : String) (w' : Embedded) : Prop :=
  ∃ scale b o b' o', Shows w scale b o ∧ b.insert text = .ok b' ∧ Shows w' scale b' o' ∧ Idle w'

theorem Ready.idle_iff (h : Ready .root w.tree s) :
    Idle w ↔ ∀ scale, (s.field scale).pasting = false := by
  refine forall_congr' fun scale => ?_
  rw [(h.field scale).resolve_pasting, Option.some.injEq, Value.bool.injEq]

theorem Shows.eq {scale' : Scale} {b o b' o' : CodeBuffer} (h : Shows w scale b o)
    (h' : Shows w scale' b' o') : scale = scale' ∧ b = b' := by
  have hindex := h.focus.symm.trans h'.focus
  obtain rfl : scale = scale' := by
    cases scale <;> cases scale' <;> first | rfl | exact absurd hindex (by simp [Scale.index])
  have hbuffer := h.focused.symm.trans h'.focused
  exact ⟨rfl, by simpa using hbuffer⟩

/-! ### Pastes without a tab -/

/-- Without Tab, all events are given to the field that is focused at first. -/
theorem run_of_tab_notMem (h : (machine keymap).Run s events actions s')
    (htab : Event.key (.bare .tab) ∉ events) :
    s'.focus = s.focus ∧
      CodeArea.Run keymap (s.field s.focus) events actions (s'.field s.focus) ∧
      (s'.field s.focus.other).pasting = (s.field s.focus.other).pasting := by
  induction h with
  | nil s => exact ⟨rfl, .nil _, rfl⟩
  | cons hstep _ ih =>
    rw [List.mem_cons, not_or] at htab
    obtain ⟨hfocus, hfield, hother⟩ := Step.of_ne_tab hstep (Ne.symm htab.1)
    obtain ⟨hfocus', hrun, hpasting⟩ := ih htab.2
    rw [hfocus] at hfocus' hrun hpasting
    refine ⟨hfocus', .cons hfield hrun, ?_⟩
    rw [hpasting, hother]

/-! ### Tabs -/

/-- Is the character a tab? -/
def isTab (c : Char) : Bool := c = '\t'

theorem countP_converted_le (scale : Scale) (text : String) (o : CodeBuffer) :
    (converted scale text o).content.toList.countP isTab ≤ o.content.toList.countP isTab := by
  unfold converted convert?
  cases Decimal.read? text with
  | none => exact le_rfl
  | some x =>
    have hnone : (Decimal.twoPlaces (scale.formula x)).toList.countP isTab = 0 := by
      rw [List.countP_eq_zero]
      intro c hc htab
      obtain rfl : c = '\t' := of_decide_eq_true htab
      exact absurd (Decimal.isNumeral_of_mem_twoPlaces hc) (by decide)
    exact hnone.trans_le (Nat.zero_le _)

/-- No event of a paste brings a tab into a field. -/
theorem Step.held_isTab_le (h : Step keymap s event action s') (hs : Configured s)
    (hevent : event.OfPaste) (scale : Scale) :
    (s'.field scale).held isTab ≤ (s.field scale).held isTab := by
  by_cases htab : event = .key (.bare .tab)
  · subst htab
    obtain ⟨-, rfl⟩ := h.of_tab
    exact le_rfl
  · obtain ⟨-, hfield, hother⟩ := h.of_ne_tab htab
    rcases scale.eq_or_eq_other s.focus with rfl | rfl
    · refine hfield.held_le (hs s.focus) (fun c hc => ?_) fun k c hk _ hc => ?_
      · refine decide_eq_false fun heq => ?_
        rw [heq] at hc
        exact absurd hc (by decide)
      · -- the key that types a tab is Tab
        refine decide_eq_false fun heq => ?_
        subst hk heq
        cases hevent with
        | typed c =>
          obtain rfl := Key.eq_tab_of_literal? hc
          exact htab rfl
    · rw [hother]
      refine Nat.add_le_add_right ?_ _
      dsimp only
      split
      · exact countP_converted_le _ _ _
      · exact le_rfl

theorem run_held_isTab_le (h : (machine keymap).Run s events actions s') (hs : Configured s)
    (hevents : ∀ event ∈ events, event.OfPaste) (scale : Scale) :
    (s'.field scale).held isTab ≤ (s.field scale).held isTab := by
  induction h with
  | nil => exact le_rfl
  | cons hstep _ ih =>
    obtain ⟨hevent, hevents⟩ := List.forall_mem_cons.1 hevents
    have hle := Step.held_isTab_le hstep hs hevent scale
    exact (ih (Step.configured hstep hs) hevents).trans hle

/-! ### Whole pastes -/

/-- A text without a tab is inserted as a whole. -/
theorem run_inserts (h : (machine keymap).Run s (Event.pasting text) actions s')
    (hs : Configured s) (htab : '\t' ∉ text.toList) :
    s'.focus = s.focus ∧
      (s.field s.focus).buffer.insert (lineFed text) = .ok (s'.field s.focus).buffer ∧
      (s'.field s.focus).pasting = false ∧
      (s'.field s.focus.other).pasting = (s.field s.focus.other).pasting := by
  obtain ⟨hfocus, hrun, hpasting⟩ := run_of_tab_notMem h (Event.tab_notMem_pasting htab)
  obtain ⟨before, after, hbuffer, -, hfield⟩ := hrun.of_paste
  rw [CodeArea.State.insertion_of_configuration (hs s.focus), CodeArea.literals_map_typed] at hfield
  refine ⟨hfocus, ?_, by rw [hfield], hpasting⟩
  rw [hfield, hbuffer, CodeBuffer.insert_ofParts]

/-- A text that is inserted as a whole has no tab. -/
theorem tab_notMem_of_run (h : (machine keymap).Run s (Event.pasting text) actions s')
    (hs : Configured s) (hvalid : (s.field s.focus).buffer.Valid)
    (hinsert : (s.field s.focus).buffer.insert (lineFed text) = .ok (s'.field s.focus).buffer) :
    '\t' ∉ text.toList := by
  intro htab
  -- after the start of the paste, the field holds the tabs of its content and no others
  cases h with | cons hstart hrest => ?_
  obtain ⟨-, hfield, -⟩ := Step.of_ne_tab hstart (by decide)
  obtain ⟨-, hstarted⟩ := hfield.of_pasteStart
  have hle := run_held_isTab_le hrest (Step.configured hstart hs)
    (fun event hmem => Event.ofPaste_of_mem_pasting (List.mem_cons_of_mem _ hmem)) s.focus
  rw [hstarted] at hle
  have hnone : "".toList.countP isTab = 0 := rfl
  have hcount := CodeArea.countP_of_insert hvalid hinsert isTab
  have hpos : 0 < (lineFed text).toList.countP isTab :=
    List.countP_pos_iff.2 ⟨'\t', mem_lineFed htab, rfl⟩
  simp only [CodeArea.State.held, hnone] at hle
  omega

/-- What a paste comes to, from any state. -/
theorem exists_dispatchAll_pasting (hlive : (machine keymap).Live w s) (hidle : Idle w)
    (text : String) :
    ∃ actions w', w.dispatchAll (Event.pasting text) = .ok (actions, w') ∧
      (Inserts w (lineFed text) w' ↔ '\t' ∉ text.toList) := by
  obtain ⟨actions, w', s', hdispatch, hrun, hlive'⟩ :=
    hlive.exists_dispatchAll (Event.pasting text)
  have hready : Ready .root w.tree s := hlive.holds
  have hready' : Ready .root w'.tree s' := hlive'.holds
  refine ⟨actions, w', hdispatch, fun h => ?_, fun htab => ?_⟩
  · obtain ⟨scale, b, o, b', o', hshows, hinsert, hshows', -⟩ := h
    obtain ⟨rfl, rfl⟩ := hshows.eq hready.shows
    obtain ⟨hfocus, rfl⟩ := hshows'.eq hready'.shows
    rw [← hfocus] at hinsert
    exact tab_notMem_of_run hrun hready.configured (hready.field s.focus).valid hinsert
  · obtain ⟨hfocus, hinsert, hfocused, hother⟩ := run_inserts hrun hready.configured htab
    rw [hready.idle_iff] at hidle
    refine ⟨s.focus, _, _, _, _, hready.shows, hinsert, hfocus ▸ hready'.shows,
      hready'.idle_iff.2 fun scale => ?_⟩
    rcases scale.eq_or_eq_other s.focus with rfl | rfl
    · exact hfocused
    · exact hother.trans (hidle _)

end Temperature

namespace TodoList

variable {keymap : CodeArea.Keymap} {s s' : State} {w w' : Embedded} {event : Event}
  {action : Action} {events : List Event} {actions : List Action} {text : String} {k : Key}

/-- The focus is on the field; the entries, and the buffer of the field. -/
structure Shows (w : Embedded) (todos : List Todo) (entry : CodeBuffer) : Prop where
  focus : w.tree.resolve (Path.root.child focusName) = some (.index 1)
  todos : w.tree.resolve (Path.root.child todosName) = some (.todos todos)
  entry : w.tree.resolve (CodeArea.buffer (Path.root.child newItemName)).path = some (.buffer entry)

/-- The field has no paste in progress. -/
def Idle (w : Embedded) : Prop :=
  w.tree.resolve (CodeArea.pasting (Path.root.child newItemName)).path = some (.bool false)

/-- The focus and the entries stay, the text is inserted once at the dot of the field, and the field
has no paste in progress afterwards. -/
def Inserts (w : Embedded) (text : String) (w' : Embedded) : Prop :=
  ∃ todos b b', Shows w todos b ∧ b.insert text = .ok b' ∧ Shows w' todos b' ∧ Idle w'

theorem Ready.shows (h : Ready .root w.tree s) (hfocus : s.focus = .entry) :
    Shows w s.todos s.entry.buffer :=
  ⟨by rw [h.focus, hfocus]; rfl, h.todos, h.entry.resolve_buffer⟩

theorem Ready.idle_iff (h : Ready .root w.tree s) : Idle w ↔ s.entry.pasting = false := by
  rw [Idle, h.entry.resolve_pasting, Option.some.injEq, Value.bool.injEq]

theorem Ready.eq_of_focus (h : Ready .root w.tree s)
    (hfocus : w.tree.resolve (Path.root.child focusName) = some (.index 1)) : s.focus = .entry := by
  have hindex := h.focus.symm.trans hfocus
  cases hpart : s.focus with
  | entry => rfl
  | list => simp [hpart, Part.index] at hindex

theorem Ready.eq_of_shows {todos : List Todo} {b : CodeBuffer} (h : Ready .root w.tree s)
    (hshows : Shows w todos b) : b = s.entry.buffer := by
  have hbuffer := hshows.entry.symm.trans h.entry.resolve_buffer
  simpa using hbuffer

/-! ### What the field can hold -/

/-- The field is that of a form, has no paste in progress, and holds nothing that typing does not
insert. -/
structure Typed (s : State) : Prop where
  configuration : s.entry.configuration = { prompt := .plain "new item: " }
  idle : s.entry.pasting = false
  held : s.entry.held (fun c => !CodeArea.isInsertable c) = 0

theorem typed_start : Typed {} := ⟨rfl, rfl, rfl⟩

theorem Typed.edit {x : CodeArea.State} (hs : Typed s)
    (h : CodeArea.Step keymap s.entry (.key k) action x) : Typed { s with entry := x } := by
  refine ⟨?_, ?_, ?_⟩
  · rw [← hs.configuration, ← h.configuration_eq]
  · exact h.pasting_eq_of_key.trans hs.idle
  · refine Nat.eq_zero_of_le_zero (hs.held ▸ h.held_le hs.configuration (fun c hc => ?_)
      fun _ _ _ hpasting => ?_)
    · simp [hc]
    · simp [hs.idle] at hpasting

/-- No event brings anything else into the field: pastes do not come to it at all. -/
theorem Step.typed (h : Step keymap s event action s') (hs : Typed s) : Typed s' := by
  cases h with
  | ignored => exact hs
  | switched => exact ⟨hs.configuration, hs.idle, hs.held⟩
  | moved => exact ⟨hs.configuration, hs.idle, hs.held⟩
  | lowered => exact ⟨hs.configuration, hs.idle, hs.held⟩
  | toggled => exact ⟨hs.configuration, hs.idle, hs.held⟩
  | unused => exact hs
  | added =>
    refine ⟨hs.configuration, hs.idle, Nat.eq_zero_of_le_zero (hs.held ▸ ?_)⟩
    exact Nat.add_le_add_right (Nat.zero_le _) _
  | edited _ _ _ _ hentry => exact hs.edit hentry
  | raised _ hentry =>
    have htyped := hs.edit hentry
    exact ⟨htyped.configuration, htyped.idle, htyped.held⟩

/-! ### Pastes -/

theorem Step.of_paste {starts : Bool} (h : Step keymap s (.paste starts) action s') : s' = s := by
  cases h
  rfl

/-- A key that types an insertable character comes to the field. -/
theorem Step.of_insertable {c : Char} (h : Step keymap s (.key k) action s')
    (hfocus : s.focus = .entry) (hkey : k.literal? = some c)
    (hinsert : CodeArea.isInsertable c = true) :
    ∃ x, CodeArea.Step keymap s.entry (.key k) action x ∧ s' = { s with entry := x } := by
  have hnotList (hlist : s.focus = .list) : False := by simp [hfocus] at hlist
  cases h with
  | ignored hnone => cases hnone
  | switched =>
    obtain rfl : '\t' = c := Option.some.inj hkey
    exact absurd hinsert (by decide)
  | moved hlist => exact (hnotList hlist).elim
  | lowered hlist => exact (hnotList hlist).elim
  | toggled hlist => exact (hnotList hlist).elim
  | unused hlist => exact (hnotList hlist).elim
  | added =>
    obtain rfl : '\n' = c := Option.some.inj hkey
    exact absurd hinsert (by decide)
  | edited _ _ _ _ hentry => exact ⟨_, hentry, rfl⟩
  | raised => cases hkey

theorem run_of_insertable {keys : List Key}
    (h : (machine keymap).Run s (keys.map .key) actions s') (hfocus : s.focus = .entry)
    (hkeys : ∀ k ∈ keys, ∃ c, k.literal? = some c ∧ CodeArea.isInsertable c = true) :
    ∃ x, CodeArea.Run keymap s.entry (keys.map .key) actions x ∧ s' = { s with entry := x } := by
  induction keys generalizing s actions with
  | nil =>
    cases h
    exact ⟨_, .nil _, rfl⟩
  | cons k keys ih =>
    obtain ⟨⟨c, hkey, hinsert⟩, hkeys⟩ := List.forall_mem_cons.1 hkeys
    cases h with | cons hstep hrun => ?_
    obtain ⟨x, hentry, rfl⟩ := Step.of_insertable hstep hfocus hkey hinsert
    obtain ⟨x', hrun', rfl⟩ := ih hrun hfocus hkeys
    exact ⟨x', .cons hentry hrun', rfl⟩

/-- A text of insertable characters is typed into the field. -/
theorem run_inserts (h : (machine keymap).Run s (Event.pasting text) actions s')
    (hs : Typed s) (hvalid : s.entry.buffer.Valid) (hfocus : s.focus = .entry)
    (hinsertable : ∀ c ∈ text.toList, CodeArea.isInsertable c = true) :
    ∃ b streak, s.entry.buffer.insert (lineFed text) = .ok b ∧
      s' = { s with entry := { s.entry with buffer := b, streak := streak } } := by
  -- the marks of the paste do nothing, and the keys in between come to the field
  cases h with | cons hstart hrest => ?_
  obtain rfl := Step.of_paste hstart
  obtain ⟨s₁, _, _, hkeys, hend, -⟩ := hrest.exists_of_append
  cases hend with | cons hmark hnil => ?_
  cases hnil
  obtain rfl := Step.of_paste hmark
  have hinserts : ∀ k ∈ text.toList.map Key.typed,
      ∃ c, k.literal? = some c ∧ CodeArea.isInsertable c = true := by
    simp only [List.mem_map]
    rintro _ ⟨c, hc, rfl⟩
    exact ⟨c, CodeArea.literal?_typed_of_insertable (hinsertable c hc), hinsertable c hc⟩
  obtain ⟨x, hentry, rfl⟩ := run_of_insertable hkeys hfocus hinserts
  obtain ⟨-, b, streak, hinsert, rfl⟩ := hentry.of_typing hvalid hs.idle
    (CodeArea.State.plain_of_configuration hs.configuration) (CodeArea.types_typed hinsertable)
  rw [CodeArea.lineFed_of_insertable hinsertable]
  exact ⟨b, streak, hinsert, rfl⟩

/-- A text that the field holds afterwards is made of insertable characters. -/
theorem Typed.insertable {s' : State} (hs' : Typed s') {b : CodeBuffer} (hvalid : b.Valid)
    (hinsert : b.insert (lineFed text) = .ok s'.entry.buffer) :
    ∀ c ∈ text.toList, CodeArea.isInsertable c = true := by
  intro c hc
  have hcount := CodeArea.countP_of_insert hvalid hinsert (fun c => !CodeArea.isInsertable c)
  have hheld := hs'.held
  unfold CodeArea.State.held at hheld
  have hnone : (lineFed text).toList.countP (fun c => !CodeArea.isInsertable c) = 0 := by omega
  have hfed := List.countP_eq_zero.1 hnone _ (mem_lineFed hc)
  by_cases hreturn : c = '\r'
  · subst hreturn
    exact absurd rfl hfed
  · simpa [hreturn] using hfed

/-- What a paste comes to while the focus is on the field. -/
theorem exists_dispatchAll_pasting (hlive : (machine keymap).Live w s) (htyped : Typed s)
    (hfocus : s.focus = .entry) (text : String) :
    ∃ actions w', w.dispatchAll (Event.pasting text) = .ok (actions, w') ∧
      (Inserts w (lineFed text) w' ↔ ∀ c ∈ text.toList, CodeArea.isInsertable c = true) := by
  obtain ⟨actions, w', s', hdispatch, hrun, hlive'⟩ :=
    hlive.exists_dispatchAll (Event.pasting text)
  have hready : Ready .root w.tree s := hlive.holds
  have hready' : Ready .root w'.tree s' := hlive'.holds
  have htyped' : Typed s' := hrun.invariant (fun hs hstep => Step.typed hstep hs) htyped
  refine ⟨actions, w', hdispatch, fun h => ?_, fun hinsertable => ?_⟩
  · obtain ⟨todos, b, b', hshows, hinsert, hshows', -⟩ := h
    obtain rfl := hready.eq_of_shows hshows
    obtain rfl := hready'.eq_of_shows hshows'
    exact htyped'.insertable hready.entry.valid hinsert
  · obtain ⟨b, streak, hinsert, rfl⟩ :=
      run_inserts hrun htyped hready.entry.valid hfocus hinsertable
    exact ⟨_, _, b, hready.shows hfocus, hinsert, hready'.shows hfocus,
      hready'.idle_iff.2 htyped'.idle⟩

end TodoList

/-! ### When a paste is one insertion -/

/-- **Pastes into forms.** However a converter got where it is without a paste in progress, a pasted
text is one insertion into the focused field exactly if there is no tab in it. However a to-do list
got where it is, with the focus on the field, it is one insertion there exactly if it is made of
characters that typing inserts. -/
theorem pasting_inserts_iff (keymap : CodeArea.Keymap) :
    (∀ w, (Temperature.machine keymap).Reachable w → Temperature.Idle w → ∀ text : String,
      ∃ actions w', w.dispatchAll (Event.pasting text) = .ok (actions, w') ∧
        (Temperature.Inserts w (lineFed text) w' ↔ '\t' ∉ text.toList)) ∧
    ∀ w, (TodoList.machine keymap).Reachable w →
      w.tree.resolve (Path.root.child focusName) = some (.index 1) → ∀ text : String,
      ∃ actions w', w.dispatchAll (Event.pasting text) = .ok (actions, w') ∧
        (TodoList.Inserts w (lineFed text) w' ↔
          ∀ c ∈ text.toList, CodeArea.isInsertable c = true) := by
  refine ⟨fun w h hidle text => ?_, fun w h hfocus text => ?_⟩
  · obtain ⟨s, _, _, hlive, -⟩ := h.exists_live
    exact Temperature.exists_dispatchAll_pasting hlive hidle text
  · obtain ⟨s, _, _, hlive, hrun⟩ := h.exists_live
    have hready : TodoList.Ready .root w.tree s := hlive.holds
    have htyped : TodoList.Typed s :=
      hrun.invariant (fun hs hstep => TodoList.Step.typed hstep hs) TodoList.typed_start
    exact TodoList.exists_dispatchAll_pasting hlive htyped (hready.eq_of_focus hfocus) text

theorem pasting_inserts_iff_two_lines :
    (∃ w, Embedded.start (Temperature.application .submission) = .ok w ∧ Temperature.Idle w ∧
      ∃ actions w', w.dispatchAll (Event.pasting "1\r2") = .ok (actions, w') ∧
        (Temperature.Inserts w (lineFed "1\r2") w' ↔ '\t' ∉ "1\r2".toList)) ∧
    ∃ w, Embedded.start (TodoList.application .submission) = .ok w ∧
      w.tree.resolve (Path.root.child focusName) = some (.index 1) ∧
      ∃ actions w', w.dispatchAll (Event.pasting "tea, milk") = .ok (actions, w') ∧
        (TodoList.Inserts w (lineFed "tea, milk") w' ↔
          ∀ c ∈ "tea, milk".toList, CodeArea.isInsertable c = true) := by
  obtain ⟨w, hstart, hlive⟩ := (Temperature.machine .submission).exists_start
  obtain ⟨w', hstart', hlive'⟩ := (TodoList.machine .submission).exists_start
  have hidle : Temperature.Idle w := (Temperature.Ready.idle_iff hlive.holds).2 fun _ => rfl
  have hfocus : w'.tree.resolve (Path.root.child focusName) = some (.index 1) :=
    TodoList.Ready.focus hlive'.holds
  exact ⟨⟨w, hstart, hidle,
      (pasting_inserts_iff .submission).1 w ⟨w, [], [], hstart, rfl⟩ hidle "1\r2"⟩,
    w', hstart', hfocus,
      (pasting_inserts_iff .submission).2 w' ⟨w', [], [], hstart', rfl⟩ hfocus "tea, milk"⟩

/-! ### Pastes that are not -/

namespace Temperature

variable {keymap : CodeArea.Keymap} {s : State} {actions : List Action}

/-- Tab takes the focus away during a paste, and the end of the paste comes to the other field. -/
theorem run_paste_tab (h : (machine keymap).Run start (Event.pasting "a\tb") actions s) :
    s.focus = .fahrenheit ∧ (s.field .celsius).pasting = true := by
  have hsplit : (machine keymap).Run start ([.paste true, .key (.typed 'a')] ++
      .key (.bare .tab) :: [.key (.typed 'b'), .paste false]) actions s := h
  obtain ⟨s₁, _, _, hfirst, hrest, -⟩ := hsplit.exists_of_append
  obtain ⟨hfocus, hcelsius, -⟩ := run_of_tab_notMem hfirst (by decide)
  have hpasting : (s₁.field .celsius).pasting = true := by
    cases hcelsius with | cons hmark hkey => ?_
    obtain ⟨-, rfl⟩ := hmark.of_pasteStart
    have hkeys : CodeArea.Run keymap _ ([Key.typed 'a'].map .key) _ _ := hkey
    exact hkeys.pasting_eq_of_keys
  cases hrest with | cons htab hrest => ?_
  obtain ⟨-, rfl⟩ := Step.of_tab htab
  obtain ⟨hfocus', -, hother⟩ := run_of_tab_notMem hrest (by decide)
  dsimp only at hfocus' hother
  rw [hfocus] at hfocus' hother
  exact ⟨hfocus', hother.trans hpasting⟩

end Temperature

namespace TodoList

variable {keymap : CodeArea.Keymap} {s s' : State} {action : Action} {actions : List Action}

theorem Step.of_enter (h : Step keymap s (.key (.bare .enter)) action s')
    (hfocus : s.focus = .entry) :
    s'.todos = s.todos ++ [⟨s.entry.buffer.content, false⟩] ∧ s'.focus = .entry := by
  have hnotList (hlist : s.focus = .list) : False := by simp [hfocus] at hlist
  cases h with
  | ignored hnone => cases hnone
  | moved hlist => exact (hnotList hlist).elim
  | unused hlist => exact (hnotList hlist).elim
  | added => exact ⟨rfl, hfocus⟩
  | edited _ _ henter => exact absurd rfl henter

/-- Enter adds what was pasted before it. -/
theorem run_paste_enter (h : (machine keymap).Run {} (Event.pasting "a\nb") actions s) :
    s.todos = [⟨"a", false⟩] := by
  have hsplit : (machine keymap).Run {} (.paste true :: .key (.typed 'a') ::
      .key (.bare .enter) :: [.key (.typed 'b'), .paste false]) actions s := h
  cases hsplit with | cons hstart h => ?_
  cases h with | cons htyped h => ?_
  cases h with | cons henter h => ?_
  cases h with | cons htyped' h => ?_
  cases h with | cons hend h => ?_
  cases h
  obtain rfl := Step.of_paste hstart
  obtain rfl := Step.of_paste hend
  obtain ⟨x, hentry, rfl⟩ := Step.of_insertable htyped rfl rfl (by decide)
  obtain ⟨-, b, streak, hb, rfl⟩ := hentry.of_insertable rfl ⟨rfl, rfl, rfl⟩ rfl (by decide)
  obtain rfl : CodeBuffer.ofParts "a" "" = b :=
    Except.ok.inj ((CodeBuffer.insert_ofParts "" "" "a").symm.trans hb)
  obtain ⟨htodos, hfocus⟩ := Step.of_enter henter rfl
  obtain ⟨x', -, rfl⟩ := Step.of_insertable htyped' hfocus rfl (by decide)
  exact htodos

end TodoList

theorem pasting_interrupted :
    (∃ w actions w', Embedded.start (Temperature.application .none) = .ok w ∧
      w.dispatchAll (Event.pasting "a\tb") = .ok (actions, w') ∧
      w'.tree.resolve (Path.root.child focusName) = some (.index 1) ∧
      w'.tree.resolve (CodeArea.pasting (Path.root.child Temperature.celsiusName)).path =
        some (.bool true)) ∧
    ∃ w actions w', Embedded.start (TodoList.application .none) = .ok w ∧
      w.dispatchAll (Event.pasting "a\nb") = .ok (actions, w') ∧
      w'.tree.resolve (Path.root.child TodoList.todosName) = some (.todos [⟨"a", false⟩]) := by
  refine ⟨?_, ?_⟩
  · obtain ⟨w, hstart, hlive⟩ := (Temperature.machine .none).exists_start
    obtain ⟨actions, w', s, hdispatch, hrun, hlive'⟩ :=
      hlive.exists_dispatchAll (Event.pasting "a\tb")
    obtain ⟨hfocus, hpasting⟩ := Temperature.run_paste_tab hrun
    have hready : Temperature.Ready .root w'.tree s := hlive'.holds
    refine ⟨w, actions, w', hstart, hdispatch, ?_, ?_⟩
    · rw [hready.focus, hfocus]
      rfl
    · rw [← hpasting]
      exact (hready.field .celsius).resolve_pasting
  · obtain ⟨w, hstart, hlive⟩ := (TodoList.machine .none).exists_start
    obtain ⟨actions, w', s, hdispatch, hrun, hlive'⟩ :=
      hlive.exists_dispatchAll (Event.pasting "a\nb")
    have hready : TodoList.Ready .root w'.tree s := hlive'.holds
    refine ⟨w, actions, w', hstart, hdispatch, ?_⟩
    rw [hready.todos, TodoList.run_paste_enter hrun]

end TerminalUI
