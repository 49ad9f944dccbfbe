import TerminalUI.Proofs.Application.Machine
import TerminalUI.Proofs.Demo.Buttons
import TerminalUI.Proofs.Demo.Fields
import TerminalUI.Proofs.Demo.Lists
import TerminalUI.Proofs.Demo.Portable

/-!
# Runs of the flight booker

The flight booker is a list box with the trip types, two fields for dates, a button, and a focus on
one of the four. `Flight.Reacts` tells what the focused part makes of an event, and `Flight.Step`
what the form does then: it moves the focus for an event that the part had no use for. The flight
booker started on the empty tree is a machine with these steps, under every keymap
(`Flight.machine`).
-/

namespace TerminalUI

namespace Flight

/-! ### States and steps -/

/-- The dates of a trip. -/
inductive Date where
  | outbound | inbound
  deriving DecidableEq

namespace Date

/-- The name of the field. -/
def name : Date → Name
  | outbound => outboundName
  | inbound => inboundName

/-- The prompt of the field. -/
def prompt : Date → String
  | outbound => "outbound: "
  | inbound => "inbound:  "

/-- No other entry of the form has the name of a field. -/
theorem name_ne (date : Date) {key : Name}
    (hkey : key ∈ [statusName, typeName, bookName, focusName]) : date.name ≠ key := by
  rintro rfl
  cases date <;> exact absurd hkey (by decide)

theorem name_inj {date date' : Date} (h : date.name = date'.name) : date = date' := by
  cases date <;> cases date' <;> first | rfl | exact absurd h (by decide)

end Date

/-- The parts that can have the focus. -/
inductive Part where
  | type | date (date : Date) | book
  deriving DecidableEq

namespace Part

/-- The focus on the part. -/
def index : Part → Nat
  | type => 0
  | date .outbound => 1
  | date .inbound => 2
  | book => 3

theorem index_lt (part : Part) : part.index < 4 := by rcases part with _ | ⟨⟨⟩⟩ | _ <;> decide

theorem exists_index_eq {i : Nat} (h : i < 4) : ∃ part : Part, part.index = i :=
  match i, h with
  | 0, _ => ⟨type, rfl⟩
  | 1, _ => ⟨date .outbound, rfl⟩
  | 2, _ => ⟨date .inbound, rfl⟩
  | 3, _ => ⟨book, rfl⟩

theorem eq_of_index_eq {part part' : Part} (h : part.index = part'.index) : part = part' := by
  rcases part with _ | ⟨⟨⟩⟩ | _ <;> rcases part' with _ | ⟨⟨⟩⟩ | _ <;>
    first | rfl | exact absurd h (by decide)

/-- No part is before the trip type. -/
theorem eq_type {part : Part} (h : ¬ 0 < part.index) : part = type :=
  eq_of_index_eq (show part.index = index type from Nat.eq_zero_of_not_pos h)

/-- No part is after the button. -/
theorem eq_book {part : Part} (h : ¬ part.index + 1 < 4) : part = book := by
  have hlt := part.index_lt
  have hlast : part.index = 3 := by omega
  exact eq_of_index_eq (hlast.trans (show 3 = index book from rfl))

end Part

/-- The trip types. -/
def trips : Items := .ofStrings ["one-way", "return"]

/-- What a flight booker goes through: the text about the booking, the selected trip type, the
states of the fields, and the focus. -/
structure State where
  status : String := ""
  selected : Nat := 0
  field : Date → CodeArea.State := fun date => { prompt := .plain date.prompt }
  focus : Part := .type

/-- The state with another one of a field. -/
def State.set (s : State) (date : Date) (x : CodeArea.State) : State :=
  { s with field := Function.update s.field date x }

/-- The text about a booking, for a selected trip type and the dates. -/
def bookingOf (selected : Nat) (outbound inbound : String) : String :=
  if selected = 0 then "booked one-way on " ++ outbound
  else "booked " ++ outbound ++ " returning " ++ inbound

/-- The text about the booking as it is. -/
def State.booking (s : State) : String :=
  bookingOf s.selected (s.field .outbound).buffer.content (s.field .inbound).buffer.content

/-- What the focused part makes of an event. -/
inductive Reacts (keymap : CodeArea.Keymap) (s : State) (event : Event) :
    Action → State → Prop where
  | selected {action : Action} {i : Nat} (hfocus : s.focus = .type)
    (hmoves : ListBox.Moves (some trips) s.selected event action i) :
    Reacts keymap s event action { s with selected := i }
  | edited {date : Date} {action : Action} {x : CodeArea.State} (hfocus : s.focus = .date date)
    (hfield : CodeArea.Step keymap (s.field date) event action x) :
    Reacts keymap s event action (s.set date x)
  | booked (hfocus : s.focus = .book) (hpresses : event.Presses) :
    Reacts keymap s event .consumed { s with status := s.booking }
  | idle (hfocus : s.focus = .book) (hpresses : ¬ event.Presses) :
    Reacts keymap s event .unused s

/-- What becomes of an event. -/
inductive Step (keymap : CodeArea.Keymap) (s : State) (event : Event) : Action → State → Prop where
  | taken {action : Action} {s' : State} (hreacts : Reacts keymap s event action s')
    (haction : action ≠ .unused) : Step keymap s event action s'
  | forward {s' : State} {part : Part} (hreacts : Reacts keymap s event .unused s')
    (hevent : isForward event = true) (hpart : part.index = s.focus.index + 1) :
    Step keymap s event .consumed { s' with focus := part }
  | backward {s' : State} {part : Part} (hreacts : Reacts keymap s event .unused s')
    (hevent : isBackward event = true) (hpart : part.index + 1 = s.focus.index) :
    Step keymap s event .consumed { s' with focus := part }
  | unused {s' : State} (hreacts : Reacts keymap s event .unused s')
    (hforward : isForward event = true → s.focus = .book)
    (hbackward : isBackward event = true → s.focus = .type) : Step keymap s event .unused s'

variable {keymap : CodeArea.Keymap} {hook : Option Hook} {level : Path} {t t' : Tree}
  {journal : List JournalEntry} {s s' : State} {date : Date} {part : Part} {x : CodeArea.State}
  {i : Nat} {event : Event} {action : Action}

theorem field_set_self (s : State) (date : Date) (x : CodeArea.State) :
    (s.set date x).field date = x := Function.update_self ..

theorem field_set_of_ne {date' : Date} (h : date' ≠ date) (s : State) (x : CodeArea.State) :
    (s.set date x).field date' = s.field date' := Function.update_of_ne h ..

/-! ### The tree -/

/-- What a press of the button does. -/
def press (level : Path) : Press := .book level (level.child statusName)

/-- The tree holds all of the state. -/
structure Ready (level : Path) (t : Tree) (s : State) : Prop where
  status : t.resolve (level.child statusName) = some (.string s.status)
  type : t.HasListBox (some trips) level typeName (some trips) s.selected
  field : ∀ date : Date, t.HasField level date.name date.prompt (s.field date)
  book : t.HasButton level bookName "Book" (press level)
  focus : t.resolve (level.child focusName) = some (.index s.focus.index)

theorem Ready.exists_map (h : Ready level t s) : ∃ m, t.resolve level = some (.map m) :=
  Tree.exists_map_of_child h.focus

theorem Ready.setStatus {text : String} (h : Ready level t s)
    (hsame : t.SameBeside level {statusName} t')
    (hstatus : t'.resolve (level.child statusName) = some (.string text)) :
    Ready level t' { s with status := text } where
  status := hstatus
  type := h.type.beside hsame (by decide)
  field date := (h.field date).beside hsame (date.name_ne (by decide))
  book := h.book.beside hsame (by decide)
  focus := (hsame.resolve_child (by decide)).trans h.focus

theorem Ready.setType (h : Ready level t s) (hsame : t.SameBeside level {typeName} t')
    (htype : t'.HasListBox (some trips) level typeName (some trips) i) :
    Ready level t' { s with selected := i } where
  status := (hsame.resolve_child (by decide)).trans h.status
  type := htype
  field date := (h.field date).beside hsame (date.name_ne (by decide))
  book := h.book.beside hsame (by decide)
  focus := (hsame.resolve_child (by decide)).trans h.focus

/-- One field is written, and the other one stays. -/
theorem Ready.setField (h : Ready level t s) (hsame : t.SameBeside level {date.name} t')
    (hfield : t'.HasField level date.name date.prompt x) : Ready level t' (s.set date x) where
  status := by
    rw [hsame.resolve_child (date.name_ne (by decide)).symm]
    exact h.status
  type := h.type.beside hsame (date.name_ne (by decide)).symm
  field date' := by
    by_cases heq : date' = date
    · rw [heq, field_set_self]
      exact hfield
    · rw [field_set_of_ne heq]
      exact (h.field date').beside hsame fun hname => heq (Date.name_inj hname)
  book := h.book.beside hsame (date.name_ne (by decide)).symm
  focus := by
    rw [hsame.resolve_child (date.name_ne (by decide)).symm]
    exact h.focus

theorem Ready.setBook (h : Ready level t s) (hsame : t.SameBeside level {bookName} t')
    (hbook : t'.HasButton level bookName "Book" (press level)) : Ready level t' s where
  status := (hsame.resolve_child (by decide)).trans h.status
  type := h.type.beside hsame (by decide)
  field date := (h.field date).beside hsame (date.name_ne (by decide))
  book := hbook
  focus := (hsame.resolve_child (by decide)).trans h.focus

theorem Ready.setFocus (h : Ready level t s) (hsame : t.SameBeside level {focusName} t')
    (hfocus : t'.resolve (level.child focusName) = some (.index part.index)) :
    Ready level t' { s with focus := part } where
  status := (hsame.resolve_child (by decide)).trans h.status
  type := h.type.beside hsame (by decide)
  field date := (h.field date).beside hsame (date.name_ne (by decide))
  book := h.book.beside hsame (by decide)
  focus := hfocus

/-! ### Events -/

/-- The handler of a part. -/
def partHandler (level : Path) : Part → Handler
  | .type => Tree.listHandler (level.child typeName)
  | .date date => CodeArea.handler (level.child date.name)
  | .book => Tree.buttonHandler (level.child bookName)

/-- The handlers of the parts, in their order. -/
def partHandlers (level : Path) : List Handler :=
  [partHandler level .type, partHandler level (.date .outbound), partHandler level (.date .inbound),
    partHandler level .book]

theorem getElem?_partHandlers (level : Path) (part : Part) :
    (partHandlers level)[part.index]? = some (partHandler level part) := by
  rcases part with _ | ⟨⟨⟩⟩ | _ <;> rfl

/-- The handler of the scenes at a level, with the focus that they are made with. -/
def sceneHandler (level : Path) (part : Part) : Handler :=
  handler ⟨level.child focusName⟩ part.index (partHandlers level)

variable (hook) (journal) in
/-- The text about the booking is that of the parts as they are. -/
theorem Ready.run_bookingText (h : Ready level t s) :
    ((bookingText level).run hook).run ⟨t, journal⟩ = (.ok s.booking, ⟨t, journal⟩) := by
  have hjoin (name key : String) : level.join [name, key] = (level.child name).child key :=
    Path.join_cons level name [key]
  have hselected : ((Var.getD (Var.mk (level.join ["type", "selected"])) 0).run hook).run
      ⟨t, journal⟩ = (.ok s.selected, ⟨t, journal⟩) := by
    rw [hjoin]
    exact Var.run_getD_of_resolve hook h.type.ready.selected 0
  have hdate (date : Date) : ((Var.getD (Var.mk (level.join [date.name.text, "buffer"]))
      ({} : CodeBuffer)).run hook).run ⟨t, journal⟩ =
      (.ok (s.field date).buffer, ⟨t, journal⟩) := by
    rw [hjoin]
    exact Var.run_getD_of_resolve (a := (s.field date).buffer) hook (h.field date).resolve_buffer {}
  rw [bookingText]
  refine (Program.run_bind_of_ok hselected _).trans ?_
  rw [State.booking, bookingOf]
  split
  · exact Program.run_bind_of_ok (Program.run_bind_of_ok (hdate .outbound) _) _
  · refine (Program.run_bind_of_ok (Program.run_bind_of_ok (hdate .outbound) _) _).trans ?_
    exact Program.run_bind_of_ok (Program.run_bind_of_ok (hdate .inbound) _) _

variable (hook) (journal) in
theorem Ready.exists_run_press (h : Ready level t s) :
    ∃ t', (((press level).run).run hook).run ⟨t, journal⟩ = (.ok .consumed, ⟨t', journal⟩) ∧
      Ready level t' { s with status := s.booking } := by
  obtain ⟨m, hm⟩ := h.exists_map
  obtain ⟨t', hset, hstatus, hsame⟩ := Var.exists_run_set_entry hook journal hm s.booking
  refine ⟨t', ?_, h.setStatus hsame hstatus⟩
  rw [press, Press.run]
  refine (Program.run_bind_of_ok (h.run_bookingText hook journal) _).trans ?_
  exact Program.run_bind_of_ok hset _

variable (journal) in
/-- The focused part reacts to every event. -/
theorem Ready.exists_run_part (h : Ready level t s) (keymap : CodeArea.Keymap) (event : Event) :
    ∃ action s' t', ((partHandler level s.focus event).run keymap.hook).run ⟨t, journal⟩ =
        (.ok action, ⟨t', journal⟩) ∧
      Reacts keymap s event action s' ∧ Ready level t' s' := by
  cases hfocus : s.focus with
  | type =>
    obtain ⟨action, i, t', hrun, hmoves, htype, hsame⟩ :=
      h.type.exists_run_handler journal keymap event
    exact ⟨action, _, t', hrun, .selected hfocus hmoves, h.setType hsame htype⟩
  | date date =>
    obtain ⟨action, x, t', hrun, hstep, hfield, hsame⟩ :=
      (h.field date).exists_run_handler journal keymap event
    exact ⟨action, _, t', hrun, .edited hfocus hstep, h.setField hsame hfield⟩
  | book =>
    obtain ⟨action, s', t₁, hrun₁, hreacts, h₁⟩ : ∃ action s' t₁,
        ((Button.handler (Button.press (level.child bookName)) event).run keymap.hook).run
          ⟨t, journal⟩ = (.ok action, ⟨t₁, journal⟩) ∧
        Reacts keymap s event action s' ∧ Ready level t₁ s' := by
      rw [h.book.run_handler]
      by_cases hpresses : event.Presses
      · obtain ⟨t₁, hpress, h₁⟩ := h.exists_run_press keymap.hook journal
        exact ⟨_, _, t₁, by rw [if_pos hpresses]; exact hpress, .booked hfocus hpresses, h₁⟩
      · exact ⟨_, _, t, by rw [if_neg hpresses]; rfl, .idle hfocus hpresses, h⟩
    obtain ⟨t', hrun, hsame⟩ :=
      keymap.exists_run_binding (show Button.tag ≠ CodeArea.tag by decide) hrun₁
    refine ⟨action, s', t', hrun, hreacts, h₁.setBook hsame.of_child ?_⟩
    exact h₁.book.congr fun key hkey => hsame.resolve_child hkey

variable (hook) (journal) in
theorem Ready.exists_run_setFocus (h : Ready level t s) (part : Part) :
    ∃ t', ((Var.set ⟨level.child focusName⟩ part.index).run hook).run ⟨t, journal⟩ =
        (.ok (), ⟨t', journal⟩) ∧
      Ready level t' { s with focus := part } := by
  obtain ⟨m, hm⟩ := h.exists_map
  obtain ⟨t', hrun, hfocus, hsame⟩ := Var.exists_run_set_entry hook journal hm part.index
  exact ⟨t', hrun, h.setFocus hsame hfocus⟩

variable (journal) in
/-- The flight booker takes a step for every event. -/
theorem Ready.exists_run_handler (h : Ready level t s) (keymap : CodeArea.Keymap) (event : Event) :
    ∃ action s' t', ((sceneHandler level s.focus event).run keymap.hook).run ⟨t, journal⟩ =
        (.ok action, ⟨t', journal⟩) ∧
      Step keymap s event action s' ∧ Ready level t' s' := by
  obtain ⟨action, s₁, t₁, hpart, hreacts, h₁⟩ := h.exists_run_part journal keymap event
  rw [sceneHandler, handler, getElem?_partHandlers]
  dsimp only
  rw [Program.run_bind_of_ok hpart]
  by_cases haction : action = .unused
  · subst haction
    rw [if_neg (not_not_intro rfl)]
    by_cases hforward : isForward event = true ∧ s.focus.index + 1 < 4
    · obtain ⟨part, hindex⟩ := Part.exists_index_eq hforward.2
      obtain ⟨t', hset, h'⟩ := h₁.exists_run_setFocus keymap.hook journal part
      refine ⟨.consumed, _, t', ?_, .forward hreacts hforward.1 hindex, h'⟩
      rw [if_pos (by simpa [partHandlers] using hforward), ← hindex]
      exact Program.run_bind_of_ok hset _
    · rw [if_neg (by simpa [partHandlers] using hforward)]
      by_cases hbackward : isBackward event = true ∧ 0 < s.focus.index
      · obtain ⟨part, hindex⟩ :=
          Part.exists_index_eq (show s.focus.index - 1 < 4 by have := s.focus.index_lt; omega)
        obtain ⟨t', hset, h'⟩ := h₁.exists_run_setFocus keymap.hook journal part
        refine ⟨.consumed, _, t', ?_, .backward hreacts hbackward.1 (by omega), h'⟩
        rw [if_pos (by simpa using hbackward), ← hindex]
        exact Program.run_bind_of_ok hset _
      · refine ⟨.unused, s₁, t₁, ?_, .unused hreacts (fun hevent => ?_) fun hevent => ?_, h₁⟩
        · rw [if_neg (by simpa using hbackward)]
          rfl
        · exact Part.eq_book fun hlt => hforward ⟨hevent, hlt⟩
        · exact Part.eq_type fun hlt => hbackward ⟨hevent, hlt⟩
  · refine ⟨action, s₁, t₁, ?_, .taken hreacts haction, h₁⟩
    rw [if_pos haction]
    rfl

/-! ### Scenes -/

/-- A scene makes all of the state. -/
structure Offers (level : Path) (t : Tree) (s : State) : Prop where
  exists_map : ∃ m, t.resolve level = some (.map m)
  status : t.resolve (level.child statusName) = some (.string s.status) ∨
    t.resolve (level.child statusName) = none ∧ s.status = ""
  type : t.OffersListBox (some trips) level typeName (some trips) s.selected
  field : ∀ date : Date, t.OffersField level date.name date.prompt (s.field date)
  book : t.OffersButton level bookName "Book" (press level)
  focus : t.resolve (level.child focusName) = some (.index s.focus.index) ∨
    t.resolve (level.child focusName) = none ∧ s.focus.index = 0

theorem Ready.offers (h : Ready level t s) : Offers level t s :=
  ⟨h.exists_map, .inl h.status, h.type.offers, fun date => (h.field date).offers, h.book.offers,
    .inl h.focus⟩

/-- The first scene makes an empty form, and the focus is on the trip type. -/
theorem offers_empty : Offers .root .empty {} where
  exists_map := ⟨_, rfl⟩
  status := .inr ⟨rfl, rfl⟩
  type := Tree.offersListBox_of_eq_none rfl (some trips)
  field date := Tree.offersField_of_eq_none (by cases date <;> rfl) date.prompt
  book := Tree.offersButton_of_eq_none rfl "Book" (press .root)
  focus := .inr ⟨rfl, rfl⟩

/-- What the blueprints of the parts stand for. -/
structure InterpretsParts (interpret : Blueprint → Component) : Prop where
  type : interpret tripType = ListBox.start (some trips)
  fields : Tree.InterpretsFields interpret
  buttons : Tree.InterpretsButtons interpret

theorem interpretsParts_component (depth : Nat) :
    InterpretsParts (Blueprint.component (depth + 3)) where
  type := ListBox.component_blueprint (depth + 1) (some trips)
  fields := Tree.interpretsFields_component (depth + 1)
  buttons := Tree.interpretsButtons_component depth

variable (hook) (journal) in
theorem Offers.exists_run_scene {interpret : Blueprint → Component}
    (hparts : InterpretsParts interpret) (h : Offers level t s) :
    ∃ view t', ((flight interpret level).run hook).run ⟨t, journal⟩ =
        (.ok ⟨view, sceneHandler level s.focus⟩, ⟨t', journal⟩) ∧ Ready level t' s := by
  -- one part after the other is made where the ones before it have left it
  obtain ⟨m, hm⟩ := h.exists_map
  obtain ⟨t₁, hstatus, hstatus₁, hsame₁⟩ := exists_run_stateAt hook journal (a := s.status) ""
    hm h.status
  obtain ⟨m₁, hm₁⟩ := Tree.exists_map_of_child hstatus₁
  obtain ⟨type, t₂, htype, htype₂, hsame₂⟩ :=
    (h.type.beside hsame₁ (by decide)).exists_run_subcomponent hook journal hparts.type hm₁
  obtain ⟨m₂, hm₂⟩ := Tree.exists_map_of_grandchild htype₂.ready.items
  have hfront₂ := hsame₁.union hsame₂
  obtain ⟨outbound, t₃, houtbound, houtbound₃, hsame₃⟩ := ((h.field .outbound).beside hfront₂
    (by decide)).exists_run_subcomponent hook journal hparts.fields hm₂
  obtain ⟨m₃, hm₃⟩ := Tree.exists_map_of_grandchild houtbound₃.resolve_buffer
  have hfront₃ := hfront₂.union hsame₃
  obtain ⟨inbound, t₄, hinbound, hinbound₄, hsame₄⟩ := ((h.field .inbound).beside hfront₃
    (by decide)).exists_run_subcomponent hook journal hparts.fields hm₃
  obtain ⟨m₄, hm₄⟩ := Tree.exists_map_of_grandchild hinbound₄.resolve_buffer
  have hfront₄ := hfront₃.union hsame₄
  obtain ⟨book, t₅, hbook, hbook₅, hsame₅⟩ :=
    (h.book.beside hfront₄ (by decide)).exists_run_subcomponent hook journal hparts.buttons hm₄
  obtain ⟨m₅, hm₅⟩ := Tree.exists_map_of_grandchild hbook₅.resolve_label
  have hfocus₅ := (hfront₄.union hsame₅).resolve_child (show focusName ∉ _ by decide)
  obtain ⟨t', hfocus, hfocus', hsame⟩ := exists_run_stateAt hook journal (a := s.focus.index) 0
    hm₅ (hfocus₅ ▸ h.focus)
  -- what was made stays while the others are made
  have hback₄ := hsame₅.union hsame
  have hback₃ := hsame₄.union hback₄
  have hback₂ := hsame₃.union hback₃
  have hstatus' := ((hsame₂.union hback₂).resolve_child (by decide)).trans hstatus₁
  refine ⟨.rows [type, outbound, inbound, book, .plain s.status] s.focus.index, t', ?_, ?_⟩
  · have hget : ((Var.get (Var.mk (α := Nat) (level.child focusName))).run hook).run
        ⟨t', journal⟩ = (.ok s.focus.index, ⟨t', journal⟩) := Var.run_get_of_resolve hook hfocus'
    have htext : ((Var.get (Var.mk (α := String) (level.child statusName))).run hook).run
        ⟨t', journal⟩ = (.ok s.status, ⟨t', journal⟩) := Var.run_get_of_resolve hook hstatus'
    rw [flight]
    refine (Program.run_bind_of_ok hstatus _).trans ?_
    refine (Program.run_bind_of_ok htype _).trans ?_
    refine (Program.run_bind_of_ok houtbound _).trans ?_
    refine (Program.run_bind_of_ok hinbound _).trans ?_
    refine (Program.run_bind_of_ok hbook _).trans ?_
    refine (Program.run_bind_of_ok hfocus _).trans ?_
    refine (Program.run_bind_of_ok hget _).trans ?_
    exact (Program.run_bind_of_ok htext _).trans rfl
  · refine ⟨hstatus', htype₂.beside hback₂ (by decide), fun date => ?_,
      hbook₅.beside hsame (by decide), hfocus'⟩
    cases date with
    | outbound => exact houtbound₃.beside hback₃ (by decide)
    | inbound => exact hinbound₄.beside hback₄ (by decide)

/-! ### The machine -/

/-- The application that is a flight booker under a keymap. -/
def application (keymap : CodeArea.Keymap) : Application := ⟨Blueprint.flight.start, keymap.hook⟩

theorem start_flight : Blueprint.flight.start = flight (Blueprint.component 9999) := by
  have hcomponent (depth : Nat) : Blueprint.flight.component (depth + 1) =
      flight (Blueprint.component depth) := rfl
  exact hcomponent 9999

variable (keymap) (journal) in
theorem Offers.exists_run_application (h : Offers .root t s) :
    ∃ view t', (application keymap).scene.run ⟨t, journal⟩ =
        (.ok ⟨view, sceneHandler .root s.focus⟩, ⟨t', journal⟩) ∧ Ready .root t' s := by
  obtain ⟨view, t', hscene, h'⟩ :=
    h.exists_run_scene keymap.hook journal (interpretsParts_component 9996)
  have hinvoke := Component.run_invoke hscene
  rw [← start_flight] at hinvoke
  exact ⟨_, t', hinvoke, h'⟩

/-- The flight booker as a machine. -/
def machine (keymap : CodeArea.Keymap) : Machine State where
  application := application keymap
  holds := Ready .root
  handler s := sceneHandler .root s.focus
  step := Step keymap
  initial := {}
  exists_first := offers_empty.exists_run_application keymap []
  exists_scene h journal := h.offers.exists_run_application keymap journal
  exists_reaction h event journal := h.exists_run_handler journal keymap event

end Flight

end TerminalUI
