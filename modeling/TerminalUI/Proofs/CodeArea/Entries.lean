import TerminalUI.Proofs.Program.Running
import TerminalUI.Proofs.Style.Partition
import TerminalUI.Widget.CodeArea

/-!
# Invoking a code area

All that a code area knows is in twelve entries of its level. `Holds` says that a map has all of
them, with the elements of a `State`; `Configured`, that it has some of them, and that the others are
to get their initial elements. Invoking a code area on a configured map makes the missing entries and
is no fault, if the highlighter keeps the text that it colors (`leads_codeArea`). The handler is
always the same, whatever the entries hold.
-/

namespace TerminalUI

/-- Does the highlighter only color the code? -/
def Highlighter.Faithful (h : Highlighter) : Prop := ∀ code, (h.highlight code).1.text = code

theorem Highlighter.faithful_plain : plain.Faithful := by
  intro code
  simp [plain, StyledText.plain, StyledText.ofString, StyledText.text_empty]

namespace CodeArea

/-- The elements of the entries of a code area. Where none is given, it is the initial one. -/
structure State where
  prompt : StyledText := {}
  rightPrompt : StyledText := {}
  buffer : CodeBuffer := {}
  pending : Overlay := {}
  highlighter : Highlighter := .plain
  simple : Abbreviations := {}
  command : Abbreviations := {}
  smallWord : Abbreviations := {}
  streak : String := ""
  pasting : Bool := false
  pasted : String := ""
  quote : Bool := false

/-- The map has every entry of a code area. -/
structure Holds (m : Tree) (s : State) : Prop where
  prompt : m.get? promptName = some (.styled s.prompt)
  rightPrompt : m.get? rightPromptName = some (.styled s.rightPrompt)
  buffer : m.get? bufferName = some (.buffer s.buffer)
  pending : m.get? pendingName = some (.overlay s.pending)
  highlighter : m.get? highlighterName = some (.highlighter s.highlighter)
  simple : m.get? simpleName = some (.abbreviations s.simple)
  command : m.get? commandName = some (.abbreviations s.command)
  smallWord : m.get? smallWordName = some (.abbreviations s.smallWord)
  streak : m.get? streakName = some (.string s.streak)
  pasting : m.get? pastingName = some (.bool s.pasting)
  pasted : m.get? pastedName = some (.string s.pasted)
  quote : m.get? quotePasteName = some (.bool s.quote)

/-- The initial entries of the core. -/
def coreEntries : List (String × Value) :=
  [(promptName, .styled {}), (rightPromptName, .styled {}), (bufferName, .buffer {}),
    (pendingName, .overlay {}), (highlighterName, .highlighter .plain)]

/-- The initial entries of the abbreviation layer. -/
def abbreviationEntries : List (String × Value) :=
  [(simpleName, .abbreviations {}), (commandName, .abbreviations {}),
    (smallWordName, .abbreviations {}), (streakName, .string "")]

/-- The initial entries of the paste layer. -/
def pasteEntries : List (String × Value) :=
  [(pastingName, .bool false), (pastedName, .string ""), (quotePasteName, .bool false)]

/-- The map with initial entries where a code area has none yet. -/
def initialized (m : Tree) : Tree :=
  ((m.withDefaults coreEntries).withDefaults abbreviationEntries).withDefaults pasteEntries

/-- The map has entries of a code area, or leaves them to their initial elements. -/
def Configured (m : Tree) (s : State) : Prop := Holds (initialized m) s

theorem configured_empty : Configured .empty {} := by
  constructor <;> rfl

/-- With a prompt and nothing else, the other elements are the initial ones. -/
theorem configured_prompt {m : Tree}
    (h : ∀ name ∈ (coreEntries ++ abbreviationEntries ++ pasteEntries).map Prod.fst,
      m.get? name = none)
    (prompt : StyledText) :
    Configured (m.withDefault promptName (.styled prompt)) { prompt := prompt } := by
  have hget {name : String}
      (hname : name ∈ (coreEntries ++ abbreviationEntries ++ pasteEntries).map Prod.fst) :
      (initialized (m.withDefault promptName (.styled prompt))).get? name =
        ((((if name = promptName then some (.styled prompt) else none).or
          (coreEntries.lookup name)).or (abbreviationEntries.lookup name)).or
            (pasteEntries.lookup name)) := by
    simp only [initialized, Tree.get?_withDefaults, Tree.get?_withDefault, h name hname,
      Option.none_or]
  constructor
  all_goals
    rw [hget (by decide)]
    rfl

theorem initialized_of_holds {m : Tree} {s : State} (h : Holds m s) : initialized m = m := by
  have hcore : m.withDefaults coreEntries = m := by
    apply Tree.withDefaults_of_isSome
    simp [coreEntries, h.prompt, h.rightPrompt, h.buffer, h.pending, h.highlighter]
  have habbreviation : m.withDefaults abbreviationEntries = m := by
    apply Tree.withDefaults_of_isSome
    simp [abbreviationEntries, h.simple, h.command, h.smallWord, h.streak]
  have hpaste : m.withDefaults pasteEntries = m := by
    apply Tree.withDefaults_of_isSome
    simp [pasteEntries, h.pasting, h.pasted, h.quote]
  rw [initialized, hcore, habbreviation, hpaste]

theorem Holds.configured {m : Tree} {s : State} (h : Holds m s) : Configured m s := by
  rw [Configured, initialized_of_holds h]
  exact h

/-! ### Writing entries -/

section

variable {m m' m'' : Tree} {s : State}

theorem Holds.setBuffer (h : Holds m s) (b : CodeBuffer) :
    Holds (m.insert bufferName (.buffer b)) { s with buffer := b } := by
  constructor
  case buffer => exact m.get?_insert_self bufferName _
  all_goals rw [Tree.get?_insert_of_ne (by decide)]
  all_goals simp only [h.prompt, h.rightPrompt, h.pending, h.highlighter, h.simple, h.command,
    h.smallWord, h.streak, h.pasting, h.pasted, h.quote]

theorem Holds.setStreak (h : Holds m s) (streak : String) :
    Holds (m.insert streakName (.string streak)) { s with streak := streak } := by
  constructor
  case streak => exact m.get?_insert_self streakName _
  all_goals rw [Tree.get?_insert_of_ne (by decide)]
  all_goals simp only [h.prompt, h.rightPrompt, h.buffer, h.pending, h.highlighter, h.simple,
    h.command, h.smallWord, h.pasting, h.pasted, h.quote]

theorem Holds.setPasting (h : Holds m s) (pasting : Bool) :
    Holds (m.insert pastingName (.bool pasting)) { s with pasting := pasting } := by
  constructor
  case pasting => exact m.get?_insert_self pastingName _
  all_goals rw [Tree.get?_insert_of_ne (by decide)]
  all_goals simp only [h.prompt, h.rightPrompt, h.buffer, h.pending, h.highlighter, h.simple,
    h.command, h.smallWord, h.streak, h.pasted, h.quote]

theorem Holds.setPasted (h : Holds m s) (pasted : String) :
    Holds (m.insert pastedName (.string pasted)) { s with pasted := pasted } := by
  constructor
  case pasted => exact m.get?_insert_self pastedName _
  all_goals rw [Tree.get?_insert_of_ne (by decide)]
  all_goals simp only [h.prompt, h.rightPrompt, h.buffer, h.pending, h.highlighter, h.simple,
    h.command, h.smallWord, h.streak, h.pasting, h.quote]

/-- The entries that the handler writes. -/
def writtenNames : List String := [bufferName, streakName, pastingName, pastedName]

/-- The maps differ at most in entries that the handler writes. -/
def Keeps (m m' : Tree) : Prop := ∀ name, name ∉ writtenNames → m'.get? name = m.get? name

theorem Keeps.refl (m : Tree) : Keeps m m := fun _ _ => rfl

theorem Keeps.trans (h : Keeps m m') (h' : Keeps m' m'') : Keeps m m'' :=
  fun name hname => (h' name hname).trans (h name hname)

theorem keeps_insert (m : Tree) {name : String} (value : Value)
    (hname : name ∈ writtenNames) : Keeps m (m.insert name value) := by
  intro key hkey
  have hne : key ≠ name := fun heq => hkey (heq ▸ hname)
  exact Tree.get?_insert_of_ne hne value

theorem keeps_setBuffer (m : Tree) (b : CodeBuffer) :
    Keeps m (m.insert bufferName (.buffer b)) :=
  keeps_insert m _ (by decide)

theorem keeps_setStreak (m : Tree) (streak : String) :
    Keeps m (m.insert streakName (.string streak)) :=
  keeps_insert m _ (by decide)

theorem keeps_setPasting (m : Tree) (pasting : Bool) :
    Keeps m (m.insert pastingName (.bool pasting)) :=
  keeps_insert m _ (by decide)

theorem keeps_setPasted (m : Tree) (pasted : String) :
    Keeps m (m.insert pastedName (.string pasted)) :=
  keeps_insert m _ (by decide)

/-- An entry stays if its element does, and it stays anyway if the handler does not write it. -/
theorem Holds.get?_eq {s' : State} (h : Holds m s) (h' : Holds m' s') {name : String}
    (hother : name ∉ writtenNames → m'.get? name = m.get? name)
    (hbuffer : name = bufferName → s'.buffer = s.buffer)
    (hstreak : name = streakName → s'.streak = s.streak)
    (hpasting : name = pastingName → s'.pasting = s.pasting)
    (hpasted : name = pastedName → s'.pasted = s.pasted) : m'.get? name = m.get? name := by
  by_cases hwritten : name ∈ writtenNames
  · simp only [writtenNames, List.mem_cons, List.not_mem_nil, or_false] at hwritten
    rcases hwritten with rfl | rfl | rfl | rfl
    · rw [h.buffer, h'.buffer, hbuffer rfl]
    · rw [h.streak, h'.streak, hstreak rfl]
    · rw [h.pasting, h'.pasting, hpasting rfl]
    · rw [h.pasted, h'.pasted, hpasted rfl]
  · exact hother hwritten

theorem Holds.withoutError (h : Holds m s) : Holds m.withoutError s := by
  constructor
  all_goals rw [Tree.get?_withoutError, if_neg (by decide)]
  all_goals simp only [h.prompt, h.rightPrompt, h.buffer, h.pending, h.highlighter, h.simple,
    h.command, h.smallWord, h.streak, h.pasting, h.pasted, h.quote]

end

/-! ### What is shown -/

theorem length_of_around?_eq_some {o : Overlay} {text before after : String}
    (h : o.around? text = some (before, after)) : byteLength before = o.start := by
  unfold Overlay.around? at h
  obtain ⟨-, -, h⟩ := Option.bind_eq_some_iff.1 h
  obtain ⟨-, -, h⟩ := Option.bind_eq_some_iff.1 h
  obtain ⟨⟨start, rest⟩, hcut, h⟩ := Option.bind_eq_some_iff.1 h
  obtain ⟨⟨front, stop⟩, -, h⟩ := Option.bind_eq_some_iff.1 h
  obtain ⟨rfl, rfl⟩ : start = before ∧ stop = after := by simpa [pure] using h
  exact (cutAt_eq_some_iff.1 hcut).2

/-- Coloring the code that is shown, with its overlay, is no fault and keeps the text. -/
theorem exists_shownCode {h : Highlighter} (hfaithful : h.Faithful) (o : Overlay)
    (content : String) : ∃ code tips, shownCode h o content = .ok (code, tips) ∧
      code.text = (o.shown content).1 := by
  unfold shownCode Overlay.shown
  cases haround : o.around? content with
  | none => exact ⟨_, _, rfl, hfaithful content⟩
  | some parts =>
    obtain ⟨before, after⟩ := parts
    have hstart := length_of_around?_eq_some haround
    have htext : before ++ o.content ++ after =
        (h.highlight (before ++ o.content ++ after)).1.text := (hfaithful _).symm
    obtain ⟨x, y, z, hcut, rfl, hy, rfl⟩ := StyledText.partition?_around htext
    rw [hstart] at hcut
    refine ⟨.concat [x, y.withAttribute .underline, z],
      (h.highlight (x.text ++ o.content ++ z.text)).2, ?_, ?_⟩
    · simp only [hcut]
    · simp [StyledText.text_concat, hy, String.append_assoc]

/-- The layout of a code area, for colored code and tips. -/
def State.layout (s : State) (code : StyledText) (tips : List StyledText) : CodeLayout where
  prompt := s.prompt
  rightPrompt := s.rightPrompt
  code := code
  dot := floorBoundary (s.pending.shown s.buffer.content).1 s.buffer.dot
  tips := tips

/-! ### Invocations -/

/-- The tables and the streak of the code area at a level. -/
def tables (level : Path) : Tables :=
  ⟨⟨level.child simpleName⟩, ⟨level.child commandName⟩, ⟨level.child smallWordName⟩,
    ⟨level.child streakName⟩⟩

/-- The state of pastes of the code area at a level. -/
def pastes (level : Path) : Pastes :=
  ⟨pasting level, ⟨level.child pastedName⟩, ⟨level.child quotePasteName⟩⟩

/-- The handler of the layers below pastes. -/
def typingHandler (level : Path) : Handler :=
  abbreviationHandler (buffer level) (tables level) (coreHandler (buffer level))

/-- The handler of all layers, as it is given to a hook. -/
def layeredHandler (level : Path) : Handler :=
  pasteHandler (buffer level) (pastes level) (typingHandler level)

/-- The handler of a code area. -/
def handler (level : Path) : Handler := withBinding level tag (layeredHandler level)

variable {hook : Option Hook} {level : Path} {m : Tree} {s : State} {code : StyledText}
  {tips : List StyledText}

theorem get?_withDefaults_core {name : String} {value : Value}
    (habbreviation : abbreviationEntries.lookup name = none)
    (hpaste : pasteEntries.lookup name = none) (h : (initialized m).get? name = some value) :
    (m.withDefaults coreEntries).get? name = some value := by
  rw [initialized, Tree.get?_withDefaults, hpaste, Option.or_none, Tree.get?_withDefaults,
    habbreviation, Option.or_none] at h
  exact h

theorem leads_core (h : Configured m s)
    (hcode : shownCode s.highlighter s.pending s.buffer.content = .ok (code, tips)) :
    Program.Leads hook level (core level) m
      ⟨.code (s.layout code tips), coreHandler (buffer level)⟩ (m.withDefaults coreEntries) := by
  have hprompt := get?_withDefaults_core rfl rfl h.prompt
  have hright := get?_withDefaults_core rfl rfl h.rightPrompt
  have hbuffer := get?_withDefaults_core rfl rfl h.buffer
  have hpending := get?_withDefaults_core rfl rfl h.pending
  have hhighlighter := get?_withDefaults_core rfl rfl h.highlighter
  refine .bind (Var.leads_stateAt _) ?_
  refine .bind (Var.leads_stateAt _) ?_
  refine .bind (Var.leads_stateAt _) ?_
  refine .bind (Var.leads_stateAt _) ?_
  refine .bind (Var.leads_stateAt _) ?_
  refine .bind (Var.leads_get hbuffer) ?_
  refine .bind (Var.leads_get hpending) ?_
  refine .bind (Var.leads_get hhighlighter) ?_
  refine .bind (.ofExcept hcode) ?_
  refine .bind (Var.leads_get hprompt) ?_
  refine .bind (Var.leads_get hright) ?_
  exact .pure _

theorem leads_withAbbreviations (h : Configured m s)
    (hcode : shownCode s.highlighter s.pending s.buffer.content = .ok (code, tips)) :
    Program.Leads hook level (withAbbreviations level) m
      ⟨.code (s.layout code tips), typingHandler level⟩
      ((m.withDefaults coreEntries).withDefaults abbreviationEntries) := by
  rw [abbreviationEntries]
  simp only [Tree.withDefaults_cons, Tree.withDefaults_nil]
  refine .bind (leads_core h hcode) ?_
  refine .bind (Var.leads_stateAt _) ?_
  refine .bind (Var.leads_stateAt _) ?_
  refine .bind (Var.leads_stateAt _) ?_
  refine .bind (Var.leads_stateAt _) ?_
  dsimp only
  exact .pure _

/-- **Invoking a code area** on a configured map makes the missing entries and nothing else. -/
theorem leads_codeArea (h : Configured m s)
    (hcode : shownCode s.highlighter s.pending s.buffer.content = .ok (code, tips)) :
    Program.Leads hook level (codeArea level) m ⟨.code (s.layout code tips), handler level⟩
      (initialized m) := by
  rw [initialized, pasteEntries]
  simp only [Tree.withDefaults_cons, Tree.withDefaults_nil]
  refine .bind (leads_withAbbreviations h hcode) ?_
  refine .bind (Var.leads_stateAt _) ?_
  refine .bind (Var.leads_stateAt _) ?_
  refine .bind (Var.leads_stateAt _) ?_
  dsimp only
  exact .pure _

/-- The view of a code area, or the message of a failed hook in its place. -/
def shownView (m : Tree) (layout : CodeLayout) : View :=
  match (m.get? errorName).bind (Storable.load? (α := String)) with
  | some message => .error message
  | none => .code layout

theorem shownView_of_load_eq_ok {t : Tree} (ht : t.resolve level = some (.map m))
    (layout : CodeLayout) {message : String}
    (h : t.load String (level.child errorName) = .ok message) :
    shownView m layout = .error message := by
  rw [Tree.load, Tree.resolve_child ht] at h
  rw [shownView]
  cases hget : m.get? errorName with
  | none => simp [hget] at h
  | some v =>
    cases hload : Storable.load? (α := String) v with
    | none => simp [hget, hload] at h
    | some a =>
      obtain rfl : a = message := by simpa [hget, hload] using h
      simp [hload]

theorem shownView_of_load_eq_error {t : Tree} (ht : t.resolve level = some (.map m))
    (layout : CodeLayout) {e : Error} (h : t.load String (level.child errorName) = .error e) :
    shownView m layout = .code layout := by
  rw [Tree.load, Tree.resolve_child ht] at h
  rw [shownView]
  cases hget : m.get? errorName with
  | none => rfl
  | some v =>
    cases hload : Storable.load? (α := String) v with
    | none => simp [hload]
    | some a => simp [hget, hload] at h

theorem leads_invoke (h : Configured m s)
    (hcode : shownCode s.highlighter s.pending s.buffer.content = .ok (code, tips)) :
    Program.Leads hook level (codeArea.invoke level) m
      ⟨shownView (initialized m) (s.layout code tips), handler level⟩ (initialized m) := by
  refine .bind (leads_codeArea h hcode) (.tree_bind fun t ht => ?_)
  dsimp only
  cases hload : t.load String (level.child errorName) with
  | ok message =>
    rw [shownView_of_load_eq_ok ht _ hload]
    exact .pure _
  | error e =>
    rw [shownView_of_load_eq_error ht _ hload]
    exact .pure _

end CodeArea

end TerminalUI
