import TerminalUI.Code.ShellWord
import TerminalUI.Component

/-!
# Code area

A code editor, in three layers:

* the core keeps the buffer, inserts and deletes at the dot, and shows the prompts, the code with a
  pending overlay, and the tips of the highlighter;
* the abbreviation layer keeps the streak of typed characters and expands what it ends with;
* the paste layer collects a bracketed paste and inserts it in one go.

All of the state lives at the level of the component, in the entries named here.
-/

namespace TerminalUI

namespace CodeArea

/-! ### Entries -/

/-- The styled text before the code. -/
def promptName : Name := ⟨"prompt", by decide⟩
/-- The styled text at the right end. -/
def rightPromptName : Name := ⟨"rprompt", by decide⟩
/-- The code and the dot. -/
def bufferName : Name := ⟨"buffer", by decide⟩
/-- The pending overlay. -/
def pendingName : Name := ⟨"pending", by decide⟩
/-- The highlighter. -/
def highlighterName : Name := ⟨"highlighter", by decide⟩
/-- Simple abbreviations. -/
def simpleName : Name := ⟨"abbr", by decide⟩
/-- Abbreviations of commands. -/
def commandName : Name := ⟨"cmd-abbr", by decide⟩
/-- Small-word abbreviations. -/
def smallWordName : Name := ⟨"small-word-abbr", by decide⟩
/-- The characters typed one after another before the dot. -/
def streakName : Name := ⟨"streak", by decide⟩
/-- Is a paste in progress? -/
def pastingName : Name := ⟨"pasting", by decide⟩
/-- The text pasted so far. -/
def pastedName : Name := ⟨"paste-buffer", by decide⟩
/-- Is pasted text quoted? -/
def quotePasteName : Name := ⟨"quote-paste", by decide⟩

/-- The tag of the handler. -/
def tag : String := "codearea"

/-- The buffer of the code area at a level. -/
def buffer (level : Path) : Var CodeBuffer := ⟨level.child bufferName⟩

/-- Is a paste in progress in the code area at a level? -/
def pasting (level : Path) : Var Bool := ⟨level.child pastingName⟩

/-! ### The core -/

/-- Characters that typing inserts: the space, and all but controls and blanks. -/
def isInsertable (c : Char) : Bool := c = ' ' || !(isControl c || isBlank c)

/-- Edits the buffer. -/
def edit (b : Var CodeBuffer) (f : CodeBuffer → Except Fault CodeBuffer) : Program Unit := do
  let b' ← Program.ofExcept (f (← b.get))
  b.set b'

/-- The code that is shown for a buffer, colored, with the overlay underlined. -/
def shownCode (highlighter : Highlighter) (overlay : Overlay) (content : String) :
    Except Fault (StyledText × List StyledText) :=
  let (text, range) := overlay.shown content
  let (code, tips) := highlighter.highlight text
  match range with
  | none => .ok (code, tips)
  | some (start, stop) =>
    match code.partition? [start, stop] with
    | some [before, inside, after] =>
      .ok (.concat [before, inside.withAttribute .underline, after], tips)
    | _ => .error .outOfRange

/-- Does the key delete the character before the dot? -/
def deletes (k : Key) : Bool := k.isBare .backspace || k = .control 'h' || k = .control 'H'

/-- Inserts and deletes. -/
def coreHandler (buffer : Var CodeBuffer) : Handler := fun event => do
  let some key := event.key? | return .unused
  if deletes key then
    edit buffer CodeBuffer.backspace
    return .consumed
  match key.literal? with
  | some c =>
    if isInsertable c then
      edit buffer (·.insert (String.singleton c))
      return .consumed
    else return .unused
  | none => return .unused

/-- The editor without abbreviations and pastes. -/
def core : Component := fun level => do
  let prompt : Var StyledText ← stateAt level promptName {}
  let rightPrompt : Var StyledText ← stateAt level rightPromptName {}
  let buffer : Var CodeBuffer ← stateAt level bufferName {}
  let pending : Var Overlay ← stateAt level pendingName {}
  let highlighter : Var Highlighter ← stateAt level highlighterName .plain
  let b ← buffer.get
  let overlay ← pending.get
  let (code, tips) ← Program.ofExcept (shownCode (← highlighter.get) overlay b.content)
  let layout : CodeLayout := {
    prompt := ← prompt.get
    rightPrompt := ← rightPrompt.get
    code := code
    dot := floorBoundary (overlay.shown b.content).1 b.dot
    tips := tips }
  return { view := .code layout, handler := coreHandler buffer }

/-! ### Abbreviations -/

/-- The tables of abbreviations and the streak. -/
structure Tables where
  simple : Var Abbreviations
  command : Var Abbreviations
  smallWord : Var Abbreviations
  streak : Var String

/-- The buffer with an abbreviation expanded that the streak ends with; the three rules are tried
one after another. -/
def expansion (t : Tables) (after : CodeBuffer) (streak : String) (c : Char) :
    Program (Option CodeBuffer) := do
  match ← Program.ofExcept ((← t.simple.get).expandSimple after streak) with
  | some b => return some b
  | none =>
    match (← t.command.get).expandCommand after streak c with
    | some b => return some b
    | none => Program.ofExcept ((← t.smallWord.get).expandSmallWord after streak c)

/-- The character that a key has inserted, and the buffer with it; nothing if the key has done
something else. -/
def inserted? (buffer : Var CodeBuffer) (before : CodeBuffer) (key : Key) (action : Action) :
    Program (Option (Char × CodeBuffer)) := do
  match key.literal? with
  | some c =>
    if action = .consumed then
      let expected ← Program.ofExcept (before.insert (String.singleton c))
      if (← buffer.get) = expected then return some (c, expected) else return none
    else return none
  | none => return none

/-- Continues the streak with a character that was inserted, and expands what it ends with. A streak
that does not stand before the dot any more starts anew. -/
def continueStreak (buffer : Var CodeBuffer) (t : Tables) (before after : CodeBuffer) (c : Char) :
    Program Unit := do
  let streak ← t.streak.get
  let (textBefore, _) ← Program.ofExcept before.split
  let typed := (if endsWith textBefore streak then streak else "").push c
  match ← expansion t after typed c with
  | some b =>
    buffer.set b
    t.streak.set ""
  | none => t.streak.set typed

/-- Keeps the streak and expands abbreviations, around the handler of the core. -/
def abbreviationHandler (buffer : Var CodeBuffer) (t : Tables) (inner : Handler) : Handler :=
  fun event => do
    let .key key := event | inner event
    let before ← buffer.get
    let action ← inner event
    match ← inserted? buffer before key action with
    | none =>
      t.streak.set ""
      return action
    | some (c, after) =>
      continueStreak buffer t before after c
      return .consumed

/-- The editor without pastes. -/
def withAbbreviations : Component := fun level => do
  let scene ← core level
  let simple ← stateAt level simpleName ({} : Abbreviations)
  let command ← stateAt level commandName ({} : Abbreviations)
  let smallWord ← stateAt level smallWordName ({} : Abbreviations)
  let streak ← stateAt level streakName ""
  let t : Tables := ⟨simple, command, smallWord, streak⟩
  return { scene with handler := abbreviationHandler (buffer level) t scene.handler }

/-! ### Pastes -/

/-- The state of bracketed pastes. -/
structure Pastes where
  pasting : Var Bool
  pasted : Var String
  quote : Var Bool

/-- Inserts the pasted text and ends the paste. -/
def finishPaste (buffer : Var CodeBuffer) (p : Pastes) : Program Unit := do
  let text ← p.pasted.get
  let text := if ← p.quote.get then ShellWord.quote text else text
  edit buffer (·.insert text)
  p.pasting.set false
  p.pasted.set ""

/-- Collects pastes, around the handler of the layers below. During a paste, keys without a literal
are dropped. -/
def pasteHandler (buffer : Var CodeBuffer) (p : Pastes) (inner : Handler) : Handler :=
  fun event => do
    match event with
    | .paste true =>
      p.pasting.set true
      p.pasted.set ""
      return .consumed
    | .paste false =>
      finishPaste buffer p
      return .consumed
    | .key key =>
      if ← p.pasting.get then
        match key.literal? with
        | some c => p.pasted.modify (·.push c)
        | none => pure ()
        return .consumed
      else inner event
    | .resize .. => inner event

end CodeArea

/-- A code editor. -/
def codeArea : Component := fun level => do
  let scene ← CodeArea.withAbbreviations level
  let pasting ← stateAt level CodeArea.pastingName false
  let pasted ← stateAt level CodeArea.pastedName ""
  let quote ← stateAt level CodeArea.quotePasteName false
  let p : CodeArea.Pastes := ⟨pasting, pasted, quote⟩
  return { scene with
    handler := withBinding level CodeArea.tag
      (CodeArea.pasteHandler (CodeArea.buffer level) p scene.handler) }

end TerminalUI
