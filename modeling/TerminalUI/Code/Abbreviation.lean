import TerminalUI.Code.Buffer
import TerminalUI.Code.WordClass
import TerminalUI.Text.Parts
import TerminalUI.Text.Pattern

/-!
# Abbreviations

A table of abbreviations with their expansions, and three rules for when one is expanded. All of
them look at the *streak*, the characters typed one after another just before the dot:

* a simple abbreviation expands as soon as the streak ends with it;
* a command abbreviation expands when a blank ends a command word that equals it;
* a small-word abbreviation expands when a character of another class than its last one ends it,
  and a character of another class than its first one, or nothing, stands before it.
-/

namespace TerminalUI

/-- Abbreviations with their expansions. -/
structure Abbreviations where
  entries : List (String × String) := []
  deriving DecidableEq, Repr

namespace Abbreviations

/-- The table with one more entry. -/
def add (t : Abbreviations) (short full : String) : Abbreviations := ⟨t.entries ++ [(short, full)]⟩

/-- Is there no entry? -/
def isEmpty (t : Abbreviations) : Bool := t.entries.isEmpty

/-- Of two entries, the second if it is longer. -/
def longer : Option (String × String) → String × String → Option (String × String)
  | some best, entry =>
    if byteLength best.1 ≥ byteLength entry.1 then some best else some entry
  | none, entry => some entry

/-- The longest accepted entry, and of several the first; an empty abbreviation is never
accepted. -/
def longest? (t : Abbreviations) (accept : String → Bool) : Option (String × String) :=
  (t.entries.filter fun entry => entry.1 ≠ "" && accept entry.1).foldl longer none

/-- Expands the longest abbreviation that the streak ends with. -/
def expandSimple (t : Abbreviations) (b : CodeBuffer) (streak : String) :
    Except Fault (Option CodeBuffer) :=
  match t.longest? (endsWith streak) with
  | none => .ok none
  | some (short, full) => do
    let (before, after) ← b.split
    match beforeSuffix? before short with
    | none => return none
    | some before =>
      return some ⟨before ++ full ++ after, byteLength before + byteLength full⟩

/-- Characters of a command word. -/
def isCommandChar (c : Char) : Bool :=
  !(isBlank c || c = '|' || c = ';' || c = '(' || c = ')' || c.toNat = 0x7B || c.toNat = 0x7D)

/-- Characters after which a command may start. -/
def startsCommand (c : Char) : Bool :=
  c = '|' || c = ';' || c = '(' || c.toNat = 0x7B || c = '\n'

/-- Characters that may stand between a command word and what starts the command. -/
def isIndent (c : Char) : Bool := c = ' ' || c = '\t'

/-- A command word, which is captured, with one blank after it at the end of the text. It comes
first in the text or after a character that starts a command, but for spaces and tabs. -/
def commandWord : Pattern :=
  .seq (.either .start (.one startsCommand)) <|
    .seq (.run isIndent) <|
      .seq (.group (.seq (.one isCommandChar) (.run isCommandChar))) <|
        .seq (.one isBlank) .stop

/-- Expands the command word that a typed blank has ended, if the dot is at the end and the streak
holds the whole word and the blank. -/
def expandCommand (t : Abbreviations) (b : CodeBuffer) (streak : String) (trigger : Char) :
    Option CodeBuffer :=
  if b.dot ≠ byteLength b.content || !isBlank trigger then none
  else match commandWord.capture? b.content with
    | none => none
    | some (before, word, after) =>
      if !endsWith streak (word.push trigger) then none
      else (t.entries.lookup word).map fun full => .atEnd (before ++ full ++ after)

/-- May the abbreviation be expanded after this text? Its last character is of another class than
the trigger, and the character before it of another class than its first one. -/
def isSmallWord (beforeTrigger typed : String) (trigger : Char) (short : String) : Bool :=
  endsWith typed short &&
    match short.toList.head?, short.toList.getLast? with
    | some first, some last =>
      WordClass.of trigger ≠ WordClass.of last &&
        match beforeSuffix? beforeTrigger short with
        | none => false
        | some rest => (rest.toList.getLast?).all fun c => WordClass.of c ≠ WordClass.of first
    | _, _ => false

/-- Expands the longest small word that the typed character has ended. -/
def expandSmallWord (t : Abbreviations) (b : CodeBuffer) (streak : String) (trigger : Char) :
    Except Fault (Option CodeBuffer) :=
  match beforeSuffix? streak (String.singleton trigger) with
  | none => .ok none
  | some typed => do
    let (before, after) ← b.split
    match beforeSuffix? before (String.singleton trigger) with
    | none => return none
    | some beforeTrigger =>
      match t.longest? (isSmallWord beforeTrigger typed trigger) with
      | none => return none
      | some (short, full) =>
        match beforeSuffix? beforeTrigger short with
        | none => return none
        | some rest =>
          return some ⟨(rest ++ full).push trigger ++ after,
            b.dot - byteLength short + byteLength full⟩

end Abbreviations

end TerminalUI
