import TerminalUI.Key.Basic
import TerminalUI.Error
import TerminalUI.Text.Number

/-!
# Names of keys

A key is written as its modifiers, each followed by a hyphen, and a name: a character, one of the
listed names or `F` and a number from 1 to 12. `Key.name` writes it and `Key.ofName` reads it. The
hyphen is a key of its own, so a text whose rest after a hyphen is empty ends in that key.
-/

namespace TerminalUI

namespace KeyCode

/-- Keys with a name of more than one character. -/
def names : List (String × KeyCode) :=
  [("Backspace", .backspace), ("Enter", .enter), ("Left", .left), ("Right", .right), ("Up", .up),
   ("Down", .down), ("Home", .home), ("End", .end), ("PageUp", .pageUp),
   ("PageDown", .pageDown), ("Tab", .tab), ("BackTab", .backTab), ("Delete", .delete),
   ("Insert", .insert), ("Esc", .escape), ("Space", .char ' ')]

/-- The name of a key code. -/
def name : KeyCode → String
  | .backspace => "Backspace"
  | .enter => "Enter"
  | .left => "Left"
  | .right => "Right"
  | .up => "Up"
  | .down => "Down"
  | .home => "Home"
  | .end => "End"
  | .pageUp => "PageUp"
  | .pageDown => "PageDown"
  | .tab => "Tab"
  | .backTab => "BackTab"
  | .delete => "Delete"
  | .insert => "Insert"
  | .escape => "Esc"
  | .function n => "F" ++ toString n.toNat
  | .char c => if c = ' ' then "Space" else String.singleton c

/-- The key code that a name stands for. -/
def ofName (name : List Char) : Except Error KeyCode :=
  match name with
  | [] => .error (.parseKey "empty key")
  | [c] => .ok (.char c)
  | _ =>
    match names.lookup (String.ofList name) with
    | some code => .ok code
    | none =>
      let number := match name with
        | 'F' :: digits => Number.byte? 10 digits
        | _ => none
      match number with
      | some n =>
        if 1 ≤ n ∧ n ≤ 12 then .ok (.function (.ofNat n))
        else .error (.parseKey ("unknown key " ++ quoted (String.ofList name)))
      | none => .error (.parseKey ("unknown key " ++ quoted (String.ofList name)))

end KeyCode

namespace Modifiers

/-- The modifier that a word names. -/
def ofWord? (word : List Char) : Option Modifiers :=
  match String.ofList word with
  | "Ctrl" | "C" => some { control := true }
  | "Alt" | "A" | "M" => some { alt := true }
  | "Shift" | "S" => some { shift := true }
  | _ => none

end Modifiers

namespace Key

/-- The written form of a key. -/
def name (k : Key) : String :=
  (if k.modifiers.control then "Ctrl-" else "") ++ (if k.modifiers.alt then "Alt-" else "") ++
    (if k.modifiers.shift then "Shift-" else "") ++ k.code.name

/-- The text before the first hyphen and the text after it, when there is a hyphen with something
after it. The characters of the first part seen so far are given last first. -/
def splitModifier? (word : List Char) : List Char → Option (List Char × List Char)
  | [] => none
  | c :: cs =>
    if c = '-' then if cs.isEmpty then none else some (word.reverse, cs)
    else splitModifier? (c :: word) cs

theorem length_of_splitModifier? {word cs first rest : List Char}
    (h : splitModifier? word cs = some (first, rest)) : rest.length < cs.length := by
  induction cs generalizing word with
  | nil => simp [splitModifier?] at h
  | cons c cs ih =>
    unfold splitModifier? at h
    split at h
    · split at h
      · simp at h
      · simp only [Option.some.injEq, Prod.mk.injEq] at h
        simp [← h.2]
    · exact Nat.lt_succ_of_lt (ih h)

/-- Reads the modifiers and the name of a key, of which some modifiers were read already. `whole` is
the text that errors report. -/
def ofNameFrom (whole : String) (held : Modifiers) (cs : List Char) : Except Error Key :=
  match _ : splitModifier? [] cs with
  | none => do
    let code ← KeyCode.ofName cs
    return { modifiers := held, code }
  | some (word, rest) =>
    match Modifiers.ofWord? word with
    | some m => ofNameFrom whole (held.union m) rest
    | none =>
      .error (.parseKey ("bad modifier " ++ quoted (String.ofList word) ++ " in " ++ quoted whole))
termination_by cs.length
decreasing_by exact length_of_splitModifier? (by assumption)

/-- Reads a key. -/
def ofName (s : String) : Except Error Key := ofNameFrom s {} s.toList

end Key

end TerminalUI
