/-!
# Keys and events

A key is a key code with modifiers. `Key.literal?` is the character that a key stands for in text,
and `Key.typed` the key that types a character. An event is a key, the start or end of a bracketed
paste, or a change of the terminal's size.
-/

namespace TerminalUI

/-- Modifiers held down with a key. -/
structure Modifiers where
  shift : Bool := false
  control : Bool := false
  alt : Bool := false
  deriving DecidableEq, Repr

namespace Modifiers

/-- No modifier is held down. -/
def isEmpty (m : Modifiers) : Bool := !(m.shift || m.control || m.alt)

/-- The modifiers of both. -/
def union (m n : Modifiers) : Modifiers :=
  ⟨m.shift || n.shift, m.control || n.control, m.alt || n.alt⟩

/-- The control key alone. -/
def onlyControl : Modifiers := { control := true }

/-- The shift key alone. -/
def onlyShift : Modifiers := { shift := true }

end Modifiers

/-- What a key is, apart from its modifiers. -/
inductive KeyCode where
  | backspace | enter | left | right | up | down | home | «end» | pageUp | pageDown | tab | backTab
  | delete | insert | escape
  /-- A function key. -/
  | function (n : UInt8)
  /-- The key of a character. -/
  | char (c : Char)
  deriving DecidableEq, Repr

/-- A key with its modifiers. -/
structure Key where
  modifiers : Modifiers := {}
  code : KeyCode
  deriving DecidableEq, Repr

namespace Key

/-- A key without modifiers. -/
def bare (code : KeyCode) : Key := ⟨{}, code⟩

/-- A character key with control held down. -/
def control (c : Char) : Key := { modifiers := .onlyControl, code := .char c }

/-- Is this the given key without modifiers? -/
def isBare (k : Key) (code : KeyCode) : Bool := k = bare code

/-- The upper-case form of an ASCII letter; every other character stays. -/
def upperCase (c : Char) : Char :=
  if 'a' ≤ c ∧ c ≤ 'z' then Char.ofNat (c.toNat - 32) else c

/-- Takes shift into a character: an ASCII letter turns upper-case and shift is no longer held. The
space bar and keys that are no characters keep it. -/
def normalize (k : Key) : Key :=
  match k.code with
  | .char c =>
    if k.modifiers.shift && c ≠ ' ' then
      { modifiers := { k.modifiers with shift := false }, code := .char (upperCase c) }
    else k
  | _ => k

/-- The character that a key stands for in text, if it does. -/
def literal? (k : Key) : Option Char :=
  if k.normalize.modifiers.isEmpty then
    match k.normalize.code with
    | .char c => some c
    | .enter => some '\n'
    | .tab => some '\t'
    | _ => none
  else none

/-- Does the key stand for no character? -/
def isFunction (k : Key) : Bool := k.literal?.isNone

/-- The key that types a character. -/
def typed (c : Char) : Key :=
  if c = '\n' ∨ c = '\r' then bare .enter
  else if c = '\t' then bare .tab
  else bare (.char c)

end Key

/-- Something that happened at the terminal. -/
inductive Event where
  /-- A key was pressed. -/
  | key (k : Key)
  /-- A bracketed paste starts or ends; in between, keys are the pasted text. -/
  | paste (starts : Bool)
  /-- The terminal has a new size. -/
  | resize (rows columns : Nat)
  deriving DecidableEq, Repr

namespace Event

/-- The key of a key event. -/
def key? : Event → Option Key
  | .key k => some k
  | _ => none

/-- Is this the given key without modifiers? -/
def isBare (e : Event) (code : KeyCode) : Bool :=
  match e with
  | .key k => k.isBare code
  | _ => false

theorem isBare_iff {e : Event} {code : KeyCode} : e.isBare code = true ↔ e = .key (.bare code) := by
  cases e <;> simp [isBare, Key.isBare]

/-- Is this exactly the given key? -/
def isKey (e : Event) (key : Key) : Bool := e = .key key

/-- Does the event tell that the size changed? -/
def isResize : Event → Bool
  | .resize .. => true
  | _ => false

end Event

end TerminalUI
