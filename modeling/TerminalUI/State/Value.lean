import TerminalUI.Action
import TerminalUI.Code.Abbreviation
import TerminalUI.Code.Highlighter
import TerminalUI.Code.Overlay
import TerminalUI.State.Hierarchy
import TerminalUI.State.Items
import TerminalUI.View.Basic

/-!
# Values of the state tree

The state of an application is a tree: maps from names to values, where a value is a map again or a
leaf of one of the listed kinds. Leaves can be components too. They are kept as `Blueprint`s, which
name a component and what it was configured with, so that a tree is plain data; `Press` does the
same for what a button does. Every kind of value has a type name, which errors report.
-/

namespace TerminalUI

/-- What happens when a button is pressed. -/
inductive Press where
  /-- Adds an amount to the integer at a path, if there is one, and reports an action. -/
  | change (target : Option Path) (amount : Int) (action : Action)
  /-- Writes the booking held under a path to a text entry. -/
  | book (form status : Path)
  deriving DecidableEq, Repr

/-- Does nothing and has no use for the event. -/
def Press.nothing : Press := .change none 0 .unused

/-- The ways to arrange the parts of a stack. -/
inductive Arrangement where
  | rows | columns | flexible
  deriving DecidableEq, Repr

/-- The name comes after the bound, if there is one. -/
def Follows (bound : Option String) (name : String) : Prop := ∀ b ∈ bound, b < name

mutual

/-- A value of the state tree. -/
inductive Value where
  | map (entries : Tree)
  | string (s : String)
  | bool (b : Bool)
  /-- A number of 32 bits. -/
  | word (n : UInt32)
  /-- A size or an index. -/
  | index (n : Nat)
  | integer (n : Int)
  | styled (t : StyledText)
  | buffer (b : CodeBuffer)
  | overlay (o : Overlay)
  | abbreviations (t : Abbreviations)
  | highlighter (h : Highlighter)
  | items (l : Option Items)
  | submit (s : Submit)
  | generator (g : Generator)
  | component (b : Blueprint)
  | strings (ss : List String)
  | node (n : Node)
  | todos (l : List Todo)
  | press (p : Press)

/-- A map from names to values. -/
inductive Tree where
  | ofEntries (entries : Entries none)

/-- The entries of a map, in the order of their names and each name once, with names that come after a
bound. -/
inductive Entries : Option String → Type where
  | nil {bound : Option String} : Entries bound
  | cons {bound : Option String} (name : String) (follows : Follows bound name) (value : Value)
    (rest : Entries (some name)) : Entries bound

/-- A component, as it is kept in the state tree. -/
inductive Blueprint where
  /-- The code editor. -/
  | codeArea
  /-- The list with a selection. -/
  | listBox
  /-- The list with a filter. -/
  | comboBox
  /-- A labelled button. -/
  | button
  /-- Shows the state of the component inside it. -/
  | wrapper
  /-- Shows nothing and has no use for any event. -/
  | blank
  | counter | temperature | flight | wizard | todo | navigator
  /-- A fixed view. -/
  | still (view : View)
  /-- Shows the last key that was pressed. -/
  | echo (tag : String)
  /-- Counts events. -/
  | tally (tag : String)
  /-- Shows that its child is made only once. -/
  | frozen
  /-- The child of `frozen`, made when the count stood at a number. -/
  | made (count : UInt32)
  /-- Parts arranged in a box, one of them with the focus. -/
  | stack (arrangement : Arrangement) (gap : Nat) (parts : Parts)
  /-- A component with a value put at a path below it, unless one is there. -/
  | seeded (path : Path) (value : Value) (inner : Blueprint)

/-- Named parts of a stack. -/
inductive Parts where
  | none
  | part (name : String) (component : Blueprint) (rest : Parts)

end

/-- The map without entries. -/
def Tree.empty : Tree := .ofEntries .nil

instance : Inhabited Tree := ⟨.empty⟩
instance : Inhabited Value := ⟨.map .empty⟩

/-- The kinds of values. -/
inductive Kind where
  | map | string | bool | word | index | integer | styled | buffer | overlay | abbreviations
  | highlighter | items | submit | generator | component | strings | node | todos | press
  deriving DecidableEq, Repr

/-- The type name of a kind. -/
def Kind.typeName : Kind → String
  | .map => "sprig::core::tree::Tree"
  | .string => "alloc::string::String"
  | .bool => "bool"
  | .word => "u32"
  | .index => "usize"
  | .integer => "i64"
  | .styled => "sprig::core::style::styled::StyledText"
  | .buffer => "sprig::widgets::codearea::buffer::CodeBuffer"
  | .overlay => "sprig::widgets::codearea::buffer::PendingCode"
  | .abbreviations => "sprig::widgets::codearea::abbr::Abbreviations"
  | .highlighter => "sprig::widgets::codearea::Highlighter"
  | .items =>
    "core::option::Option<alloc::sync::Arc<dyn sprig::widgets::listbox::Items>>"
  | .submit => "sprig::widgets::listbox::Submit"
  | .generator => "sprig::widgets::combobox::GenList"
  | .component => "sprig::core::context::Comp"
  | .strings => "alloc::vec::Vec<alloc::string::String>"
  | .node => "sprig_examples::hiernav::Node"
  | .todos => "alloc::vec::Vec<sprig_examples::todo::TodoItem>"
  | .press => "sprig_examples::button::OnPress"

namespace Value

/-- The kind of a value. -/
def kind : Value → Kind
  | .map _ => .map
  | .string _ => .string
  | .bool _ => .bool
  | .word _ => .word
  | .index _ => .index
  | .integer _ => .integer
  | .styled _ => .styled
  | .buffer _ => .buffer
  | .overlay _ => .overlay
  | .abbreviations _ => .abbreviations
  | .highlighter _ => .highlighter
  | .items _ => .items
  | .submit _ => .submit
  | .generator _ => .generator
  | .component _ => .component
  | .strings _ => .strings
  | .node _ => .node
  | .todos _ => .todos
  | .press _ => .press

/-- The entries of a map. -/
def map? : Value → Option Tree
  | .map t => some t
  | _ => none

end Value

/-- Types whose elements the state tree can hold. The values of one kind are the elements of one
type. -/
class Storable (α : Type) where
  /-- The kind of the values that hold such elements. -/
  kind : Kind
  /-- The value that holds an element. -/
  store : α → Value
  /-- The element that a value holds, if it is of this type. -/
  load? : Value → Option α
  load?_store : ∀ a, load? (store a) = some a := by intro a; rfl
  store_of_load? : ∀ v a, load? v = some a → store a = v := by
    intro v a h
    cases v <;> simp_all
  isSome_load? : ∀ v, (load? v).isSome = decide (v.kind = kind) := by
    intro v
    cases v <;> rfl

namespace Storable

variable {α : Type} [Storable α]

theorem load?_eq_some_iff {v : Value} {a : α} : load? v = some a ↔ v = store a :=
  ⟨fun h => (store_of_load? v a h).symm, fun h => h ▸ load?_store a⟩

theorem kind_store (a : α) : (store a).kind = kind α := by
  have h := isSome_load? (α := α) (store a)
  rw [load?_store] at h
  simpa using h.symm

end Storable

instance : Storable Tree where
  kind := .map
  store := .map
  load? | .map t => some t | _ => none

instance : Storable String where
  kind := .string
  store := .string
  load? | .string s => some s | _ => none

instance : Storable Bool where
  kind := .bool
  store := .bool
  load? | .bool b => some b | _ => none

instance : Storable UInt32 where
  kind := .word
  store := .word
  load? | .word n => some n | _ => none

instance : Storable Nat where
  kind := .index
  store := .index
  load? | .index n => some n | _ => none

instance : Storable Int where
  kind := .integer
  store := .integer
  load? | .integer n => some n | _ => none

instance : Storable StyledText where
  kind := .styled
  store := .styled
  load? | .styled t => some t | _ => none

instance : Storable CodeBuffer where
  kind := .buffer
  store := .buffer
  load? | .buffer b => some b | _ => none

instance : Storable Overlay where
  kind := .overlay
  store := .overlay
  load? | .overlay o => some o | _ => none

instance : Storable Abbreviations where
  kind := .abbreviations
  store := .abbreviations
  load? | .abbreviations t => some t | _ => none

instance : Storable Highlighter where
  kind := .highlighter
  store := .highlighter
  load? | .highlighter h => some h | _ => none

instance : Storable (Option Items) where
  kind := .items
  store := .items
  load? | .items l => some l | _ => none

instance : Storable Submit where
  kind := .submit
  store := .submit
  load? | .submit s => some s | _ => none

instance : Storable Generator where
  kind := .generator
  store := .generator
  load? | .generator g => some g | _ => none

instance : Storable Blueprint where
  kind := .component
  store := .component
  load? | .component b => some b | _ => none

instance : Storable (List String) where
  kind := .strings
  store := .strings
  load? | .strings ss => some ss | _ => none

instance : Storable Node where
  kind := .node
  store := .node
  load? | .node n => some n | _ => none

instance : Storable (List Todo) where
  kind := .todos
  store := .todos
  load? | .todos l => some l | _ => none

instance : Storable Press where
  kind := .press
  store := .press
  load? | .press p => some p | _ => none

end TerminalUI
