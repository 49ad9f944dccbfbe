import TerminalUI.Demo.Field
import TerminalUI.Demo.Navigator
import TerminalUI.Demo.Wrapper
import TerminalUI.Widget.ComboBox

/-!
# Gallery

The demonstration components by name, bare or wrapped so that their state is shown.
-/

namespace TerminalUI

namespace Gallery

/-- The names of the demonstrations, in the order in which they are shown. -/
def names : List String :=
  ["counter", "temperature", "flight", "codearea", "combobox", "wizard", "todo", "hiernav"]

/-- Words to choose from. -/
def fruits : List String :=
  ["apple", "apricot", "banana", "blackberry", "cherry", "grape", "lemon", "lime", "mango",
   "orange", "peach", "pear", "plum"]

/-- Offers the fruits that hold the filter text. -/
def fruitGenerator : Generator :=
  ⟨fun filter => (some (.ofStrings (Generator.matching fruits filter)), 0)⟩

/-- A list of fruits with a filter. -/
def fruitBox : Blueprint :=
  .withStates [(ComboBox.filterName ++ "/" ++ CodeArea.promptName, .styled (.plain "filter: ")),
    (ComboBox.generatorName, .generator fruitGenerator)] .comboBox

/-- A field with one abbreviation. -/
def abbreviatingField : Blueprint :=
  .withStates [(CodeArea.simpleName, .abbreviations ⟨[("foo", "lorem")]⟩)] (.field "~> ")

/-- The demonstration of a name. -/
def demo? : String → Option Blueprint
  | "counter" => some .counter
  | "temperature" => some .temperature
  | "flight" => some .flight
  | "codearea" => some abbreviatingField
  | "combobox" => some fruitBox
  | "wizard" => some .wizard
  | "todo" => some .todo
  | "hiernav" => some (.withStates [("data", .node Navigator.sample)] .navigator)
  | _ => none

/-- The demonstration of a name, wrapped. -/
def wrapped? (name : String) : Option Blueprint := (demo? name).map Blueprint.wrap

end Gallery

end TerminalUI
