import TerminalUI.Demo.Counter
import TerminalUI.Demo.Flight
import TerminalUI.Demo.Navigator
import TerminalUI.Demo.Sample
import TerminalUI.Demo.Temperature
import TerminalUI.Demo.Todo
import TerminalUI.Demo.Wizard
import TerminalUI.Demo.Wrapper
import TerminalUI.Widget.ComboBox

/-!
# What blueprints stand for

`Blueprint.component` gives the component of a blueprint. A component finds the blueprints of those
inside it in the state tree when it runs, so nothing in the blueprint itself bounds how deeply they
are nested; the depth that is allowed is a parameter, and running out of it is a fault.
-/

namespace TerminalUI

namespace Blueprint

/-- The component of a blueprint, with at most `depth` components inside each other. -/
def component : Nat → Blueprint → Component
  | 0, _ => fun _ => .fault .tooDeep
  | depth + 1, b =>
    match b with
    | .codeArea => TerminalUI.codeArea
    | .listBox => TerminalUI.listBox
    | .comboBox => TerminalUI.comboBox (component depth)
    | .button => TerminalUI.button
    | .wrapper => TerminalUI.wrapper (component depth)
    | .blank => Sample.still .empty
    | .counter => TerminalUI.counter (component depth)
    | .temperature => TerminalUI.temperature (component depth)
    | .flight => TerminalUI.flight (component depth)
    | .wizard => TerminalUI.wizard (component depth)
    | .todo => todoList (component depth)
    | .navigator => TerminalUI.navigator (component depth)
    | .still view => Sample.still view
    | .echo tag => Sample.echo tag
    | .tally tag => Sample.tally tag
    | .frozen => Sample.frozen (component depth)
    | .made count => Sample.made count
    | .stack arrangement gap parts => Sample.stack (component depth) arrangement gap parts
    | .seeded path value inner => (component depth inner).withStates [(path, value)]

/-- Components inside each other that a run allows: more than any screen has room for. -/
def nestingLimit : Nat := 10000

/-- The component of a blueprint, nested as deeply as a run allows. -/
def start (b : Blueprint) : Component := b.component nestingLimit

end Blueprint

end TerminalUI
