import TerminalUI.Action
import TerminalUI.Application.Basic
import TerminalUI.Application.Embedded
import TerminalUI.Application.LineEditor
import TerminalUI.Application.Run
import TerminalUI.Catalog
import TerminalUI.Code.Abbreviation
import TerminalUI.Code.Buffer
import TerminalUI.Code.Highlighter
import TerminalUI.Code.Movement
import TerminalUI.Code.Overlay
import TerminalUI.Code.ShellWord
import TerminalUI.Code.WordClass
import TerminalUI.Component
import TerminalUI.Decimal.Places
import TerminalUI.Decimal.Reading
import TerminalUI.Demo.Button
import TerminalUI.Demo.Counter
import TerminalUI.Demo.Field
import TerminalUI.Demo.Flight
import TerminalUI.Demo.Gallery
import TerminalUI.Demo.Navigator
import TerminalUI.Demo.Sample
import TerminalUI.Demo.Temperature
import TerminalUI.Demo.Todo
import TerminalUI.Demo.Wizard
import TerminalUI.Demo.Wrapper
import TerminalUI.Error
import TerminalUI.Frame.Basic
import TerminalUI.Frame.Dump
import TerminalUI.Frame.Writer
import TerminalUI.Hook.Basic
import TerminalUI.Hook.Editing
import TerminalUI.Hook.Rules
import TerminalUI.Key.Basic
import TerminalUI.Key.Name
import TerminalUI.Measure
import TerminalUI.Path
import TerminalUI.Program.Basic
import TerminalUI.Program.Session
import TerminalUI.Program.Variable
import TerminalUI.State.Hierarchy
import TerminalUI.State.Items
import TerminalUI.State.Listing
import TerminalUI.State.Tree
import TerminalUI.State.Value
import TerminalUI.Style.Basic
import TerminalUI.Style.Color
import TerminalUI.Style.StyledText
import TerminalUI.Style.Words
import TerminalUI.Terminal.Basic
import TerminalUI.Terminal.Command
import TerminalUI.Terminal.Drawing
import TerminalUI.Terminal.Failing
import TerminalUI.Terminal.Inline
import TerminalUI.Terminal.Input
import TerminalUI.Terminal.Script
import TerminalUI.Text.Alphanumeric
import TerminalUI.Text.Breaking
import TerminalUI.Text.CharSet
import TerminalUI.Text.Cluster
import TerminalUI.Text.Extending
import TerminalUI.Text.Listing
import TerminalUI.Text.Number
import TerminalUI.Text.Offset
import TerminalUI.Text.Parts
import TerminalUI.Text.Pattern
import TerminalUI.Text.Pieces
import TerminalUI.Text.Presentation
import TerminalUI.Text.Quoted
import TerminalUI.Text.Unprintable
import TerminalUI.Text.Wide
import TerminalUI.Text.Width
import TerminalUI.View.Basic
import TerminalUI.View.CodeLayout
import TerminalUI.Widget.CodeArea
import TerminalUI.Widget.ComboBox
import TerminalUI.Widget.ListBox
import TerminalUI.Word
import TerminalUI.Proofs.Code.Editing
import TerminalUI.Proofs.State.Level
import TerminalUI.Proofs.State.Writing
import TerminalUI.Proofs.Program.Running
import TerminalUI.Proofs.Style.Partition
import TerminalUI.Proofs.View.Bounds
import TerminalUI.Proofs.CodeArea.Entries
import TerminalUI.Proofs.CodeArea.Typing
import TerminalUI.Proofs.CodeArea.Reaction
import TerminalUI.Proofs.CodeArea.Run
import TerminalUI.Proofs.CodeArea.Paste
import TerminalUI.Proofs.CodeArea.Streak
import TerminalUI.Proofs.Application.Rounds
import TerminalUI.Proofs.Application.Lifecycle
import TerminalUI.Proofs.Application.Agreement
import TerminalUI.Proofs.Terminal.Screen
import TerminalUI.Proofs.Terminal.Showing
import TerminalUI.Proofs.Program.Alike
import TerminalUI.Proofs.Widget.Portable
import TerminalUI.Proofs.Demo.Portable
import TerminalUI.Proofs.Widget.Location
import TerminalUI.Proofs.Program.Settles
import TerminalUI.Proofs.Widget.Settles
import TerminalUI.Proofs.Demo.Settles
import TerminalUI.Proofs.Application.Resume
import TerminalUI.Proofs.Widget.Totality
import TerminalUI.Proofs.Hook.Messages
import TerminalUI.Proofs.Widget.Careful
import TerminalUI.Proofs.Program.Ends
import TerminalUI.Proofs.Widget.Effects
import TerminalUI.Proofs.Widget.Consistency
import TerminalUI.Proofs.Code.Quoting
import TerminalUI.Proofs.Text.Clusters
import TerminalUI.Proofs.Frame.Cells
import TerminalUI.Proofs.View.Widths
import TerminalUI.Proofs.Frame.Controls
import TerminalUI.Proofs.CodeArea.Draft
import TerminalUI.Proofs.Application.LineEditing
import TerminalUI.Proofs.Code.Expansion
import TerminalUI.Proofs.View.Taller
import TerminalUI.Proofs.Key.Names
import TerminalUI.Proofs.CodeArea.Deleting
import TerminalUI.Proofs.CodeArea.Changes
import TerminalUI.Proofs.ListBox.Display
import TerminalUI.Proofs.ListBox.Selection
import TerminalUI.Proofs.Frame.Layout
import TerminalUI.Proofs.Hook.Quiet
import TerminalUI.Proofs.Widget.Transparency
import TerminalUI.Proofs.Text.Searching
import TerminalUI.Proofs.Code.Command
import TerminalUI.Proofs.Style.Bytes
import TerminalUI.Proofs.CodeArea.Pending
import TerminalUI.Proofs.View.Viewport
import TerminalUI.Proofs.View.RightPrompt
import TerminalUI.Proofs.Frame.Beside
import TerminalUI.Proofs.View.Columns
import TerminalUI.Proofs.State.Contents
import TerminalUI.Proofs.State.Removing
import TerminalUI.Proofs.State.Commuting
import TerminalUI.Proofs.Program.Seeding
import TerminalUI.Proofs.Text.Lines
import TerminalUI.Proofs.Code.Moving
import TerminalUI.Proofs.Text.Numerals
import TerminalUI.Proofs.Key.Grammar
import TerminalUI.Proofs.Style.Grammar
import TerminalUI.Proofs.Application.Machine
import TerminalUI.Proofs.Demo.Fields
import TerminalUI.Proofs.Decimal.Characters
import TerminalUI.Proofs.Demo.Converter
import TerminalUI.Proofs.Demo.Rewriting
import TerminalUI.Proofs.Demo.Checklist
import TerminalUI.Proofs.Demo.Pasting
import TerminalUI.Proofs.Demo.Marking
import TerminalUI.Proofs.Text.OneLine
import TerminalUI.Proofs.Demo.Outline
import TerminalUI.Proofs.Text.Listing
import TerminalUI.Proofs.Demo.Buttons
import TerminalUI.Proofs.Demo.Booking
import TerminalUI.Proofs.Demo.Routing
import TerminalUI.Proofs.Demo.Walking
import TerminalUI.Proofs.Demo.Remembering
import TerminalUI.Proofs.Frame.Alignment
