import CommandPad.Editor.View
import CommandPad.Files
import CommandPad.Main
import CommandPad.Settings.Load
import CommandPad.Terminal.Ansi
import CommandPad.Terminal.Draw
import CommandPad.Text.Width
import CommandPad.Yaml.Reader
import CommandPad.Proofs.Format.Readable
import CommandPad.Proofs.Format.Spacing
import CommandPad.Proofs.Format.LineRule
import CommandPad.Proofs.Format.Opening
import CommandPad.Proofs.Format.RoundTrip
import CommandPad.Proofs.Format.Gap
import CommandPad.Proofs.Format.Trim
import CommandPad.Proofs.Format.Unindented
import CommandPad.Proofs.Format.LineShape
import CommandPad.Proofs.Format.BlankLines
import CommandPad.Proofs.Format.Stable
import CommandPad.Proofs.History.Run
import CommandPad.Proofs.History.Limit
import CommandPad.Proofs.Symbol.Pairing
import CommandPad.Proofs.Symbol.Piece
import CommandPad.Proofs.Symbol.Coordinates
import CommandPad.Proofs.Symbol.Row
import CommandPad.Proofs.Symbol.Kind
import CommandPad.Proofs.Symbol.Table
import CommandPad.Proofs.Symbol.Formatted
import CommandPad.Proofs.Symbol.Block
import CommandPad.Proofs.Symbol.Indent
import CommandPad.Proofs.Symbol.Reindent
import CommandPad.Proofs.Symbol.Tiling
import CommandPad.Proofs.Symbol.Literal
import CommandPad.Proofs.Symbol.Triple
import CommandPad.Proofs.Symbol.Cut
import CommandPad.Proofs.Symbol.Closed
import CommandPad.Proofs.Symbol.Isolated
import CommandPad.Proofs.Symbol.TripleSymbol
import CommandPad.Proofs.Symbol.Emphasis
import CommandPad.Proofs.Text.Measure
import CommandPad.Proofs.Text.Trim
import CommandPad.Proofs.Buffer.Inv
import CommandPad.Proofs.Buffer.Restore
import CommandPad.Proofs.Buffer.Depth
import CommandPad.Proofs.Buffer.Flat
import CommandPad.Proofs.Buffer.Window
import CommandPad.Proofs.Buffer.Run
import CommandPad.Proofs.Buffer.Click
import CommandPad.Proofs.Editor.Reachable
import CommandPad.Proofs.Editor.UndoRun
import CommandPad.Proofs.Editor.Forward
import CommandPad.Proofs.Editor.InSync
import CommandPad.Proofs.Editor.Document
import CommandPad.Proofs.Editor.Enter
import CommandPad.Proofs.Editor.Commit
import CommandPad.Proofs.Editor.Drawn
import CommandPad.Proofs.Editor.OnScreen
import CommandPad.Proofs.Editor.Size
import CommandPad.Proofs.Terminal.Session
