import Keyfob.Access.Codes
import Keyfob.Access.Credential
import Keyfob.Access.Pin
import Keyfob.Allowance
import Keyfob.Console.Arguments
import Keyfob.Console.Command
import Keyfob.Console.Paint
import Keyfob.Dialect
import Keyfob.Dongle.Basic
import Keyfob.Dongle.Port
import Keyfob.Dongle.Screen
import Keyfob.Ducky
import Keyfob.Expr.Basic
import Keyfob.Expr.Condition
import Keyfob.Expr.Token
import Keyfob.Fault
import Keyfob.Files.Basic
import Keyfob.Files.Name
import Keyfob.Hid.Action
import Keyfob.Hid.Chord
import Keyfob.Hid.Device
import Keyfob.Hid.Gadget
import Keyfob.Hid.Gamepad
import Keyfob.Hid.Media
import Keyfob.Hid.Mouse
import Keyfob.Hid.Recording
import Keyfob.Hid.Report
import Keyfob.Hid.Usage
import Keyfob.Host.Basic
import Keyfob.Host.Tree
import Keyfob.Json.Token
import Keyfob.Json.Value
import Keyfob.Link.Channel
import Keyfob.Link.Line
import Keyfob.Link.LineLink
import Keyfob.Macro.Directive
import Keyfob.Macro.Engine
import Keyfob.Macro.Scanner
import Keyfob.Main
import Keyfob.Player
import Keyfob.Proofs.Script.Block
import Keyfob.Recorder
import Keyfob.Script.Instruction
import Keyfob.Script.Machine
import Keyfob.Session.Basic
import Keyfob.Session.Dialog
import Keyfob.Session.Exchange
import Keyfob.Session.Request
import Keyfob.Settings
import Keyfob.Settings.Document
import Keyfob.Store.Basic
import Keyfob.Store.Document
import Keyfob.Table
import Keyfob.Text.Basic
import Keyfob.Text.Graphic
import Keyfob.Text.Number
import Keyfob.Text.Quoted
import Keyfob.Text.Utf8
import Keyfob.Toml.Document
import Keyfob.Toml.Quoted
import Keyfob.Toml.Reader
import Keyfob.Toml.Scalar
import Keyfob.Toml.Value
import Keyfob.Proofs.Script.Flattening
import Keyfob.Proofs.Session.Handling
import Keyfob.Proofs.Store.Framed
import Keyfob.Proofs.Session.Dialog
import Keyfob.Proofs.Session.Serving
import Keyfob.Proofs.Session.Secrecy
import Keyfob.Proofs.Macro.Braces
import Keyfob.Proofs.Macro.Written
import Keyfob.Proofs.Text.Utf8
import Keyfob.Proofs.Macro.Playback
import Keyfob.Proofs.Macro.Spill
import Keyfob.Proofs.Files.Dependable
import Keyfob.Proofs.Session.Recording
import Keyfob.Proofs.Dongle.Course
import Keyfob.Proofs.Dongle.Menu
import Keyfob.Proofs.Access.Credentials
import Keyfob.Proofs.Access.LoginCode
import Keyfob.Proofs.Link.Framing
import Keyfob.Proofs.Json.Spelling
import Keyfob.Proofs.Store.Ordered
import Keyfob.Proofs.Store.Document
import Keyfob.Proofs.Store.Changes
import Keyfob.Proofs.Store.Durability
import Keyfob.Proofs.Hid.Gestures
import Keyfob.Proofs.Macro.Rest
import Keyfob.Proofs.Hid.Released
import Keyfob.Proofs.Session.Veil
import Keyfob.Proofs.Session.Orderly
import Keyfob.Proofs.Dongle.Pass
import Keyfob.Proofs.Dongle.Orderly
import Keyfob.Proofs.Dongle.Released
import Keyfob.Proofs.Link.Delivery
import Keyfob.Proofs.Dongle.Delivery
import Keyfob.Proofs.Store.Veiled
import Keyfob.Proofs.Dongle.Discretion
import Keyfob.Proofs.Macro.Segments
import Keyfob.Proofs.Expr.Spelling
import Keyfob.Proofs.Expr.Grammar
import Keyfob.Proofs.Expr.Reading
import Keyfob.Proofs.Text.Ends
import Keyfob.Proofs.Expr.Nesting
import Keyfob.Proofs.Expr.Clause
import Keyfob.Proofs.Link.Calls
import Keyfob.Proofs.Macro.Batch
import Keyfob.Proofs.Session.Touching
import Keyfob.Proofs.Dongle.Touching
import Keyfob.Proofs.Dongle.Reading
import Keyfob.Proofs.Dongle.Presses
import Keyfob.Proofs.Store.Answers
import Keyfob.Proofs.Files.Naming
import Keyfob.Proofs.Script.Ranges
import Keyfob.Proofs.Sorting.Inserting
import Keyfob.Proofs.Sorting.Merging
import Keyfob.Proofs.Sorting.Runs
import Keyfob.Proofs.Sorting.Pivots
import Keyfob.Proofs.Files.Listing
import Keyfob.Proofs.Script.Moves
import Keyfob.Proofs.Script.Counting
import Keyfob.Proofs.Script.Budget
import Keyfob.Proofs.Script.Ending
import Keyfob.Proofs.Script.Condition
import Keyfob.Proofs.Text.Decoding
import Keyfob.Proofs.Text.Lines
import Keyfob.Proofs.Link.Ends
import Keyfob.Proofs.Link.Characters
import Keyfob.Proofs.Session.Collecting
import Keyfob.Proofs.Script.Keyword
import Keyfob.Proofs.Script.Writing
import Keyfob.Proofs.Hid.Keystrokes
import Keyfob.Proofs.Hid.Steady
import Keyfob.Proofs.Player.Score
import Keyfob.Proofs.Player.Independence
import Keyfob.Proofs.Player.Lacking
import Keyfob.Proofs.Files.Honest
import Keyfob.Proofs.Session.Within
import Keyfob.Proofs.Session.Taping
import Keyfob.Proofs.Session.Transcript
import Keyfob.Proofs.Session.Crashing
import Keyfob.Proofs.Hid.Typing
import Keyfob.Proofs.Hid.Steps
import Keyfob.Proofs.Hid.Pointer
import Keyfob.Proofs.Access.Loading
import Keyfob.Proofs.Text.Fields
import Keyfob.Proofs.Access.Listing
import Keyfob.Proofs.Store.Unwritten
import Keyfob.Proofs.Link.Sending
import Keyfob.Proofs.Hid.Chords
import Keyfob.Proofs.Player.Ducky
import Keyfob.Proofs.Script.Stack
import Keyfob.Proofs.Hid.Rollover
import Keyfob.Proofs.Access.Requests
import Keyfob.Proofs.Macro.Aim
