import SolidScript.Main
import SolidScript.Host.Machine
import SolidScript.Node.Prism
import SolidScript.Number.Shortest.Lemmas
import SolidScript.Proofs.Number.Digits
import SolidScript.Proofs.PointIndex
import SolidScript.Proofs.PointIndex.Calls
import SolidScript.Proofs.Script.Quoted
import SolidScript.Session
import SolidScript.Proofs.Session
import SolidScript.Text.Utf8.Lemmas
import SolidScript.Proofs.Script.Forest
import SolidScript.Proofs.Script.Unambiguous
import SolidScript.Proofs.Script.Solid
import SolidScript.Proofs.Json.Numeral
import SolidScript.Proofs.Text.Utf8
import SolidScript.Proofs.Json.Layout
import SolidScript.Proofs.Json.Nesting
import SolidScript.Proofs.Json.Tokens
import SolidScript.Proofs.Json.Fits
import SolidScript.Proofs.Json.ReadBack
import SolidScript.Proofs.Document
import SolidScript.Proofs.Script.Lines
import SolidScript.Proofs.Script.Context
import SolidScript.Proofs.Script.Template
import SolidScript.Proofs.Json.Grammar
import SolidScript.Proofs.Json.Lexemes
import SolidScript.Proofs.Json.Skipped
import SolidScript.Proofs.Json.Spelled
import SolidScript.Proofs.Json.Soundness
import SolidScript.Proofs.Json.Completeness
import SolidScript.Proofs.Document.Language
import SolidScript.Proofs.Document.Reload
import SolidScript.Proofs.Path.Spelling
import SolidScript.Proofs.Path.Folding
import SolidScript.Proofs.Path.NormalForm
import SolidScript.Proofs.Host.Disk
import SolidScript.Proofs.Host.Machine
import SolidScript.Proofs.Toml.Tables
import SolidScript.Proofs.Number.Whole
import SolidScript.Proofs.Settings.Layers
import SolidScript.Proofs.Files
import SolidScript.Proofs.Sinks
import SolidScript.Proofs.CommandLine.Run
import SolidScript.Proofs.CommandLine.Render
import SolidScript.Proofs.CommandLine.Settings
import SolidScript.Proofs.Delivery
import SolidScript.Proofs.PointIndex.Surface
import SolidScript.Proofs.Files.Saving
import SolidScript.Proofs.Script.Flattening
import SolidScript.Proofs.Number.Size
import SolidScript.Proofs.Json.Cut
import SolidScript.Proofs.Json.CutNumeral
import SolidScript.Proofs.Json.Truncated
import SolidScript.Proofs.Document.Truncation
import SolidScript.Proofs.Toml.Lines
import SolidScript.Proofs.Settings.Reload
import SolidScript.Proofs.CommandLine.Overrides
import SolidScript.Proofs.Clipboard
import SolidScript.Proofs.Node.Map
import SolidScript.Proofs.Node.Equality
import SolidScript.Proofs.Script.Equality
import SolidScript.Proofs.Script.Surroundings
