import SampleTypes.Canonical
import SampleTypes.Command.Options
import SampleTypes.Command.Run
import SampleTypes.Declaration
import SampleTypes.Descriptor.Basic
import SampleTypes.Descriptor.Json
import SampleTypes.Descriptor.Shape
import SampleTypes.Entries
import SampleTypes.Envelope
import SampleTypes.Files.Basic
import SampleTypes.Files.Path
import SampleTypes.Hash.Sha256
import SampleTypes.Inference
import SampleTypes.Json.Basic
import SampleTypes.Json.Reader
import SampleTypes.Json.Writer
import SampleTypes.Main
import SampleTypes.Number.Binary64
import SampleTypes.Number.Exact
import SampleTypes.Number.Layout
import SampleTypes.Number.Shortest
import SampleTypes.Proofs.Canonical.Basic
import SampleTypes.Proofs.Canonical.Normal
import SampleTypes.Proofs.Canonical.ReadBack
import SampleTypes.Proofs.Canonical.Refusals
import SampleTypes.Proofs.Command.Delivery
import SampleTypes.Proofs.Command.DigestCheck
import SampleTypes.Proofs.Command.Documents
import SampleTypes.Proofs.Command.Failures
import SampleTypes.Proofs.Command.Lines
import SampleTypes.Proofs.Command.Plans
import SampleTypes.Proofs.Command.Printing
import SampleTypes.Proofs.Command.Rendering
import SampleTypes.Proofs.Command.RoundTrip
import SampleTypes.Proofs.Command.TypeNames
import SampleTypes.Proofs.Declaration.Basic
import SampleTypes.Proofs.Declaration.Lines
import SampleTypes.Proofs.Declaration.Names
import SampleTypes.Proofs.Declaration.Nested
import SampleTypes.Proofs.Declaration.Unique
import SampleTypes.Proofs.DepthFirst
import SampleTypes.Proofs.Descriptor.Basic
import SampleTypes.Proofs.Descriptor.Built
import SampleTypes.Proofs.Descriptor.Codec
import SampleTypes.Proofs.Descriptor.Faults
import SampleTypes.Proofs.Descriptor.Json
import SampleTypes.Proofs.Descriptor.Names
import SampleTypes.Proofs.Descriptor.Reordering
import SampleTypes.Proofs.Descriptor.Shape
import SampleTypes.Proofs.Descriptor.Strays
import SampleTypes.Proofs.Entries
import SampleTypes.Proofs.Files.Basic
import SampleTypes.Proofs.Inference.Arrays
import SampleTypes.Proofs.Inference.Chunks
import SampleTypes.Proofs.Inference.Containers
import SampleTypes.Proofs.Inference.Contents
import SampleTypes.Proofs.Inference.Documents
import SampleTypes.Proofs.Inference.Merging
import SampleTypes.Proofs.Inference.Offenders
import SampleTypes.Proofs.Inference.PathTexts
import SampleTypes.Proofs.Inference.Places
import SampleTypes.Proofs.Inference.Rearranged
import SampleTypes.Proofs.Inference.Types
import SampleTypes.Proofs.Inference.Walk
import SampleTypes.Proofs.Json.Ascii
import SampleTypes.Proofs.Json.Collision
import SampleTypes.Proofs.Json.Digest
import SampleTypes.Proofs.Json.Distinct
import SampleTypes.Proofs.Json.Forms
import SampleTypes.Proofs.Json.Grammar
import SampleTypes.Proofs.Json.Legible
import SampleTypes.Proofs.Json.Numbers
import SampleTypes.Proofs.Json.Parts
import SampleTypes.Proofs.Json.Reader
import SampleTypes.Proofs.Json.Reordering
import SampleTypes.Proofs.Json.Sorted
import SampleTypes.Proofs.Json.Strings
import SampleTypes.Proofs.Json.Unique
import SampleTypes.Proofs.Number.Decimal
import SampleTypes.Proofs.Number.Layout
import SampleTypes.Proofs.Settings.Contents
import SampleTypes.Proofs.Settings.File
import SampleTypes.Proofs.Settings.Overrides
import SampleTypes.Proofs.Stages
import SampleTypes.Proofs.Text.Ascii
import SampleTypes.Proofs.Text.Blank
import SampleTypes.Proofs.Text.Control
import SampleTypes.Proofs.Text.Decoded
import SampleTypes.Proofs.Text.Order
import SampleTypes.Proofs.Text.Utf8
import SampleTypes.Proofs.Toml.Digits
import SampleTypes.Proofs.Toml.Reader
import SampleTypes.Proofs.Toml.Scalar
import SampleTypes.Proofs.TypeName.Identifiers
import SampleTypes.Proofs.TypeName.Runs
import SampleTypes.Refusal
import SampleTypes.Sample.Basic
import SampleTypes.Settings
import SampleTypes.Settings.File
import SampleTypes.Text.Basic
import SampleTypes.Text.Blank
import SampleTypes.Text.Newline
import SampleTypes.Text.Printable
import SampleTypes.Text.Quoted
import SampleTypes.Text.Similarity
import SampleTypes.Text.Terminal
import SampleTypes.Text.Utf8
import SampleTypes.Toml.Basic
import SampleTypes.Toml.Reader
import SampleTypes.Toml.Scalar
import SampleTypes.TypeName
