import WireSchema.Text.Blank
import WireSchema.Text.Quoted
import WireSchema.Naming.Singular
import WireSchema.Naming.Reserved
import WireSchema.Naming.Hash
import WireSchema.TagMap
import WireSchema.Number.Style
import WireSchema.Json.Reader
import WireSchema.Json.Writer
import WireSchema.Time.Instant
import WireSchema.Schema.Outline
import WireSchema.Schema.WireIds
import WireSchema.Schema.Layout
import WireSchema.Schema.Resolve
import WireSchema.Contract
import WireSchema.Wire.Flags
import WireSchema.Record.Basic
import WireSchema.Record.Text
import WireSchema.Codec.Encoding
import WireSchema.Codec.Decoding
import WireSchema.Schema.Journal
import WireSchema.Registry.Basic
import WireSchema.Files.Tree
import WireSchema.Files.Load
import WireSchema.Toml.Reader
import WireSchema.Generator.Run
import WireSchema.Main
import WireSchema.Proofs.Unpacking
import WireSchema.Proofs.Normalization
import WireSchema.Proofs.Truncation
import WireSchema.Proofs.Elements
import WireSchema.Proofs.Depth
import WireSchema.Proofs.Stock
import WireSchema.Proofs.Exchange
import WireSchema.Proofs.Outlines
import WireSchema.Proofs.Flattening
import WireSchema.Proofs.Members
import WireSchema.Proofs.Consistency
import WireSchema.Proofs.Listing
import WireSchema.Proofs.References
import WireSchema.Proofs.Renumbering
import WireSchema.Proofs.BatchOrder
import WireSchema.Proofs.Closed
import WireSchema.Proofs.Recovery
import WireSchema.Proofs.Emission
import WireSchema.Proofs.Lookup
import WireSchema.Proofs.Registration
import WireSchema.Proofs.Dispatch
import WireSchema.Proofs.Extension
import WireSchema.Proofs.Keys
import WireSchema.Proofs.Acceptance
import WireSchema.Proofs.Assembly
import WireSchema.Proofs.Factories
import WireSchema.Proofs.Faults
import WireSchema.Proofs.Flattened
import WireSchema.Proofs.Forest
import WireSchema.Proofs.Conflicts
import WireSchema.Proofs.Namespaces
import WireSchema.Proofs.Ownership
import WireSchema.Proofs.Integrity
import WireSchema.Proofs.Overwriting
import WireSchema.Proofs.Dialogue
import WireSchema.Proofs.Finishing
import WireSchema.Proofs.Toggling
import WireSchema.Proofs.Embedding
import WireSchema.Proofs.Loading
import WireSchema.Proofs.Ordinals
import WireSchema.Proofs.Items
import WireSchema.Proofs.FlagUse
import WireSchema.Proofs.Recompilation
import WireSchema.Proofs.FlagBlocks
import WireSchema.Proofs.Compounds
