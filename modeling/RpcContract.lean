import RpcContract.Checksum.Sha256
import RpcContract.Checksum.SumFile
import RpcContract.CommandLine.Check
import RpcContract.CommandLine.Generate
import RpcContract.CommandLine.Options
import RpcContract.CommandLine.Outcome
import RpcContract.Config.Basic
import RpcContract.Config.Loading
import RpcContract.Config.OfJson
import RpcContract.Config.OfSettings
import RpcContract.Config.Saving
import RpcContract.Decimal.Layout
import RpcContract.Decimal.Reading
import RpcContract.Decimal.Shortest
import RpcContract.Dict
import RpcContract.Error
import RpcContract.Exchange.Check
import RpcContract.Exchange.Fixture
import RpcContract.Exchange.Message
import RpcContract.Exchange.Reading
import RpcContract.Files.Changes
import RpcContract.Files.Disk
import RpcContract.Files.Path
import RpcContract.Files.Tree
import RpcContract.Fragment
import RpcContract.Json.Basic
import RpcContract.Json.Compare
import RpcContract.Json.Cursor
import RpcContract.Json.Decode
import RpcContract.Json.Path
import RpcContract.Json.Pointer
import RpcContract.Json.Printer
import RpcContract.Json.Reader
import RpcContract.Json.Skip
import RpcContract.Main
import RpcContract.Method
import RpcContract.Method.Reading
import RpcContract.OpenRpc.Assembly
import RpcContract.OpenRpc.Dump
import RpcContract.OpenRpc.Emission
import RpcContract.OpenRpc.Loading
import RpcContract.OpenRpc.MetaSchema
import RpcContract.OpenRpc.Validate
import RpcContract.Pattern.Basic
import RpcContract.Pattern.CharSet
import RpcContract.Pattern.Ecma
import RpcContract.Pattern.Reader
import RpcContract.Pattern.Search
import RpcContract.Proofs.CommandLine.Generate
import RpcContract.Proofs.Config.Documents
import RpcContract.Proofs.Config.Layers
import RpcContract.Proofs.Config.Saving
import RpcContract.Proofs.Config.Sources
import RpcContract.Proofs.Config.Values
import RpcContract.Proofs.Config.Variables
import RpcContract.Proofs.Dict
import RpcContract.Proofs.Exchange.Conformance
import RpcContract.Proofs.Exchange.FailFast
import RpcContract.Proofs.Exchange.FaultyLine
import RpcContract.Proofs.Exchange.Message
import RpcContract.Proofs.Exchange.Needed
import RpcContract.Proofs.Exchange.Protocol
import RpcContract.Proofs.Exchange.Selection
import RpcContract.Proofs.Files.Directories
import RpcContract.Proofs.Files.Walk
import RpcContract.Proofs.Files.Writing
import RpcContract.Proofs.Json.Forward
import RpcContract.Proofs.Json.Place
import RpcContract.Proofs.Json.Pointer
import RpcContract.Proofs.Json.Reading
import RpcContract.Proofs.Json.Tree
import RpcContract.Proofs.Methods
import RpcContract.Proofs.OpenRpc.Accepted
import RpcContract.Proofs.OpenRpc.AnyOrder
import RpcContract.Proofs.OpenRpc.Deliveries
import RpcContract.Proofs.OpenRpc.Emitted
import RpcContract.Proofs.OpenRpc.Expanded
import RpcContract.Proofs.OpenRpc.Expanding
import RpcContract.Proofs.OpenRpc.Failures
import RpcContract.Proofs.OpenRpc.Frame
import RpcContract.Proofs.OpenRpc.Idempotent
import RpcContract.Proofs.OpenRpc.InPlace
import RpcContract.Proofs.OpenRpc.Interrupted
import RpcContract.Proofs.OpenRpc.Loading
import RpcContract.Proofs.OpenRpc.Order
import RpcContract.Proofs.OpenRpc.Output
import RpcContract.Proofs.OpenRpc.Places
import RpcContract.Proofs.OpenRpc.Repository
import RpcContract.Proofs.OpenRpc.Run
import RpcContract.Proofs.OpenRpc.Sorting
import RpcContract.Proofs.Outcome
import RpcContract.Proofs.Schema.Addressing
import RpcContract.Proofs.Schema.Cause
import RpcContract.Proofs.Schema.Depth
import RpcContract.Proofs.Schema.Dereferenced
import RpcContract.Proofs.Schema.Entry
import RpcContract.Proofs.Schema.ExpandedRepository
import RpcContract.Proofs.Schema.Expansion
import RpcContract.Proofs.Schema.ExtendedRepository
import RpcContract.Proofs.Schema.FirstOffence
import RpcContract.Proofs.Schema.Flattening
import RpcContract.Proofs.Schema.Guard
import RpcContract.Proofs.Schema.Machine
import RpcContract.Proofs.Schema.Mergeable
import RpcContract.Proofs.Schema.Merged
import RpcContract.Proofs.Schema.Merging
import RpcContract.Proofs.Schema.Precedence
import RpcContract.Proofs.Schema.Repository
import RpcContract.Proofs.Schema.RepositoryContents
import RpcContract.Proofs.Schema.RepositoryRun
import RpcContract.Proofs.Schema.RequiredNames
import RpcContract.Proofs.Schema.Resolved
import RpcContract.Proofs.Settings.Layering
import RpcContract.Proofs.Settings.Records
import RpcContract.Proofs.Text.Bytes
import RpcContract.Proofs.Toml.Document
import RpcContract.Proofs.Toml.Text
import RpcContract.Proofs.Yaml.Ordered
import RpcContract.Schema.Dereference
import RpcContract.Schema.Error
import RpcContract.Schema.Merge
import RpcContract.Schema.Reference
import RpcContract.Schema.Repository
import RpcContract.Schema.Resolve
import RpcContract.Settings.Basic
import RpcContract.Settings.Decode
import RpcContract.Settings.Format
import RpcContract.Settings.Ini
import RpcContract.Settings.Key
import RpcContract.Settings.Source
import RpcContract.Text.Address
import RpcContract.Text.Base64
import RpcContract.Text.Blank
import RpcContract.Text.Category
import RpcContract.Text.Folding
import RpcContract.Text.Lower
import RpcContract.Text.Moment
import RpcContract.Text.Percent
import RpcContract.Text.Quoted
import RpcContract.Text.Url
import RpcContract.Text.Utf8
import RpcContract.Toml.Printer
import RpcContract.Toml.Reader
import RpcContract.Toml.Scalar
import RpcContract.Toml.Table
import RpcContract.Toml.Text
import RpcContract.Toml.Value
import RpcContract.Validation.Breach
import RpcContract.Validation.Check
import RpcContract.Validation.Draft
import RpcContract.Validation.Format
import RpcContract.Validation.Locate
import RpcContract.Validation.Schema
import RpcContract.Yaml.Cursor
import RpcContract.Yaml.Node
import RpcContract.Yaml.Plain
import RpcContract.Yaml.Property
import RpcContract.Yaml.Scalar
import RpcContract.Yaml.Token
import RpcContract.Yaml.Value
