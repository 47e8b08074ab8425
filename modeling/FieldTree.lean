import FieldTree.CommandLine.Arguments
import FieldTree.CommandLine.Command
import FieldTree.CommandLine.Run
import FieldTree.Configuration.Basic
import FieldTree.Configuration.Error
import FieldTree.Configuration.Load
import FieldTree.Configuration.Template
import FieldTree.Entries
import FieldTree.Field.Basic
import FieldTree.Field.Kind
import FieldTree.Files.Access
import FieldTree.Files.Path
import FieldTree.Json.Basic
import FieldTree.Json.Display
import FieldTree.Json.Printer
import FieldTree.Json.Reader
import FieldTree.Json.Token
import FieldTree.Listing.Basic
import FieldTree.Listing.Format
import FieldTree.Main
import FieldTree.Number.Basic
import FieldTree.Number.Double
import FieldTree.Number.Literal
import FieldTree.Number.Shortest
import FieldTree.Proofs.Json.Parts
import FieldTree.Resolution.Constraint
import FieldTree.Resolution.Document
import FieldTree.Resolution.Error
import FieldTree.Resolution.Event
import FieldTree.Resolution.Guard
import FieldTree.Resolution.Node
import FieldTree.Resolution.State
import FieldTree.Resolution.Walk
import FieldTree.Selector.Basic
import FieldTree.Selector.Twister
import FieldTree.Surroundings
import FieldTree.Text.Alphanumeric
import FieldTree.Text.Blank
import FieldTree.Text.DecimalDigit
import FieldTree.Text.Encoding
import FieldTree.Text.Hexadecimal
import FieldTree.Text.Printable
import FieldTree.Text.Quoted
import FieldTree.Text.Split
import FieldTree.Yaml.Basic
import FieldTree.Yaml.Cursor
import FieldTree.Yaml.Fault
import FieldTree.Yaml.Node
import FieldTree.Yaml.Property
import FieldTree.Yaml.Reader
import FieldTree.Yaml.Scalar
import FieldTree.Yaml.Tag
import FieldTree.Yaml.Timestamp
import FieldTree.Yaml.Token
import FieldTree.Yaml.Value
import FieldTree.Proofs.Resolution.Pairing
import FieldTree.Proofs.Resolution.Node
import FieldTree.Proofs.Resolution.PairedWalk
import FieldTree.Proofs.Resolution.Nesting
import FieldTree.Proofs.Resolution.Shape
import FieldTree.Proofs.Resolution.Yields
import FieldTree.Proofs.Resolution.Walks
import FieldTree.Proofs.Resolution.Passes
import FieldTree.Proofs.Resolution.References
import FieldTree.Proofs.Field.Erase
import FieldTree.Proofs.Resolution.Settles
import FieldTree.Proofs.Resolution.Alike
import FieldTree.Proofs.Resolution.Extends
import FieldTree.Proofs.Resolution.Settling
import FieldTree.Proofs.Json.Distinct
import FieldTree.Proofs.Resolution.Definitions
import FieldTree.Proofs.Resolution.Expansion
import FieldTree.Proofs.Resolution.Choiceless
import FieldTree.Proofs.Resolution.Conduct
import FieldTree.Proofs.Resolution.Failures
import FieldTree.Proofs.Resolution.Progress
import FieldTree.Proofs.Resolution.Places
import FieldTree.Proofs.Resolution.Order
import FieldTree.Proofs.Field.Parts
import FieldTree.Proofs.Resolution.Visits
import FieldTree.Proofs.Resolution.Required
import FieldTree.Proofs.Resolution.FirstPlaces
import FieldTree.Proofs.Resolution.Inversion
import FieldTree.Proofs.Resolution.Cached
import FieldTree.Proofs.Resolution.Presence
import FieldTree.Proofs.Resolution.Aliases
import FieldTree.Proofs.Resolution.Moments
import FieldTree.Proofs.Resolution.Clones
import FieldTree.Proofs.Resolution.PureCycles
import FieldTree.Proofs.Resolution.PropertySide
import FieldTree.Proofs.Resolution.EveryProperty
import FieldTree.Proofs.Listing.Shown
import FieldTree.Proofs.Resolution.Sides
import FieldTree.Proofs.Resolution.Beside
import FieldTree.Proofs.Resolution.RootProperties
import FieldTree.Proofs.Listing.Extraction
import FieldTree.Proofs.Listing.Leaves
import FieldTree.Proofs.Resolution.Swayed
import FieldTree.Proofs.Listing.Neighbours
import FieldTree.Proofs.Resolution.Coherence
import FieldTree.Proofs.Listing.Addresses
import FieldTree.Proofs.Listing.Trails
import FieldTree.Proofs.Listing.Positions
import FieldTree.Proofs.Resolution.Anonymous
import FieldTree.Proofs.Resolution.Balance
import FieldTree.Proofs.Resolution.Reaches
import FieldTree.Proofs.Resolution.Siblings
import FieldTree.Proofs.Resolution.Simulation
import FieldTree.Proofs.Number.Literal
import FieldTree.Proofs.Text.Encoding
import FieldTree.Proofs.Files.Tree
import FieldTree.Proofs.Configuration.Loading
import FieldTree.Proofs.Configuration.Written
import FieldTree.Proofs.CommandLine.Arguments
import FieldTree.Proofs.CommandLine.Run
import FieldTree.Proofs.CommandLine.Settings
import FieldTree.Proofs.Selector.Seeding
import FieldTree.Proofs.CommandLine.GivenSeed
import FieldTree.Proofs.Resolution.InTurn
import FieldTree.Proofs.Resolution.Merging
import FieldTree.Proofs.Number.Double
import FieldTree.Proofs.Number.Shortest
import FieldTree.Proofs.Resolution.Limits
import FieldTree.Proofs.Resolution.LowerLimit
import FieldTree.Proofs.Resolution.Sessions
import FieldTree.Proofs.Listing.Lines
import FieldTree.Proofs.Configuration.Rules
import FieldTree.Proofs.Configuration.Validation
import FieldTree.Proofs.Listing.Room
import FieldTree.Proofs.Listing.Suffices
import FieldTree.Proofs.Resolution.Bounds
