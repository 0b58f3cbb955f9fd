import RangeLookup.Text.Blank
import RangeLookup.Text.Quoted
import RangeLookup.RangeStore
import RangeLookup.Format
import RangeLookup.Catalog
import RangeLookup.Format.Reading
import RangeLookup.Error
import RangeLookup.FlatTable
import RangeLookup.CostTable.Triangle
import RangeLookup.Decision
import RangeLookup.Decision.Shape
import RangeLookup.Decision.Parts
import RangeLookup.CostTable
import RangeLookup.CostTable.Tree
import RangeLookup.CostTable.Exhaustive
import RangeLookup.Document
import RangeLookup.Packing
import RangeLookup.Packing.Reading
import RangeLookup.Compile
import RangeLookup.Listing.Symbolic.Plain
import RangeLookup.Decimal.Shortest
import RangeLookup.Toml
import RangeLookup.Settings
import RangeLookup.CommandLine.Session
import RangeLookup.Main
import RangeLookup.Proofs.Cost.Order
import RangeLookup.Proofs.CostTable.Fill
import RangeLookup.Proofs.Decision.Tiling
import RangeLookup.Proofs.CostTable.Choice
import RangeLookup.Proofs.Decision.Price
import RangeLookup.Proofs.CostTable.Optimal
import RangeLookup.Proofs.Lookup
import RangeLookup.Proofs.Decision.Part
import RangeLookup.Proofs.CostTable.Subrange
import RangeLookup.Proofs.CostTable.Agreement
import RangeLookup.Proofs.CostTable.Formats
import RangeLookup.Proofs.CostTable.Cutting
import RangeLookup.Proofs.CostTable.Feasible
import RangeLookup.Proofs.CostTable.Joining
import RangeLookup.Proofs.RangeStore.OfList
import RangeLookup.Proofs.CostTable.Slice
import RangeLookup.Proofs.RangeStore.Translation
import RangeLookup.Proofs.CostTable.Translation
import RangeLookup.Proofs.CostTable.Sweep
import RangeLookup.Proofs.CostTable.Height
import RangeLookup.Proofs.Interval.Union
import RangeLookup.Proofs.Document.Ceiling
import RangeLookup.Proofs.Document.Rejection
import RangeLookup.Proofs.Compile
import RangeLookup.Listing.Assembly.Reading
import RangeLookup.Proofs.Listing.Operand
import RangeLookup.Proofs.Listing.Reading
import RangeLookup.Proofs.Packing.RoundTrip
import RangeLookup.Proofs.Packing.Bijection
import RangeLookup.Proofs.Decision.Emission
import RangeLookup.Proofs.Listing.Sections
import RangeLookup.Proofs.Listing.Recovery
import RangeLookup.Proofs.Listing.Failure
import RangeLookup.Listing.Assembly.Labels
import RangeLookup.Listing.Assembly.Machine
import RangeLookup.Proofs.Listing.Execution
import RangeLookup.Proofs.Listing.Linking
import RangeLookup.Proofs.Listing.Symbolic.Characters
import RangeLookup.Proofs.Listing.Symbolic.Unambiguous
import RangeLookup.Listing.Symbolic.Nesting
import RangeLookup.Proofs.Listing.Symbolic.Nesting
import RangeLookup.Checked
import RangeLookup.Checked.Document
import RangeLookup.Checked.Cost
import RangeLookup.Checked.CostTable
import RangeLookup.Checked.Listing
import RangeLookup.Proofs.Checked.Document
import RangeLookup.Proofs.Checked.CostTable
import RangeLookup.Proofs.Checked.Listing
import RangeLookup.Proofs.Checked.Compile
import RangeLookup.Document.Spelling
import RangeLookup.Proofs.Document.Number
import RangeLookup.Proofs.Document.Line
import RangeLookup.Proofs.Document.Encoding
import RangeLookup.Proofs.Document.Printing
import RangeLookup.Proofs.RangeStore.Attempts
import RangeLookup.Format.Spelling
import RangeLookup.Proofs.Numeral
import RangeLookup.Proofs.Format.Reading
import RangeLookup.Listing.Assembly.Assembler
import RangeLookup.Packing.Stepwise
import RangeLookup.Proofs.Packing.Agreement
import RangeLookup.Proofs.Packing.Stepwise
import RangeLookup.Settings.Resolution
import RangeLookup.CommandLine.Resolution
import RangeLookup.Proofs.Settings.Merge
import RangeLookup.Proofs.Settings.Resolution
import RangeLookup.Proofs.Settings.Layered
import RangeLookup.Proofs.CommandLine.Arguments
import RangeLookup.Proofs.CommandLine.Parts
import RangeLookup.Proofs.CommandLine.Run
import RangeLookup.Proofs.CostTable.FillOrder
import RangeLookup.Decision.Traversal
import RangeLookup.Proofs.Decision.Traversal
import RangeLookup.Proofs.Cost.Split
