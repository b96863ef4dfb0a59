import DesignLayout.CommandLine.Arguments
import DesignLayout.CommandLine.Run
import DesignLayout.Compiler.Basic
import DesignLayout.Compiler.GridScroller
import DesignLayout.Decimal.Binary64
import DesignLayout.Decimal.Numeral
import DesignLayout.Decimal.Shortest
import DesignLayout.Decimal.Text
import DesignLayout.Delivery
import DesignLayout.Diagnostic
import DesignLayout.Export
import DesignLayout.Geometry
import DesignLayout.Json.Basic
import DesignLayout.Json.Print
import DesignLayout.Json.Read
import DesignLayout.Json.Record
import DesignLayout.Json.Source
import DesignLayout.Json.Token
import DesignLayout.Label.Basic
import DesignLayout.Label.Directive
import DesignLayout.Layout.Document
import DesignLayout.Layout.Element
import DesignLayout.Layout.Frame
import DesignLayout.Layout.Pivot
import DesignLayout.Layout.Wire
import DesignLayout.Main
import DesignLayout.Probe.Anchor
import DesignLayout.Probe.Measurement
import DesignLayout.Proofs.Accepting
import DesignLayout.Proofs.Anchoring
import DesignLayout.Proofs.Annotating
import DesignLayout.Proofs.Building
import DesignLayout.Proofs.Calls
import DesignLayout.Proofs.Changing
import DesignLayout.Proofs.Checking
import DesignLayout.Proofs.Collecting
import DesignLayout.Proofs.Columns
import DesignLayout.Proofs.Commenting
import DesignLayout.Proofs.Confinement
import DesignLayout.Proofs.Cutting
import DesignLayout.Proofs.Describing
import DesignLayout.Proofs.Diagnosing
import DesignLayout.Proofs.Displacing
import DesignLayout.Proofs.Doubles
import DesignLayout.Proofs.Drifting
import DesignLayout.Proofs.Elements
import DesignLayout.Proofs.Exporting
import DesignLayout.Proofs.Finding
import DesignLayout.Proofs.Fitting
import DesignLayout.Proofs.Following
import DesignLayout.Proofs.Forest
import DesignLayout.Proofs.Fractions
import DesignLayout.Proofs.Hiding
import DesignLayout.Proofs.Identifying
import DesignLayout.Proofs.Isolating
import DesignLayout.Proofs.Layers
import DesignLayout.Proofs.LikeExports
import DesignLayout.Proofs.Likeness
import DesignLayout.Proofs.Loading
import DesignLayout.Proofs.Making
import DesignLayout.Proofs.Margins
import DesignLayout.Proofs.Matching
import DesignLayout.Proofs.Measuring
import DesignLayout.Proofs.Mirroring
import DesignLayout.Proofs.Naming
import DesignLayout.Proofs.Nearest
import DesignLayout.Proofs.Numbering
import DesignLayout.Proofs.Numerals
import DesignLayout.Proofs.Origins
import DesignLayout.Proofs.Parameters
import DesignLayout.Proofs.Parsing
import DesignLayout.Proofs.Pictures
import DesignLayout.Proofs.Pieces
import DesignLayout.Proofs.Places
import DesignLayout.Proofs.Placing
import DesignLayout.Proofs.Printing
import DesignLayout.Proofs.Probing
import DesignLayout.Proofs.Reading
import DesignLayout.Proofs.Records
import DesignLayout.Proofs.Recovering
import DesignLayout.Proofs.Redrawing
import DesignLayout.Proofs.Relabelling
import DesignLayout.Proofs.Relocating
import DesignLayout.Proofs.Reporting
import DesignLayout.Proofs.Rereading
import DesignLayout.Proofs.Rescaling
import DesignLayout.Proofs.Resizing
import DesignLayout.Proofs.RoundTrip
import DesignLayout.Proofs.Rounding
import DesignLayout.Proofs.Scaling
import DesignLayout.Proofs.Scanning
import DesignLayout.Proofs.Selecting
import DesignLayout.Proofs.Settling
import DesignLayout.Proofs.Shapes
import DesignLayout.Proofs.Showing
import DesignLayout.Proofs.Sighting
import DesignLayout.Proofs.Sizes
import DesignLayout.Proofs.Spelling
import DesignLayout.Proofs.Templates
import DesignLayout.Proofs.Transposing
import DesignLayout.Proofs.Walking
import DesignLayout.Rendition
import DesignLayout.Roots
import DesignLayout.Scalar
import DesignLayout.Scene.Basic
import DesignLayout.Scene.Elastic
import DesignLayout.Scene.Node
import DesignLayout.Scene.Snapshot
import DesignLayout.Session
import DesignLayout.Settings.Basic
import DesignLayout.Settings.Wire
import DesignLayout.Storage.Disk
import DesignLayout.Storage.FileTree
import DesignLayout.Text.Blank
import DesignLayout.Text.FileName
import DesignLayout.Text.Quoted
import DesignLayout.Text.Split
import DesignLayout.Text.Unprintable
