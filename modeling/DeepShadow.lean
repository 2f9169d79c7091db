import DeepShadow.Assembly.Assembler
import DeepShadow.Assembly.Error
import DeepShadow.Assembly.PendingTile
import DeepShadow.Assembly.Sink
import DeepShadow.Assembly.Strip
import DeepShadow.Assembly.Words
import DeepShadow.Bucket.Basic
import DeepShadow.Bucket.Shade
import DeepShadow.Cache.Basic
import DeepShadow.Cache.Reader
import DeepShadow.Color
import DeepShadow.CommandLine.Invocation
import DeepShadow.CommandLine.Option
import DeepShadow.CommandLine.Report
import DeepShadow.CommandLine.Run
import DeepShadow.Configuration
import DeepShadow.Decimal
import DeepShadow.Demo.Render
import DeepShadow.Demo.Scene
import DeepShadow.FileError
import DeepShadow.FileTree
import DeepShadow.Gather
import DeepShadow.Grid.Basic
import DeepShadow.Grid.TileMap
import DeepShadow.Grid.TileSet
import DeepShadow.Hit
import DeepShadow.Json
import DeepShadow.Log
import DeepShadow.Main
import DeepShadow.Merge
import DeepShadow.Picture.Basic
import DeepShadow.Picture.Png
import DeepShadow.Program
import DeepShadow.Proofs.Assembly.Arrival
import DeepShadow.Proofs.Assembly.Calls
import DeepShadow.Proofs.Assembly.Canvas
import DeepShadow.Proofs.Assembly.Completing
import DeepShadow.Proofs.Assembly.Counting
import DeepShadow.Proofs.Assembly.Eliding
import DeepShadow.Proofs.Assembly.Emission
import DeepShadow.Proofs.Assembly.FullTiles
import DeepShadow.Proofs.Assembly.Image
import DeepShadow.Proofs.Assembly.InPlace
import DeepShadow.Proofs.Assembly.Intake
import DeepShadow.Proofs.Assembly.Objections
import DeepShadow.Proofs.Assembly.Refusals
import DeepShadow.Proofs.Assembly.Runs
import DeepShadow.Proofs.Assembly.Slots
import DeepShadow.Proofs.Assembly.Strips
import DeepShadow.Proofs.Assembly.Words
import DeepShadow.Proofs.Assembly.Workbench
import DeepShadow.Proofs.Behavior
import DeepShadow.Proofs.Bucket.Agreement
import DeepShadow.Proofs.Bucket.Cover
import DeepShadow.Proofs.Bucket.Shading
import DeepShadow.Proofs.Cache.Bound
import DeepShadow.Proofs.Cache.Calls
import DeepShadow.Proofs.Cache.Eviction
import DeepShadow.Proofs.Cache.Ranking
import DeepShadow.Proofs.Cache.Recency
import DeepShadow.Proofs.Cache.Sharing
import DeepShadow.Proofs.Cache.Simultaneous
import DeepShadow.Proofs.Cache.SingleFlight
import DeepShadow.Proofs.Cache.Source
import DeepShadow.Proofs.Cache.Transparency
import DeepShadow.Proofs.Cache.Waiting
import DeepShadow.Proofs.CommandLine.Runs
import DeepShadow.Proofs.CommandLine.Slices
import DeepShadow.Proofs.Grid.Bitmap
import DeepShadow.Proofs.Grid.Insertions
import DeepShadow.Proofs.Grid.Lookup
import DeepShadow.Proofs.Grid.Membership
import DeepShadow.Proofs.Grid.Partition
import DeepShadow.Proofs.Grid.Pixels
import DeepShadow.Proofs.Grid.Tiling
import DeepShadow.Proofs.Session.Eliding
import DeepShadow.Proofs.Session.EndToEnd
import DeepShadow.Proofs.Session.Merged
import DeepShadow.Proofs.Session.Outcome
import DeepShadow.Proofs.Session.Storing
import DeepShadow.Proofs.ShadowMap.GreatestDepth
import DeepShadow.Proofs.ShadowMap.History
import DeepShadow.Proofs.ShadowMap.Keeping
import DeepShadow.Proofs.ShadowMap.Pattern
import DeepShadow.Proofs.ShadowMap.PointFilter
import DeepShadow.Proofs.ShadowMap.Questions
import DeepShadow.Proofs.ShadowMap.Slices
import DeepShadow.Proofs.Single.Accuracy
import DeepShadow.Proofs.Single.Exact
import DeepShadow.Proofs.Single.Lowering
import DeepShadow.Proofs.Single.Nearest
import DeepShadow.Proofs.Single.Order
import DeepShadow.Proofs.Single.Results
import DeepShadow.Proofs.Single.Rounding
import DeepShadow.Proofs.Single.Thirds
import DeepShadow.Proofs.Texture.Acceptance
import DeepShadow.Proofs.Texture.BlockEnds
import DeepShadow.Proofs.Texture.Closing
import DeepShadow.Proofs.Texture.Codec
import DeepShadow.Proofs.Texture.Contents
import DeepShadow.Proofs.Texture.Diagnosis
import DeepShadow.Proofs.Texture.Eliding
import DeepShadow.Proofs.Texture.Framing
import DeepShadow.Proofs.Texture.Layout
import DeepShadow.Proofs.Texture.Loading
import DeepShadow.Proofs.Texture.Lookup
import DeepShadow.Proofs.Texture.Reading
import DeepShadow.Proofs.Texture.Records
import DeepShadow.Proofs.Texture.Refusals
import DeepShadow.Proofs.Texture.RoundTrip
import DeepShadow.Proofs.Texture.Serialization
import DeepShadow.Proofs.Texture.Writing
import DeepShadow.Proofs.Tile.Lookup
import DeepShadow.Proofs.Tile.SingleNodes
import DeepShadow.Proofs.Tile.Slices
import DeepShadow.Proofs.Tile.Synthesized
import DeepShadow.Proofs.Tile.WellFormed
import DeepShadow.Proofs.Visibility.Bisection
import DeepShadow.Proofs.Visibility.ClearHits
import DeepShadow.Proofs.Visibility.Constancy
import DeepShadow.Proofs.Visibility.Coverage
import DeepShadow.Proofs.Visibility.Descent
import DeepShadow.Proofs.Visibility.GrayStorage
import DeepShadow.Proofs.Visibility.Hidden
import DeepShadow.Proofs.Visibility.Levels
import DeepShadow.Proofs.Visibility.Merging
import DeepShadow.Proofs.Visibility.Queue
import DeepShadow.Proofs.Visibility.Reference
import DeepShadow.Proofs.Visibility.Refinement
import DeepShadow.Proofs.Visibility.Reordering
import DeepShadow.Proofs.Visibility.Rounds
import DeepShadow.Proofs.Visibility.Search
import DeepShadow.Proofs.Visibility.Shares
import DeepShadow.Proofs.Visibility.SingleNode
import DeepShadow.Proofs.Visibility.Taken
import DeepShadow.Proofs.Visibility.WholeNodes
import DeepShadow.Query
import DeepShadow.Region
import DeepShadow.Route
import DeepShadow.SampleQuad
import DeepShadow.Session
import DeepShadow.ShadowMap
import DeepShadow.Single.Arithmetic
import DeepShadow.Single.Basic
import DeepShadow.Single.Decimal
import DeepShadow.Texture.Block
import DeepShadow.Texture.Error
import DeepShadow.Texture.Header
import DeepShadow.Texture.OutputFile
import DeepShadow.Texture.Reader
import DeepShadow.Texture.Settings
import DeepShadow.Texture.Table
import DeepShadow.Texture.Word
import DeepShadow.Texture.Writer
import DeepShadow.Tile
import DeepShadow.Toml.Document
import DeepShadow.Toml.Scalar
import DeepShadow.Toml.Scan
import DeepShadow.Toml.Text
import DeepShadow.Toml.Value
import DeepShadow.Violation
import DeepShadow.Visibility.Curve
import DeepShadow.Visibility.StoredCurve
