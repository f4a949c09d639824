import Storyboard.Main
import Storyboard.Painter.Trace
import Storyboard.Screen.Given
import Storyboard.Session
import Storyboard.Proofs.DepthFirst
import Storyboard.Proofs.CycleBreaking
import Storyboard.Proofs.BoxDrawing
import Storyboard.Proofs.BoxCells
import Storyboard.Proofs.CanvasText
import Storyboard.Proofs.LayerCover
import Storyboard.Proofs.Cards
import Storyboard.Proofs.CardPlacement
import Storyboard.Proofs.Rendering
import Storyboard.Proofs.TextDiagram
import Storyboard.Proofs.Cutting
import Storyboard.Proofs.WellFormed
import Storyboard.Proofs.RoundTrip
import Storyboard.Proofs.Grammar
import Storyboard.Proofs.LineByLine
import Storyboard.Proofs.Segments
import Storyboard.Proofs.JoinedTexts
import Storyboard.Proofs.SkippedLines
import Storyboard.Proofs.Passes
import Storyboard.Proofs.ConnectorListing
import Storyboard.Proofs.ReviewFindings
import Storyboard.Proofs.FailedActs
import Storyboard.Proofs.PainterReuse
import Storyboard.Proofs.TotalDiagrams
import Storyboard.Proofs.LongestPaths
import Storyboard.Proofs.Slots
import Storyboard.Proofs.EntryScreen
import Storyboard.Proofs.MeanOrder
import Storyboard.Proofs.NearMeans
import Storyboard.Proofs.GreedyLines
import Storyboard.Proofs.WiderLines
import Storyboard.Proofs.FewestLines
import Storyboard.Proofs.BoxMeasures
import Storyboard.Proofs.SectionRules
import Storyboard.Proofs.CardRows
import Storyboard.Proofs.Conversation
import Storyboard.Proofs.CardContent
import Storyboard.Proofs.FrameRows
import Storyboard.Proofs.FramedCards
import Storyboard.Proofs.CardLines
import Storyboard.Proofs.FailedPlaces
import Storyboard.Proofs.AppendedScreens
import Storyboard.Proofs.ParallelLinks
import Storyboard.Proofs.UnseenChanges
import Storyboard.Proofs.LineAccount
import Storyboard.Proofs.PaddedLines
import Storyboard.Proofs.Utf8Decoding
import Storyboard.Proofs.AllOrNothing
import Storyboard.Proofs.UnreadableInput
import Storyboard.Proofs.GivenScreens
