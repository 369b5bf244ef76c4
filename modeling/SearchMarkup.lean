import SearchMarkup.Codec.Settings
import SearchMarkup.Main
import SearchMarkup.Proofs.Query.Place
import SearchMarkup.Proofs.Query.QuoteMemo
import SearchMarkup.Proofs.Query.ScanSteps
import SearchMarkup.Proofs.Query.Tiling
import SearchMarkup.Proofs.Query.Classification
import SearchMarkup.Proofs.Query.ClosingQuote
import SearchMarkup.Proofs.Query.Fitting
import SearchMarkup.Proofs.Query.PlainRuns
import SearchMarkup.Proofs.Query.Trace
import SearchMarkup.Proofs.Query.Seam
import SearchMarkup.Proofs.Query.Composition
import SearchMarkup.Proofs.Query.Opacity
import SearchMarkup.Proofs.Marking.Decomposition
import SearchMarkup.Proofs.Html.CodedText
import SearchMarkup.Proofs.Html.QueryReading
import SearchMarkup.Proofs.Session.Shown
import SearchMarkup.Proofs.Query.Escaping
import SearchMarkup.Proofs.Query.Words
import SearchMarkup.Proofs.Query.NearMisses
import SearchMarkup.Proofs.Session.Bookkeeping
import SearchMarkup.Proofs.Marking.Rejoining
import SearchMarkup.Proofs.Html.ParagraphReading
import SearchMarkup.Proofs.Query.Reuse
import SearchMarkup.Proofs.Codec.InputShapes
import SearchMarkup.Proofs.Application.SetUp
import SearchMarkup.Proofs.Marking.Metrics
import SearchMarkup.Proofs.Report.ShownDocument
import SearchMarkup.Proofs.Codec.RoundTrip
import SearchMarkup.Proofs.Query.OpenQuote
import SearchMarkup.Proofs.Journal.Recording
import SearchMarkup.Proofs.Text.WrittenLines
import SearchMarkup.Proofs.CommandLine.Channels
import SearchMarkup.Proofs.Query.OffsetRules
import SearchMarkup.Proofs.Query.OffsetScan
import SearchMarkup.Proofs.Query.WholeWords
import SearchMarkup.Proofs.Session.Admission
import SearchMarkup.Proofs.Query.WordBorders
import SearchMarkup.Proofs.Query.LinesAndColumns
import SearchMarkup.Proofs.Query.Coverage
import SearchMarkup.Proofs.Query.TokenSearch
import SearchMarkup.Proofs.Query.Reports
import SearchMarkup.Proofs.Marking.DanglingTag
import SearchMarkup.Proofs.Report.TextReading
import SearchMarkup.Proofs.Query.SearchCost
import SearchMarkup.Proofs.Journal.StoredMessage
import SearchMarkup.Proofs.Journal.EventLine
import SearchMarkup.Proofs.Html.EntityDecoding
