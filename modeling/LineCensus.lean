import LineCensus.Main
import LineCensus.Reading
import LineCensus.Stored
import LineCensus.Proofs.LeadingComments
import LineCensus.Proofs.Interleaving
import LineCensus.Proofs.CursorProgress
import LineCensus.Proofs.FreshStart
import LineCensus.Census.Events
import LineCensus.Proofs.RefusedRuns
import LineCensus.Proofs.Validation
import LineCensus.Proofs.Indentation
import LineCensus.Proofs.StoredMarkers
import LineCensus.Proofs.BlankLines
import LineCensus.Proofs.Listing
import LineCensus.Proofs.ConfigFormats
import LineCensus.Proofs.CachedSearch
import LineCensus.Proofs.CarriedState
import LineCensus.Proofs.WrittenLines
import LineCensus.Proofs.GatheredTallies
import LineCensus.Proofs.MarkerOrder
import LineCensus.Proofs.ShadowedPairs
import LineCensus.Proofs.TrailingBlanks
import LineCensus.Proofs.ConfigPieces
import LineCensus.Proofs.Overrides
import LineCensus.Proofs.ReportReading
import LineCensus.Proofs.RepeatedValidation
import LineCensus.Proofs.SearchedRanges
import LineCensus.Proofs.StoredRecords
import LineCensus.Proofs.RenderedArguments
