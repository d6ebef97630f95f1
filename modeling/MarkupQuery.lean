import MarkupQuery.CommandLine.Directory
import MarkupQuery.Main
import MarkupQuery.Proofs.CommandLine.FirstMatch
import MarkupQuery.Proofs.Document.TrimmedLeaves
import MarkupQuery.Proofs.Markup.Alternatives
import MarkupQuery.Proofs.Markup.Balance
import MarkupQuery.Proofs.Markup.Depth
import MarkupQuery.Proofs.Markup.RawElement
import MarkupQuery.Proofs.Markup.RoundTrip
import MarkupQuery.Proofs.Markup.SourceOrder
import MarkupQuery.Proofs.Markup.TrailingTags
import MarkupQuery.Proofs.Matching.Composition
import MarkupQuery.Proofs.Selector.CommaList
import MarkupQuery.Proofs.Selector.ListWriting
