import SearchMapper.Json.Literal
import SearchMapper.Json.Printer
import SearchMapper.Mapping.Declaration.Basic
import SearchMapper.Query.Value.Conversion
import SearchMapper.Query.Value.Exchange
import SearchMapper.Repository.Invoke
import SearchMapper.Proofs.Index.EditDistance
import SearchMapper.Proofs.Index.FacetCounts
import SearchMapper.Proofs.Index.SortedHits
import SearchMapper.Proofs.Index.Termination
import SearchMapper.Proofs.Index.ValueOrder
import SearchMapper.Proofs.Index.Wildcard
import SearchMapper.Proofs.Mapping.Declarations
import SearchMapper.Proofs.Mapping.RoundTrip
import SearchMapper.Proofs.Mapping.Walks
import SearchMapper.Proofs.MethodName.Refusals
import SearchMapper.Proofs.MethodName.Trees
import SearchMapper.Proofs.MethodName.Wording
import SearchMapper.Proofs.Query.Alternatives
import SearchMapper.Proofs.Query.Building
import SearchMapper.Proofs.Query.Exchange
import SearchMapper.Proofs.Query.Instants
import SearchMapper.Proofs.Query.Members
import SearchMapper.Proofs.Query.Placeholders
import SearchMapper.Proofs.Query.QuotedBounds
import SearchMapper.Proofs.Query.WrittenText
import SearchMapper.Proofs.Repository.CatalogText
import SearchMapper.Proofs.Repository.Changes
import SearchMapper.Proofs.Repository.IdLists
import SearchMapper.Proofs.Repository.LimitedFinds
import SearchMapper.Proofs.Repository.LimitWords
import SearchMapper.Proofs.Repository.OpenEntries
import SearchMapper.Proofs.Repository.Paging
import SearchMapper.Proofs.Repository.RefusedBatches
import SearchMapper.Proofs.Repository.Resolution
