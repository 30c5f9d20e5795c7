import VariantCache.Engine.Metrics
import VariantCache.Main
import VariantCache.Representation.Description
import VariantCache.Service
import VariantCache.Proofs.Codec.Deflate
import VariantCache.Proofs.Codec.Zstandard
import VariantCache.Proofs.Codec.Brotli
import VariantCache.Proofs.Coding.RoundTrip
import VariantCache.Proofs.Store.GroupIndex
import VariantCache.Proofs.Store.Versions
import VariantCache.Proofs.Store.Effect
import VariantCache.Proofs.Store.Grouping
import VariantCache.Proofs.Store.Bounded
import VariantCache.Proofs.Store.Listing
import VariantCache.Proofs.Store.Census
import VariantCache.Proofs.Store.Edition
import VariantCache.Proofs.Store.Stack
import VariantCache.Proofs.Backend.Operations
import VariantCache.Proofs.Backend.Use
import VariantCache.Proofs.Backend.SingleStore
import VariantCache.Proofs.Backend.MapInUse
import VariantCache.Proofs.Backend.Turnover
import VariantCache.Proofs.Backend.WriteQueue
import VariantCache.Proofs.Backend.Drained
import VariantCache.Proofs.Backend.GroupInvalidation
import VariantCache.Proofs.Backend.View
import VariantCache.Proofs.Backend.Alike
import VariantCache.Proofs.Backend.SingleMap
import VariantCache.Proofs.Backend.Transparency
import VariantCache.Proofs.Backend.Nesting
import VariantCache.Proofs.Representation.Payload
import VariantCache.Proofs.Shelf.Payload
import VariantCache.Proofs.Bytes
import VariantCache.Proofs.Http.Request
import VariantCache.Proofs.Engine.Response
import VariantCache.Proofs.Engine.Version
import VariantCache.Proofs.Engine.Rendition
import VariantCache.Proofs.Engine.Holding
import VariantCache.Proofs.Text.Folding
import VariantCache.Proofs.Negotiation.Choice
import VariantCache.Proofs.Negotiation.Kind
import VariantCache.Proofs.Engine.Serving
import VariantCache.Proofs.Engine.Session
import VariantCache.Proofs.Engine.Provenance
import VariantCache.Proofs.Engine.Lineage
import VariantCache.Proofs.Engine.Refinement
import VariantCache.Proofs.Engine.Keys
import VariantCache.Proofs.Text.Spelling
import VariantCache.Proofs.Number.LetterCase
import VariantCache.Proofs.Negotiation.Spelling
import VariantCache.Proofs.Engine.Spelling
import VariantCache.Proofs.Backend.Starting
import VariantCache.Proofs.Net.Address
import VariantCache.Proofs.Configuration.Tables
import VariantCache.Proofs.Configuration.Building
import VariantCache.Proofs.Configuration.Checking
import VariantCache.Proofs.Configuration.Startup
import VariantCache.Proofs.Document.Overlay
import VariantCache.Proofs.Document.Layers
import VariantCache.Proofs.Configuration.Draft
import VariantCache.Proofs.Configuration.Precedence
import VariantCache.Proofs.Time
import VariantCache.Proofs.Engine.Headers
import VariantCache.Proofs.Engine.Lifetime
import VariantCache.Proofs.Engine.Failure
import VariantCache.Proofs.Backend.Flattening
import VariantCache.Proofs.Shelf.Requests
import VariantCache.Proofs.Shelf.Damage
import VariantCache.Proofs.Negotiation.Precedence
import VariantCache.Proofs.Negotiation.Independence
import VariantCache.Proofs.Number.Rounding
import VariantCache.Proofs.Number.Nearest
import VariantCache.Proofs.Number.Grammar
import VariantCache.Proofs.Number.Weight
import VariantCache.Proofs.Text.Pieces
import VariantCache.Proofs.Negotiation.Coding
import VariantCache.Proofs.Negotiation.Malformed
import VariantCache.Proofs.Lifecycle.Turns
import VariantCache.Proofs.Lifecycle.Crew
import VariantCache.Proofs.Backend.Crew
import VariantCache.Proofs.Coding.Delivery
import VariantCache.Proofs.Representation.Expiration
import VariantCache.Proofs.Http.Lines
import VariantCache.Proofs.Preference.Echo
import VariantCache.Proofs.Negotiation.Lines
