import ComputeMarket.Site.HostExclusion
import ComputeMarket.Site.EventFeed
import ComputeMarket.Settlement.Exclusion
import ComputeMarket.Settlement.Attempts
import ComputeMarket.Relays.Ports
import ComputeMarket.Relays.GrantKeys
import ComputeMarket.Relays.Admission
import ComputeMarket.Jobs.Safety
import ComputeMarket.Fulfillment.Acknowledgement
import ComputeMarket.Provisioning.HeldCapacity
import ComputeMarket.Provisioning.Assignment
import ComputeMarket.Settlement.Receipts
import ComputeMarket.Site.LeaseWindow
import ComputeMarket.Middleware.Conformance
import ComputeMarket.Middleware.Admission
import ComputeMarket.Credits.Conservation
import ComputeMarket.Credits.QuotaRuns
import ComputeMarket.Middleware.Estimates
import ComputeMarket.Middleware.Distinct
import ComputeMarket.Servicing.Filings
import ComputeMarket.Servicing.Delivery
import ComputeMarket.Servicing.Authorization
import ComputeMarket.Servicing.Billing
import ComputeMarket.Servicing.Advance
import ComputeMarket.Servicing.Retries
import ComputeMarket.Servicing.Cases
import ComputeMarket.Servicing.Retention
import ComputeMarket.Storefront.Listings
import ComputeMarket.Storefront.Refunds
import ComputeMarket.Storefront.Replay
import ComputeMarket.Payments.Reversal
import ComputeMarket.Publication.Coverage
import ComputeMarket.Publication.Repair
import ComputeMarket.Negotiation.Outcome
import ComputeMarket.Buyer.ShapeGuard
import ComputeMarket.Buyer.Amounts
import ComputeMarket.Buyer.Bargaining
import ComputeMarket.Capacity.Aggregation
import ComputeMarket.Alkahest.Intervals
import ComputeMarket.Principals.Safety
import ComputeMarket.Query.Faithful
import ComputeMarket.Shapes.Completion
import ComputeMarket.Shapes.Splitting
import ComputeMarket.Site.Availability
import ComputeMarket.Site.Resizing
import ComputeMarket.Payments.Durations
import ComputeMarket.Provisioning.Fairness
import ComputeMarket.Shapes.Conversion
import ComputeMarket.Site.LeaseEnds
import ComputeMarket.Site.ProjectionDigests
import ComputeMarket.Site.Definitions
import ComputeMarket.Site.History
