import Navin.Solvency
import Navin.Stranding
import Navin.Recovered
import Navin.Lifecycle
import Navin.Announcements
import Navin.Reconciliation
import Navin.Isolation
import Navin.Orphans
import Navin.Succession
import Navin.Pause
import Navin.Lock
import Navin.Outsiders
import Navin.Suspension
import Navin.Roles
import Navin.Trail
import Navin.Batches
import Navin.Parties
import Navin.Headcount
import Navin.Checkpoints
import Navin.Quota
import Navin.Breaker
import Navin.Recomputation
import Navin.Nonces
import Navin.Census
import Navin.Milestones
import Navin.Notes
import Navin.NavinToken.Deltas
import Navin.NavinToken.Batch
import Navin.Apportionment
import Navin.Dependencies
import Navin.Timing
import Navin.Sequence
import Navin.Breaches
import Navin.Releases
import Navin.Streaks
import Navin.Listings
import Navin.Drift
import Navin.Idempotency
import Navin.NavinToken.Joint
import Navin.Provenance
import Navin.Exits
import Navin.Journal
import Navin.Powers
import Navin.Analytics
import Navin.Filings
import Navin.Indexer
import Navin.Quorum
import Navin.NavinToken.Metadata
import Navin.NavinToken.Statements
import Navin.Histories
