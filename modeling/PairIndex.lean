import PairIndex.Ledger.Client
import PairIndex.Ledger.RateLimit
import PairIndex.Main
import PairIndex.Proofs.Crawl.Accounting
import PairIndex.Proofs.Crawl.Batches
import PairIndex.Proofs.Crawl.Offers
import PairIndex.Proofs.Crawl.Pages
import PairIndex.Proofs.Crawl.Paths
import PairIndex.Proofs.Crawl.Place
import PairIndex.Proofs.Ledger.Cache
import PairIndex.Proofs.Event.Format
import PairIndex.Proofs.Event.DataLine
import PairIndex.Proofs.Event.RawText
import PairIndex.Proofs.Ingest.Acceptance
import PairIndex.Proofs.Ingest.Balances
import PairIndex.Proofs.Ingest.Capacity
import PairIndex.Proofs.Ingest.Integrity
import PairIndex.Proofs.Ingest.Liquidation
import PairIndex.Proofs.Ingest.Ownership
import PairIndex.Proofs.Ingest.Pair
import PairIndex.Proofs.Ingest.Position
import PairIndex.Proofs.Ingest.Replay
import PairIndex.Proofs.Ingest.Resumption
import PairIndex.Proofs.Ingest.Snapshot
import PairIndex.Proofs.Ingest.Sources
import PairIndex.Proofs.Ledger.RateLimit
import PairIndex.Proofs.Live.Reconnection
import PairIndex.Proofs.Number.Ratio
import PairIndex.Proofs.Service.Busy
import PairIndex.Proofs.Service.Isolation
import PairIndex.Proofs.Settings.Bounds
import PairIndex.Proofs.Settings.Redaction
import PairIndex.Store.Dump
