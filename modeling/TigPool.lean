import TigPool.Arbitration
import TigPool.Archive
import TigPool.Balances
import TigPool.Basis.Apportionment
import TigPool.Basis.Asking
import TigPool.Basis.CallTree
import TigPool.Basis.Checked
import TigPool.Basis.Cutoff
import TigPool.Basis.Evolution
import TigPool.Basis.Merkle
import TigPool.Basis.Number
import TigPool.Basis.Paging
import TigPool.Basis.Postings
import TigPool.Basis.Returns
import TigPool.Basis.Runs
import TigPool.Basis.Search
import TigPool.Basis.Since
import TigPool.Basis.Spans
import TigPool.Basis.Table
import TigPool.Basis.Traversal
import TigPool.Benchmarks
import TigPool.Blocks
import TigPool.Books
import TigPool.BundleCredit
import TigPool.Captures
import TigPool.Chain
import TigPool.Changes
import TigPool.Choice
import TigPool.ChunkLife
import TigPool.Collateral
import TigPool.Compact
import TigPool.CompactView
import TigPool.Conservation
import TigPool.Controls
import TigPool.Coupling
import TigPool.CreditLedger
import TigPool.CreditedFloor
import TigPool.Credits
import TigPool.Cursor
import TigPool.Custody
import TigPool.CustodyCursor
import TigPool.CustodyGate
import TigPool.CustodyObserver
import TigPool.CustodyReading
import TigPool.Dispatch
import TigPool.EqualBundle
import TigPool.Evidence
import TigPool.ExternalMoney
import TigPool.Facts
import TigPool.Frozen
import TigPool.Gaps
import TigPool.Invariant
import TigPool.Journals
import TigPool.Json
import TigPool.KeptBlocks
import TigPool.Lawful
import TigPool.Ledger
import TigPool.Limits
import TigPool.MemberApi
import TigPool.MemberBalance
import TigPool.MemberRecords
import TigPool.Members
import TigPool.MerkleProofs
import TigPool.Money
import TigPool.NativeFunding
import TigPool.Observation
import TigPool.OfferQueue
import TigPool.Openings
import TigPool.Outbox
import TigPool.OutcomeEvidence
import TigPool.Outcomes
import TigPool.Ownership
import TigPool.Paging
import TigPool.Payments
import TigPool.Pilot
import TigPool.PilotLimits
import TigPool.PoolView
import TigPool.Positions
import TigPool.Posting
import TigPool.ProofRoot
import TigPool.Protocol
import TigPool.Reading
import TigPool.Reconciler
import TigPool.Refinement.Archive
import TigPool.Refinement.Benchmarks
import TigPool.Refinement.Custody
import TigPool.Refinement.Moves
import TigPool.Refinement.Observation
import TigPool.Refinement.Openings
import TigPool.Refinement.Settlement
import TigPool.Refinement.Submissions
import TigPool.Refinement.Topups
import TigPool.Refinement.Withdrawals
import TigPool.Replays
import TigPool.Reports
import TigPool.Responses
import TigPool.Retention
import TigPool.RetentionDay
import TigPool.Rewards
import TigPool.RoundPot
import TigPool.Rows
import TigPool.Schema
import TigPool.Selection
import TigPool.SelectionRule
import TigPool.Service
import TigPool.Sessions
import TigPool.SettledCredit
import TigPool.Settlement
import TigPool.SingleSend
import TigPool.Spending
import TigPool.Submissions
import TigPool.System
import TigPool.TopupCycle
import TigPool.Topups
import TigPool.Uploads
import TigPool.WalletChanges
import TigPool.WalletKeeping
import TigPool.Wallets
import TigPool.Wire
import TigPool.WithdrawalCycle
import TigPool.Withdrawals
import TigPool.WorkQueue
import TigPool.WorkRequests
