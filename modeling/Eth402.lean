import Eth402.Store.Nonces
import Eth402.System.Sends
import Eth402.System.Waiter
import Eth402.System.Watch
import Eth402.System.Finality
import Eth402.Store.Errors
import Eth402.System.Replies
import Eth402.System.Retired
import Eth402.Verification.Canonical
import Eth402.System.Authorization
import Eth402.Store.Rebuild
import Eth402.System.Verified
import Eth402.Lib.Window
import Eth402.Store.Quota
import Eth402.System.Quota
import Eth402.Lib.Lease
import Eth402.Store.Leases
import Eth402.System.Sessions
import Eth402.Settlement.Tally
import Eth402.System.Rows
import Eth402.Lib.Walk
import Eth402.Store.Audit
import Eth402.Store.Commits
import Eth402.System.Escalation
import Eth402.System.Fillers
import Eth402.Settlement.Signature
import Eth402.System.Signatures
import Eth402.Ethereum.Rpc
import Eth402.System.Agreement
import Eth402.Lib.Word
import Eth402.Policy.Words
import Eth402.Ethereum.Transaction
import Eth402.Policy.Unsigned
import Eth402.Signer.Client
import Eth402.Signer.Boundary
import Eth402.Signer.Identity
import Eth402.Policy.FeeChain
import Eth402.Store.Attribution
import Eth402.Settlement.Ended
import Eth402.Store.Redaction
import Eth402.System.Retention
import Eth402.Settlement.Bumps
import Eth402.Settlement.Wire
import Eth402.Ethereum.Agreement
import Eth402.Settlement.Observation
import Eth402.System.Intents
import Eth402.System.Receipts
import Eth402.Store.Ambiguous
import Eth402.System.Backoff
import Eth402.Store.Bytes
import Eth402.System.Fleet
import Eth402.X402.Amount
import Eth402.X402.Identity
import Eth402.Http.Address
import Eth402.Signer.Kms
import Eth402.Http.RateLimiter
import Eth402.Http.Trusted
import Eth402.Lib.Provenance
import Eth402.Store.FairUse
import Eth402.Http.Decode
import Eth402.Merchant.Leaderboard
import Eth402.Lib.Relation
import Eth402.Lib.Sql
import Eth402.Lib.Transactions
import Eth402.Lib.Traces
import Eth402.Store.Recording
import Eth402.Store.Converge
import Eth402.Merchant.Tables
import Eth402.Merchant.Service
import Eth402.Merchant.Requests
import Eth402.Merchant.Commits
import Eth402.Merchant.Runs
import Eth402.Merchant.Outbox
import Eth402.Merchant.Resend
import Eth402.Merchant.Registry
import Eth402.Merchant.Recipients
import Eth402.Merchant.Panel
import Eth402.Email.Smtp
import Eth402.Merchant.OneTime
import Eth402.System.Diagram
