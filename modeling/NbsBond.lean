import NbsBond.Framework.Int128
import NbsBond.Framework.Result
import NbsBond.Framework.FinSum
import NbsBond.Framework.Run
import NbsBond.Shared.Types
import NbsBond.BondIssuer.Model
import NbsBond.BondIssuer.Ledger
import NbsBond.ProjectRegistry.Model
import NbsBond.OracleConsumer.Model
import NbsBond.CouponEngine.Model
import NbsBond.CreditRetirement.Model
import NbsBond.Protocol.Model
import NbsBond.Governance.Ballot
import NbsBond.Governance.Execution
import NbsBond.OracleConsumer.Docket
import NbsBond.OracleConsumer.LifeCycle
import NbsBond.Protocol.Reports
import NbsBond.CouponEngine.Accounts
import NbsBond.CouponEngine.Distribution
import NbsBond.CouponEngine.Periods
import NbsBond.Protocol.Periods
import NbsBond.Protocol.Minting
import NbsBond.Protocol.Approval
import NbsBond.CouponEngine.Credits
import NbsBond.Protocol.Credits
import NbsBond.CouponEngine.Batching
import NbsBond.CouponEngine.Slices
import NbsBond.CouponEngine.Payments
import NbsBond.Protocol.Batching
import NbsBond.Framework.Pledges
import NbsBond.OracleConsumer.Locks
import NbsBond.OracleConsumer.Roster
import NbsBond.Protocol.Collateral
import NbsBond.OracleConsumer.Roles
import NbsBond.Protocol.Separation
import NbsBond.Framework.Windows
import NbsBond.OracleConsumer.Windows
import NbsBond.Protocol.Windows
import NbsBond.NonceService.Allocation
import NbsBond.Marketplace.Model
import NbsBond.DexRouter.Orders
import NbsBond.Marketplace.Settlement
import NbsBond.Marketplace.Orders
import NbsBond.DexRouter.Ledger
import NbsBond.CouponEngine.Completion
import NbsBond.Protocol.Completion
import NbsBond.BondIssuer.Holders
import NbsBond.BondIssuer.Register
import NbsBond.BondIssuer.Maturity
import NbsBond.ContractService.Encoding
import NbsBond.BondsService.Coupons
import NbsBond.ProjectRegistry.Catalogue
import NbsBond.ProjectRegistry.Listing
import NbsBond.Framework.Counting
import NbsBond.Governance.Accounting
import NbsBond.Governance.Nonces
import NbsBond.OracleConsumer.Council
import NbsBond.Framework.Handover
import NbsBond.ProjectRegistry.Authority
import NbsBond.Protocol.Rotation
import NbsBond.Protocol.RegistryNonce
import NbsBond.OracleConsumer.Electorate
import NbsBond.Protocol.Supermajority
import NbsBond.Protocol.Verifiability
import NbsBond.OracleConsumer.Bonds
import NbsBond.Protocol.Bonds
import NbsBond.OracleConsumer.Stakes
import NbsBond.Protocol.Stakes
import NbsBond.Protocol.Penalties
import NbsBond.Protocol.PenaltyTotal
import NbsBond.Protocol.Exhaustion
import NbsBond.Framework.Silent
import NbsBond.Governance.Migration
import NbsBond.Governance.Window
import NbsBond.Governance.Allowlist
import NbsBond.NonceService.Mirror
import NbsBond.ContractService.Sending
import NbsBond.DexService.Operations
import NbsBond.ContractService.Structs
import NbsBond.ContractService.Native
import NbsBond.ContractService.Bytes32
import NbsBond.DexService.Decoding
import NbsBond.BondsService.Decoding
import NbsBond.KycService.CircuitBreaker
import NbsBond.Framework.Async
import NbsBond.Framework.Expiring
import NbsBond.KycService.Model
import NbsBond.KycService.Revocation
import NbsBond.AuthService.Model
import NbsBond.AuthService.Challenges
import NbsBond.Framework.Posting
import NbsBond.CreditRetirement.Ledger
import NbsBond.Protocol.Retirements
import NbsBond.OracleConsumer.Threshold
import NbsBond.Protocol.Threshold
import NbsBond.Framework.Marking
import NbsBond.DexRouter.Sweep
import NbsBond.Framework.Insertion
import NbsBond.Framework.Greedy
import NbsBond.DexRouter.Index
import NbsBond.DexRouter.Quote
import NbsBond.Marketplace.Quotes
import NbsBond.Framework.Paging
import NbsBond.CouponEngine.History
import NbsBond.Protocol.History
import NbsBond.Framework.ProRata
import NbsBond.CouponEngine.ProRata
import NbsBond.Protocol.ProRata
import NbsBond.Framework.Traced
import NbsBond.CouponEngine.Products
import NbsBond.Protocol.Products
import NbsBond.DexRouter.Purchase
import NbsBond.Marketplace.Purchases
import NbsBond.Marketplace.Execution
import NbsBond.Protocol.RetiredByType
import NbsBond.CreditRetirement.KeepAlive
import NbsBond.Governance.Query
import NbsBond.Framework.Calendar
import NbsBond.CreditRetirement.Vintage
import NbsBond.Framework.Radix
import NbsBond.Evidence.Base32
import NbsBond.Evidence.Base58
import NbsBond.Evidence.CidV0
import NbsBond.Evidence.CidV1
import NbsBond.Framework.JsonText
import NbsBond.Framework.Json
import NbsBond.Framework.JsonOrder
import NbsBond.Evidence.CanonicalJson
import NbsBond.Framework.BoundedLog
import NbsBond.DeadLetter.Model
import NbsBond.DeadLetter.Runs
import NbsBond.Health.Alerts
import NbsBond.StellarService.Backoff
import NbsBond.Protocol.Replay
import NbsBond.Marketplace.Custody
import NbsBond.Protocol.Custody
import NbsBond.Protocol.Backing
import NbsBond.ContractService.Confirmation
import NbsBond.OracleScheduler.DeadLetters
import NbsBond.Protocol.Indices
import NbsBond.Protocol.Containment
import NbsBond.OracleService.ChallengeLimit
