import Cixtech.Admin.AuditTrail
import Cixtech.Admin.ControlPlane
import Cixtech.Admin.OperatorAccounts
import Cixtech.Admin.RouteAccess
import Cixtech.Attribution.BalanceCache
import Cixtech.Attribution.FewestAddresses
import Cixtech.Attribution.GatherLease
import Cixtech.Attribution.LeaseOwnership
import Cixtech.Attribution.ObservedGroups
import Cixtech.Attribution.PoolCalls
import Cixtech.Attribution.PoolGatherer
import Cixtech.Attribution.PoolManager
import Cixtech.Attribution.PoolRuns
import Cixtech.Attribution.PoolStore
import Cixtech.Auth.ApiKeys
import Cixtech.Auth.Base32
import Cixtech.Auth.Credentials
import Cixtech.Auth.Lockout
import Cixtech.Auth.SecondFactor
import Cixtech.Auth.Sessions
import Cixtech.Auth.SignInTraces
import Cixtech.Auth.SingleUse
import Cixtech.Auth.StoreRefinements
import Cixtech.ChainConfig.Amount
import Cixtech.ChainConfig.Tokens
import Cixtech.Chains.SignedTransfers
import Cixtech.Common.Instant
import Cixtech.Common.Text
import Cixtech.Evm.Abi
import Cixtech.Evm.ChecksumAddresses
import Cixtech.Evm.EvmAdapter
import Cixtech.Evm.EvmDepositSource
import Cixtech.Evm.EvmTx
import Cixtech.Evm.Rlp
import Cixtech.Evm.ScannedRanges
import Cixtech.Foundation.BigEndian
import Cixtech.Foundation.DefaultMap
import Cixtech.Foundation.Delimiters
import Cixtech.Foundation.Executions
import Cixtech.Foundation.FixedPoint
import Cixtech.Foundation.Interpolation
import Cixtech.Foundation.IpTexts
import Cixtech.Foundation.Ipv6Texts
import Cixtech.Foundation.Joins
import Cixtech.Foundation.LargestFirst
import Cixtech.Foundation.LucasPrimes
import Cixtech.Foundation.Processes
import Cixtech.Foundation.Protobuf
import Cixtech.Foundation.ProtobufWriting
import Cixtech.Foundation.Regrouping
import Cixtech.Foundation.Rlp
import Cixtech.Foundation.SharedCursor
import Cixtech.Foundation.SqlLike
import Cixtech.Foundation.Table
import Cixtech.Foundation.Tallies
import Cixtech.Foundation.Transactions
import Cixtech.Foundation.Transducers
import Cixtech.Frontend.AmountTexts
import Cixtech.Frontend.Money
import Cixtech.Ingest.Announcements
import Cixtech.Ingest.DepositIngestor
import Cixtech.Ingest.DepositWatcher
import Cixtech.Ingest.QuarantineHold
import Cixtech.Ingest.RejectedDeposits
import Cixtech.Ingest.ReorgHistory
import Cixtech.Ledger.Accounts
import Cixtech.Ledger.AdminSolvency
import Cixtech.Ledger.BuiltEntries
import Cixtech.Ledger.Conservation
import Cixtech.Ledger.Entry
import Cixtech.Ledger.InternalDrift
import Cixtech.Ledger.PostingFlows
import Cixtech.Ledger.PostingHistories
import Cixtech.Ledger.RepeatedAppends
import Cixtech.Ledger.Reversals
import Cixtech.Ledger.Service
import Cixtech.Ledger.Solvency
import Cixtech.Ledger.SqlStore
import Cixtech.Mpc.DealerlessDkg
import Cixtech.Mpc.InverseRounds
import Cixtech.Mpc.Shamir
import Cixtech.Mpc.ShareEpochs
import Cixtech.Mpc.ShareSecrecy
import Cixtech.Mpc.ThresholdSigner
import Cixtech.Payout.AllowlistHistories
import Cixtech.Payout.ApprovalQuorum
import Cixtech.Payout.AssetSpelling
import Cixtech.Payout.Authorization
import Cixtech.Payout.AuthorizingBroadcaster
import Cixtech.Payout.AvailableFunds
import Cixtech.Payout.ConcurrentPayouts
import Cixtech.Payout.DestinationSpelling
import Cixtech.Payout.Freeze
import Cixtech.Payout.InFlight
import Cixtech.Payout.Intents
import Cixtech.Payout.Journal
import Cixtech.Payout.JournaledTerms
import Cixtech.Payout.Leasing
import Cixtech.Payout.LedgerMoves
import Cixtech.Payout.PendingFunds
import Cixtech.Payout.Policy
import Cixtech.Payout.PolicyDecisions
import Cixtech.Payout.PolicyLookups
import Cixtech.Payout.Retries
import Cixtech.Payout.Routes
import Cixtech.Payout.SequentialPayouts
import Cixtech.Payout.Service
import Cixtech.Payout.System
import Cixtech.Payout.Transfers
import Cixtech.Payout.VelocityLimiters
import Cixtech.Payout.VelocityWindows
import Cixtech.Payout.WindowCharges
import Cixtech.Payout.WithdrawalKeys
import Cixtech.Postgres.Client
import Cixtech.Reconcile.ExternalReconciler
import Cixtech.Tenancy.RowSecurity
import Cixtech.Tenancy.TenantScope
import Cixtech.Treasury.BroadcasterGasFunder
import Cixtech.Treasury.ClaimedFees
import Cixtech.Treasury.FeeClaim
import Cixtech.Treasury.FeeSweepPlanner
import Cixtech.Treasury.FeeSweepService
import Cixtech.Treasury.FeeSweeps
import Cixtech.Treasury.GatedEngine
import Cixtech.Treasury.OperationKeys
import Cixtech.Treasury.SweepCoverage
import Cixtech.Tron.CanonicalBodies
import Cixtech.Tron.NetworkReading
import Cixtech.Tron.PlainBodies
import Cixtech.Tron.RepeatedPolls
import Cixtech.Tron.TokenContracts
import Cixtech.Tron.Trc20
import Cixtech.Tron.TronAdapter
import Cixtech.Tron.TronEncoding
import Cixtech.Tron.TxVerify
import Cixtech.Webhooks.AddressSpellings
import Cixtech.Webhooks.Dispatcher
import Cixtech.Webhooks.TerminalDeliveries
import Cixtech.Webhooks.WebhookUrl
