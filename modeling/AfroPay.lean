import AfroPay.Runs
import AfroPay.Panics
import AfroPay.KeyedStore
import AfroPay.TokenLedger
import AfroPay.LeaseStore
import AfroPay.Interleaving
import AfroPay.Json
import AfroPay.Serde
import AfroPay.NumberText
import AfroPay.Base64
import AfroPay.ScriptText
import AfroPay.IntegerText
import AfroPay.WebText
import AfroPay.JoinedText
import AfroPay.BlockStreams
import AfroPay.CalendarDates
import AfroPay.NumberReading
import AfroPay.IntegerReading
import AfroPay.Sha256
import AfroPay.Pedersen
import AfroPay.SmoothRoundRobin
import AfroPay.SharedPenalty
import AfroPay.CappedCharges
import AfroPay.ShortestPaths
import AfroPay.Loops
import AfroPay.FallingOrders
import AfroPay.FixedWindows
import AfroPay.GroupedTotals
import AfroPay.OneTimeTokens
import AfroPay.SseStream
import AfroPay.Staking
import AfroPay.StakingEffects
import AfroPay.StakingBookkeeping
import AfroPay.StakingSolvency
import AfroPay.StakingRewards
import AfroPay.StakingPlans
import AfroPay.StakingCommutation
import AfroPay.StakingWithdrawal
import AfroPay.StakingViews
import AfroPay.StakingLocks
import AfroPay.Escrow
import AfroPay.EscrowConservation
import AfroPay.EscrowProgress
import AfroPay.EscrowIsolation
import AfroPay.EscrowPrices
import AfroPay.TransferData
import AfroPay.Settlement
import AfroPay.SettlementSteps
import AfroPay.SettlementSafety
import AfroPay.TransactionRetry
import AfroPay.Kyc
import AfroPay.Transfers
import AfroPay.TransferSteps
import AfroPay.TransferIdempotency
import AfroPay.TransferJobs
import AfroPay.TransferLimit
import AfroPay.TransferReplay
import AfroPay.HistoryPages
import AfroPay.Compliance
import AfroPay.ComplianceSteps
import AfroPay.ComplianceSafety
import AfroPay.ComplianceProgress
import AfroPay.ApprovalSignatures
import AfroPay.WorkerJobs
import AfroPay.Liquidity
import AfroPay.LiquiditySteps
import AfroPay.RebalanceAmounts
import AfroPay.StellarTexts
import AfroPay.RebalanceCaps
import AfroPay.RebalanceCooldown
import AfroPay.RebalanceDispatch
import AfroPay.RebalanceResults
import AfroPay.AmountAgreement
import AfroPay.AmountIntegrity
import AfroPay.StellarAmounts
import AfroPay.DemandForecast
import AfroPay.LockService
import AfroPay.LockExclusivity
import AfroPay.PunctualLocks
import AfroPay.LeasedSettlement
import AfroPay.LockStores
import AfroPay.LockAgreement
import AfroPay.OfflineQueue
import AfroPay.OfflineQueueSafety
import AfroPay.SendContract
import AfroPay.Sep10
import AfroPay.AnchorNonces
import AfroPay.AnchorAuth
import AfroPay.Sep24Sessions
import AfroPay.Wallets
import AfroPay.TreasuryEnvelopes
import AfroPay.TreasuryPipeline
import AfroPay.WalletDeletion
import AfroPay.KycDocuments
import AfroPay.AuditLog
import AfroPay.AuditPayloads
import AfroPay.Erasure
import AfroPay.ErasureChain
import AfroPay.ErasureRecords
import AfroPay.ErasureReports
import AfroPay.PiiRedaction
import AfroPay.ZkpArithmetic
import AfroPay.ZkpCompliance
import AfroPay.ZkpResidues
import AfroPay.ZkpCompleteness
import AfroPay.ZkpSoundness
import AfroPay.ZkpEquivocation
import AfroPay.ZkpReference
import AfroPay.ZkpMirror
import AfroPay.ZkpEncodings
import AfroPay.ComplianceCircuit
import AfroPay.Governor
import AfroPay.GovernorSteps
import AfroPay.GovernorLedger
import AfroPay.GovernorVotes
import AfroPay.CarbonOracle
import AfroPay.PaymentRegistry
import AfroPay.PaymentMigration
import AfroPay.MilestoneEscrow
import AfroPay.FeePrimitives
import AfroPay.ConversionRates
import AfroPay.RpcEndpoints
import AfroPay.RpcPools
import AfroPay.RpcFailover
import AfroPay.RpcFairness
import AfroPay.RpcCooldown
import AfroPay.RpcAvailability
import AfroPay.RpcMonitoring
import AfroPay.PathRouting
import AfroPay.XdrAssets
import AfroPay.WorkerPayments
import AfroPay.PathRanking
import AfroPay.FxRates
import AfroPay.FxRateLaw
import AfroPay.TransferSimulation
import AfroPay.QuoteFreshness
import AfroPay.RateLimiting
import AfroPay.WebAuthn
import AfroPay.ChallengeDiscipline
import AfroPay.Simulations
import AfroPay.EscrowBook
import AfroPay.LossyText
import AfroPay.WalletSecrets
import AfroPay.SecretRows
import AfroPay.SecretSteps
import AfroPay.SecretMigration
import AfroPay.SecretErasure
import AfroPay.LeaseMirror
import AfroPay.LeasedSafety
