import RefractContracts.Host.Outcome
import RefractContracts.Host.Storage
import RefractContracts.Host.Run
import RefractContracts.Host.History
import RefractContracts.Host.Agree
import RefractContracts.Host.Total
import RefractContracts.Host.Token
import RefractContracts.Host.Accumulator
import RefractContracts.Host.Vault
import RefractContracts.Host.Escrow
import RefractContracts.Host.Value
import RefractContracts.Host.Journal
import RefractContracts.Host.Meter
import RefractContracts.Host.Ballots
import RefractContracts.Host.Paging
import RefractContracts.Host.Apportion
import RefractContracts.Host.SumMap
import RefractContracts.Host.MerkleTree
import RefractContracts.Host.Units
import RefractContracts.Host.Ranking
import RefractContracts.Host.Text
import RefractContracts.Host.Shell
import RefractContracts.Host.Codec
import RefractContracts.Host.Base64
import RefractContracts.Host.Utf8
import RefractContracts.Host.Dict
import RefractContracts.Host.Progress
import RefractContracts.Math.Wide
import RefractContracts.Math.Split
import RefractContracts.Math.Allocate
import RefractContracts.Math.Fee
import RefractContracts.VeToken.Contract
import RefractContracts.VeToken.Fees
import RefractContracts.Backstop.Contract
import RefractContracts.Backstop.Effects
import RefractContracts.Backstop.Flows
import RefractContracts.Backstop.Losses
import RefractContracts.Backstop.Claims
import RefractContracts.Backstop.Capital
import RefractContracts.Pool.Contract
import RefractContracts.Pool.Effects
import RefractContracts.Pool.Policies
import RefractContracts.Pool.Triggers
import RefractContracts.Pool.Shares
import RefractContracts.Pool.Utilization
import RefractContracts.Governance.Contract
import RefractContracts.Governance.Effects
import RefractContracts.Governance.Votes
import RefractContracts.Governance.Lifecycle
import RefractContracts.Timelock.Contract
import RefractContracts.Timelock.Effects
import RefractContracts.Timelock.Operations
import RefractContracts.Timelock.Life
import RefractContracts.Timelock.Failures
import RefractContracts.Timelock.Keeper
import RefractContracts.Timelock.Sweeps
import RefractContracts.Governance.Handover
import RefractContracts.Multisig.Contract
import RefractContracts.Multisig.Authority
import RefractContracts.Multisig.Approvals
import RefractContracts.Multisig.Membership
import RefractContracts.Bounty.Contract
import RefractContracts.Bounty.Writes
import RefractContracts.Bounty.Rewards
import RefractContracts.Bounty.Effects
import RefractContracts.Bounty.Escrow
import RefractContracts.Bounty.Register
import RefractContracts.Bounty.Bindings
import RefractContracts.Bounty.Recovery
import RefractContracts.Bounty.Screening
import RefractContracts.Grants.Schedule
import RefractContracts.Grants.Model
import RefractContracts.Grants.Consistency
import RefractContracts.Grants.Contract
import RefractContracts.Grants.Effects
import RefractContracts.Grants.Payouts
import RefractContracts.Grants.Refinement
import RefractContracts.Treasury.Contract
import RefractContracts.Treasury.Effects
import RefractContracts.Treasury.Requests
import RefractContracts.Treasury.Seeding
import RefractContracts.Treasury.Snapshots
import RefractContracts.Payments.System
import RefractContracts.Payments.Screening
import RefractContracts.Oracle.Contract
import RefractContracts.Oracle.Effects
import RefractContracts.Oracle.Admission
import RefractContracts.Oracle.Feeds
import RefractContracts.Oracle.Reputation
import RefractContracts.Oracle.Triggers
import RefractContracts.PayoutRegistry.Contract
import RefractContracts.PayoutRegistry.Index
import RefractContracts.PayoutRegistry.History
import RefractContracts.PayoutRegistry.Replays
import RefractContracts.PolicyRegistry.Contract
import RefractContracts.PolicyRegistry.Effects
import RefractContracts.PolicyRegistry.Index
import RefractContracts.PolicyRegistry.Trust
import RefractContracts.Common.Payout
import RefractContracts.Common.Liability
import RefractContracts.Common.Listing
import RefractContracts.Pool.Solvency
import RefractContracts.Pool.Pricing
import RefractContracts.Pool.Mirror
import RefractContracts.VeToken.Power
import RefractContracts.VeToken.Waiting
import RefractContracts.Treasury.Challenges
import RefractContracts.Treasury.ChallengePeriod
import RefractContracts.Host.Books
import RefractContracts.Grants.Compensation
import RefractContracts.Grants.Audit
import RefractContracts.Shared.Guardians
import RefractContracts.Shared.LossEvents
import RefractContracts.Shared.Drawdown
import RefractContracts.Interfaces.Access
import RefractContracts.Interfaces.Handover
import RefractContracts.Lifecycle.Model
import RefractContracts.Lifecycle.Review
import RefractContracts.Lifecycle.Requests
import RefractContracts.Lifecycle.Award
import RefractContracts.Lifecycle.Changes
import RefractContracts.Lifecycle.Effects
import RefractContracts.Lifecycle.Filing
import RefractContracts.Lifecycle.Conservation
import RefractContracts.Lifecycle.Settlement
import RefractContracts.Lifecycle.Recusal
import RefractContracts.Appeals.Contract
import RefractContracts.Appeals.Effects
import RefractContracts.Appeals.Panels
import RefractContracts.Appeals.Finality
import RefractContracts.Scripts.MerkleBatch
import RefractContracts.Scripts.BatchFile
import RefractContracts.Scripts.FeeBump
import RefractContracts.Scripts.Commitment
import RefractContracts.Scripts.Strkey
import RefractContracts.Scripts.ScVal
import RefractContracts.Scripts.RoundTrip
import RefractContracts.Scripts.Json
import RefractContracts.Scripts.Collectors
import RefractContracts.Scripts.Reconcile
import RefractContracts.Scripts.Passing
import RefractContracts.Xtask.Schema
import RefractContracts.Xtask.Generator
import RefractContracts.Xtask.Validation
import RefractContracts.Xtask.Sums
import RefractContracts.Xtask.Actions
import RefractContracts.Xtask.Replan
import RefractContracts.Xtask.Funding
import RefractContracts.SnapshotHarness.Load
import RefractContracts.SnapshotHarness.Content
import RefractContracts.Operator.Amounts
import RefractContracts.Operator.Commands
import RefractContracts.Operator.Plans
import RefractContracts.Operator.Gate
import RefractContracts.Operator.ShellCommand
import RefractContracts.Backstop.Curve
import RefractContracts.Backstop.Normalization
import RefractContracts.Grants.Batch
import RefractContracts.Grants.Rescue
import RefractContracts.Grants.RateLimit
import RefractContracts.Grants.Scoring
import RefractContracts.Shared.WithdrawalQueue
import RefractContracts.Host.Crash
import RefractContracts.Deployment.Script
import RefractContracts.Deployment.Registry
import RefractContracts.Deployment.Steps
import RefractContracts.Deployment.Runs
import RefractContracts.Deployment.Completion
import RefractContracts.Deployment.Stuck
import RefractContracts.Host.Handover
import RefractContracts.Incident.Contract
import RefractContracts.Incident.Lockdown
import RefractContracts.Params.Contract
import RefractContracts.Params.Replay
import RefractContracts.Specs.Check
import RefractContracts.Specs.Parts
import RefractContracts.Specs.Sections
