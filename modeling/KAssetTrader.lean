import KAssetTrader.Recommendation.Authorize
import KAssetTrader.Manager.LiveExits
import KAssetTrader.Consumer.Fencing
import KAssetTrader.Backtest.Cash
import KAssetTrader.Backtest.NoLookahead
import KAssetTrader.Paper.Lifecycle
import KAssetTrader.Paper.LimitConservation
import KAssetTrader.Issuer.Runs
import KAssetTrader.Watermark.Workers
import KAssetTrader.Watermark.AccountState
import KAssetTrader.Inbox.Deliveries
import KAssetTrader.Promotion.Store
import KAssetTrader.Tape.Counters
import KAssetTrader.Proposals.Retirement
import KAssetTrader.Devices.Accounts
import KAssetTrader.Devices.Revocation
import KAssetTrader.Repricing.OneProposal
import KAssetTrader.Repricing.Reads
import KAssetTrader.Validation.Audit
import KAssetTrader.Stream.Delivery
import KAssetTrader.Stream.Baselines
import KAssetTrader.Stream.Subscriptions
import KAssetTrader.NhPlug.SingleFlight
import KAssetTrader.NhPlug.Ticks
import KAssetTrader.Sizing.Optimal
import KAssetTrader.Position.Intraday
import KAssetTrader.Purchase.Submission
import KAssetTrader.Proposals.WatchExclusion
import KAssetTrader.Proposals.DailyCap
import KAssetTrader.Paper.RoundTrips
import KAssetTrader.Backtest.PartialExits
import KAssetTrader.LossStreak.Expiry
import KAssetTrader.Limits.Put
import KAssetTrader.Tape.SnapshotRoundTrip
import KAssetTrader.MarketSession.Elapsed
import KAssetTrader.Longterm.Selection
import KAssetTrader.Paper.RealizedPnl
import KAssetTrader.NhPlug.Messages
import KAssetTrader.Ranker.Bounds
import KAssetTrader.Inbox.RoundTrip
import KAssetTrader.Proposals.RestingSweep
import KAssetTrader.Proposals.FillDeliveries
import KAssetTrader.Proposals.ApprovalWindow
import KAssetTrader.Proposals.Eligibility
import KAssetTrader.Proposals.BurnedNonces
import KAssetTrader.Proposals.VoidAuthority
import KAssetTrader.Toss.Bookings
import KAssetTrader.Candles.Readiness
import KAssetTrader.Paper.Ticks
import KAssetTrader.Proposals.BuyingPower
import KAssetTrader.Toss.Sellable
import KAssetTrader.ExecutionLedger.RealizedProfit
import KAssetTrader.Backtest.WalkForward
import KAssetTrader.Triggers.SessionVwap
import KAssetTrader.Inbox.Recovery
