import SideSwap.MachineInt
import SideSwap.Transition
import SideSwap.Program
import SideSwap.Handler
import SideSwap.History
import SideSwap.Table
import SideSwap.RequestTable
import SideSwap.HexText
import SideSwap.DartText
import SideSwap.Base64
import SideSwap.DartUri
import SideSwap.Api
import SideSwap.AmpAddresses
import SideSwap.Pricing
import SideSwap.DealerBalancing
import SideSwap.WalletSession
import SideSwap.CoinSelection
import SideSwap.MinimalSelection
import SideSwap.HeadlessWorker
import SideSwap.HeadlessSystem
import SideSwap.HeadlessMoves
import SideSwap.HeadlessReservations
import SideSwap.HeadlessSurvival
import SideSwap.HeadlessRequests
import SideSwap.HeadlessCompletion
import SideSwap.HeadlessSigning
import SideSwap.ClientMessages
import SideSwap.ClientTransactions
import SideSwap.ClientWorker
import SideSwap.ClientSystem
import SideSwap.ClientBook
import SideSwap.ClientCore
import SideSwap.ClientActs
import SideSwap.ClientMoves
import SideSwap.ClientOnce
import SideSwap.ClientConsent
import SideSwap.ClientRejections
import SideSwap.ClientQueues
import SideSwap.ClientTerms
import SideSwap.ClientSwaps
import SideSwap.ClientRecords
import SideSwap.ClientPrompts
import SideSwap.ClientLogout
import SideSwap.ClientOrders
import SideSwap.AsyncCallbacks
import SideSwap.ClientAddresses
import SideSwap.ClientRetries
import SideSwap.DealerSigning
import SideSwap.DealerTransfers
import SideSwap.PayjoinCreate
import SideSwap.PayjoinPset
import SideSwap.PayjoinBalance
import SideSwap.PayjoinFees
import SideSwap.PayjoinTransaction
import SideSwap.Framing
import SideSwap.JadeSerial
import SideSwap.JadeWorker
import SideSwap.JadeReplies
import SideSwap.DealerCrashes
import SideSwap.DealerReplies
import SideSwap.ClientConnection
import SideSwap.OrderDealer
import SideSwap.LiveOrders
import SideSwap.Quotes
import SideSwap.Rounding
import SideSwap.DealerRebalancing
import SideSwap.DigitGroups
import SideSwap.DecimalText
import SideSwap.AmountText
import SideSwap.SwapSelection
import SideSwap.QrCodes
import SideSwap.DealerTrading
import SideSwap.SwapReports
import SideSwap.ExchangeDealer
import SideSwap.HedgedSwaps
import SideSwap.HedgeExposure
import SideSwap.HedgeWatch
import SideSwap.DealerQueues
import SideSwap.DealerThreads
import SideSwap.PriceServer
import SideSwap.ServerCalls
import SideSwap.BalancingRuns
import SideSwap.CalmTransfers
import SideSwap.HeadlessTrader
import SideSwap.TraderReports
import SideSwap.TraderOffers
