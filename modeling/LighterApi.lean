import LighterApi.Library.Infix
import LighterApi.Library.WindowWalk
import LighterApi.Library.WindowPlan
import LighterApi.Library.Resumption
import LighterApi.Library.LastWrite
import LighterApi.Library.Correspondence
import LighterApi.Library.OrderedSet
import LighterApi.Library.Transition
import LighterApi.Library.RunningMax
import LighterApi.Library.TwoWay
import LighterApi.Library.SerialCounter
import LighterApi.Library.Outbox
import LighterApi.Library.EarlyExit
import LighterApi.Library.Backoff
import LighterApi.Library.FormData
import LighterApi.Library.LockRanks
import LighterApi.Library.HandedBuffers
import LighterApi.Library.Spacing
import LighterApi.Source.Text
import LighterApi.Source.Json
import LighterApi.Source.History
import LighterApi.Source.StreamManager
import LighterApi.Source.SendTx
import LighterApi.Source.FormBody
import LighterApi.Source.Gateway
import LighterApi.Source.Signer
import LighterApi.Source.GatewayRun
import LighterApi.Source.GatewaySteps
import LighterApi.Source.AccountFeed
import LighterApi.Source.Listings
import LighterApi.Source.WsSession
import LighterApi.Source.GatewayLife
import LighterApi.Source.Rest
import LighterApi.Source.Throttle
import LighterApi.Source.LockUse
import LighterApi.Guarantees.CandleHistory
import LighterApi.Guarantees.FundingHistory
import LighterApi.Guarantees.HistorySoundness
import LighterApi.Guarantees.PaginationPlan
import LighterApi.Guarantees.BookRefinement
import LighterApi.Guarantees.CorruptBook
import LighterApi.Guarantees.FailedBookMessage
import LighterApi.Guarantees.ChannelGrammar
import LighterApi.Guarantees.RejectDelivery
import LighterApi.Guarantees.VenueAnswers
import LighterApi.Guarantees.RejectTexts
import LighterApi.Guarantees.Verdict
import LighterApi.Guarantees.OrderIndices
import LighterApi.Guarantees.CallOrigins
import LighterApi.Guarantees.VenueIndex
import LighterApi.Guarantees.OrderLifecycle
import LighterApi.Guarantees.FillConservation
import LighterApi.Guarantees.FillReports
import LighterApi.Guarantees.LoudShapes
import LighterApi.Guarantees.DeliveredReports
import LighterApi.Guarantees.GenuineFills
import LighterApi.Guarantees.FillIds
import LighterApi.Guarantees.OrderLoop
import LighterApi.Guarantees.SignedAmounts
import LighterApi.Guarantees.MarketBound
import LighterApi.Guarantees.SymbolMarkets
import LighterApi.Guarantees.OrderMaps
import LighterApi.Guarantees.NonceAgreement
import LighterApi.Guarantees.ConfirmedNonce
import LighterApi.Guarantees.SessionLink
import LighterApi.Guarantees.WireAgreement
import LighterApi.Guarantees.WantedChannels
import LighterApi.Guarantees.OneAccount
import LighterApi.Guarantees.AuthToken
import LighterApi.Guarantees.NeverStalls
import LighterApi.Guarantees.SessionMoves
import LighterApi.Guarantees.FinalClose
import LighterApi.Guarantees.WritePump
import LighterApi.Guarantees.TruthfulFlag
import LighterApi.Guarantees.LostSubscriptions
import LighterApi.Guarantees.ReconnectBackoff
import LighterApi.Guarantees.FormEncoding
import LighterApi.Guarantees.LockOrder
import LighterApi.Guarantees.RequestRate
import LighterApi.Guarantees.WireRecords
import LighterApi.Guarantees.NativeCalls
import LighterApi.Guarantees.BufferOwnership
import LighterApi.Guarantees.ResumedDownload
import LighterApi.Guarantees.SettledFunding
import LighterApi.Guarantees.QuotePath
import LighterApi.Guarantees.Watchdog
import LighterApi.Guarantees.NewestListing
import LighterApi.Guarantees.BookSync
import LighterApi.Guarantees.GridOrders
