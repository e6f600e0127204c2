import TornadoRelayer.Bytes
import TornadoRelayer.Keccak
import TornadoRelayer.UserOp
import TornadoRelayer.Paymaster
import TornadoRelayer.PaymasterData
import TornadoRelayer.HashAgreement
import TornadoRelayer.SignatureBinding
import TornadoRelayer.NumberText
import TornadoRelayer.JavaScript
import TornadoRelayer.HexText
import TornadoRelayer.Price
import TornadoRelayer.Settlement
import TornadoRelayer.CallStack
import TornadoRelayer.Transaction
import TornadoRelayer.History
import TornadoRelayer.Rules
import TornadoRelayer.Sponsorship
import TornadoRelayer.Measurement
import TornadoRelayer.Receipts
import TornadoRelayer.EthSettlement
import TornadoRelayer.TokenSettlement
import TornadoRelayer.EventLoop
import TornadoRelayer.Store
import TornadoRelayer.Validate
import TornadoRelayer.Service
import TornadoRelayer.RelayerProcess
import TornadoRelayer.LiveSponsorships
import TornadoRelayer.Budget
import TornadoRelayer.Requests
import TornadoRelayer.Signing
import TornadoRelayer.Scripts
import TornadoRelayer.OneSponsorship
import TornadoRelayer.DepositCovers
import TornadoRelayer.AllowedImplementation
import TornadoRelayer.RelayerRegistry
import TornadoRelayer.Merkle
import TornadoRelayer.DepositHistory
import TornadoRelayer.LeafSync
import TornadoRelayer.FeeFloor
import TornadoRelayer.SponsoringCalls
import TornadoRelayer.SponsoringRun
import TornadoRelayer.RunLog
import TornadoRelayer.SimulatedOperation
import TornadoRelayer.StoppedRun
import TornadoRelayer.FileStoreCalls
import TornadoRelayer.FileStoreRuns
import TornadoRelayer.FailClosed
import TornadoRelayer.Journal
import TornadoRelayer.OwnReservation
import TornadoRelayer.Refusal
import TornadoRelayer.RefusedRequest
import TornadoRelayer.PostOp
import TornadoRelayer.InstanceRegistry
import TornadoRelayer.SwapAndSupplyZap
import TornadoRelayer.RobustSync
import TornadoRelayer.TornadoNote
import TornadoRelayer.StrictLoad
import TornadoRelayer.Quote
import TornadoRelayer.HonouredQuote
import TornadoRelayer.ScriptedRun
import TornadoRelayer.Setup
import TornadoRelayer.SetupChain
import TornadoRelayer.StandaloneContract
import TornadoRelayer.SetupReads
import TornadoRelayer.FundedPaymaster
import TornadoRelayer.SetupConverges
import TornadoRelayer.FirstDeployment
import TornadoRelayer.MerkleTree
import TornadoRelayer.RingBuffer
import TornadoRelayer.MerkleTreeWithHistory
import TornadoRelayer.Tornado
import TornadoRelayer.TornadoRuns
import TornadoRelayer.SpentDeposits
import TornadoRelayer.KnownPath
import TornadoRelayer.StubData
import TornadoRelayer.Rpc
import TornadoRelayer.RpcRuns
import TornadoRelayer.SentOperation
import TornadoRelayer.AcceptedWithdrawal
import TornadoRelayer.Dao
import TornadoRelayer.TimedCache
import TornadoRelayer.DaoRuns
import TornadoRelayer.DaoFees
