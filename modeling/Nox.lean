import Nox.Library.BoundedQuantifiers
import Nox.Library.Decoder
import Nox.Library.LowerBound
import Nox.Model.Common.StreamTools
import Nox.Model.CryptoNote
import Nox.Model.Serialization.BinarySerializer
import Nox.Model.CryptoNoteCore.TransactionExtra
import Nox.Model.CryptoNoteCore.CryptoNoteSerialization
import Nox.Model.CryptoNoteCore.IBlockchainCache
import Nox.Model.CryptoNoteCore.Currency
import Nox.Model.CryptoNoteCore.DatabaseBlockchainCache
import Nox.Model.CryptoNoteCore.BlockchainCache
import Nox.Model.CryptoNoteCore.Core
import Nox.Proofs.Serialization.ReadBack
import Nox.Proofs.Serialization.Canonical
import Nox.Soundness.WireFormat
import Nox.Proofs.CryptoNoteCore.CoreStorage
import Nox.Soundness.SegmentTree
import Nox.Soundness.MainChainStorage
import Nox.Soundness.Checkpoints
import Nox.Soundness.RingMembers
import Nox.Model.CryptoNoteCore.BlockTemplate
import Nox.Library.Except
import Nox.Proofs.CryptoNoteCore.AddBlock
import Nox.Proofs.CryptoNoteCore.LastUnits
import Nox.Soundness.BlockTemplate
import Nox.Soundness.DoubleSpend
import Nox.Library.Wrapping
import Nox.Library.Ledger
import Nox.Proofs.CryptoNoteCore.Reward
import Nox.Proofs.CryptoNoteCore.Amounts
import Nox.Proofs.CryptoNoteCore.PushBlock
import Nox.Soundness.Emission
import Nox.Proofs.CryptoNoteCore.Split
import Nox.Library.Words
import Nox.Model.Common.IntUtil
import Nox.Proofs.Common.IntUtil
import Nox.Model.CryptoNoteCore.WordArithmetic
import Nox.Soundness.Penalty
import Nox.Soundness.ProofOfWork
import Nox.Model.CryptoNoteCore.CryptoNoteFormatUtils
import Nox.Proofs.CryptoNoteCore.Decompose
import Nox.Soundness.MinerTransaction
import Nox.Model.Common.StringTools
import Nox.Model.CryptoNoteCore.TransactionExtraWriter
import Nox.Proofs.Common.StringTools
import Nox.Proofs.CryptoNoteCore.TransactionExtra
import Nox.Soundness.TransactionExtra
import Nox.Model.CryptoNoteCore.AmountFormat
import Nox.Proofs.CryptoNoteCore.AmountFormat
import Nox.Soundness.AmountFormat
import Nox.Model.CryptoNoteCore.Difficulty
import Nox.Proofs.CryptoNoteCore.Difficulty
import Nox.Soundness.Difficulty
import Nox.Library.Digits
import Nox.Model.Common.ShuffleGenerator
import Nox.Proofs.Common.ShuffleGenerator
import Nox.Model.Wallet.WalletGreen
import Nox.Proofs.Wallet.WalletGreen
import Nox.Soundness.WalletGreen
import Nox.Model.Common.Base58
import Nox.Proofs.Common.Base58
import Nox.Proofs.Common.Varint
import Nox.Soundness.Base58
import Nox.Model.CryptoNoteCore.TransactionPool
import Nox.Proofs.CryptoNoteCore.TransactionPool
import Nox.Soundness.TransactionPool
import Nox.Library.RunningSums
import Nox.Model.CryptoNoteCore.Mixins
import Nox.Proofs.CryptoNoteCore.Mixins
import Nox.Proofs.CryptoNoteCore.RingIndexes
import Nox.Proofs.CryptoNoteCore.OverflowChecks
import Nox.Soundness.TransactionRules
import Nox.Proofs.CryptoNoteCore.PoolCleaner
import Nox.Library.MerkleTree
import Nox.Library.Bits
import Nox.Model.Crypto.TreeHash
import Nox.Proofs.Crypto.TreeHash
import Nox.Proofs.Crypto.TreeBranch
import Nox.Soundness.TreeHash
import Nox.Model.Mnemonics.WordList
import Nox.Model.Mnemonics.Mnemonics
import Nox.Proofs.Mnemonics.Mnemonics
import Nox.Library.KeyValueStore
import Nox.Model.CryptoNoteCore.DatabasePaymentIds
import Nox.Proofs.CryptoNoteCore.PaymentIds
import Nox.Soundness.DatabaseRoot
import Nox.Soundness.Mnemonics
import Nox.Model.Transfers.TransfersContainer
import Nox.Soundness.TransfersContainer
import Nox.Library.FirstMatch
import Nox.Proofs.Transfers.Visibility
import Nox.Proofs.Transfers.Detach
import Nox.Model.CryptoNoteCore.QueryBlocks
import Nox.Proofs.CryptoNoteCore.QueryBlocks
import Nox.Soundness.QueryBlocks
import Nox.Soundness.LastUnits
import Nox.Model.Transfers.BlockchainSynchronizer
import Nox.Proofs.Transfers.BlockchainSynchronizer
import Nox.Soundness.BlockchainSynchronizer
import Nox.Model.CryptoNoteCore.RandomOutputs
import Nox.Proofs.CryptoNoteCore.RandomOutputs
import Nox.Soundness.RandomOutputs
import Nox.Library.SortedInsert
import Nox.Proofs.Wallet.PrepareInputs
import Nox.Soundness.Rings
import Nox.Model.Transfers.TransfersConsumer
import Nox.Proofs.Transfers.TransfersConsumer
import Nox.Soundness.TransfersConsumer
import Nox.Model.Wallet.Fusion
import Nox.Proofs.Wallet.Fusion
import Nox.Soundness.Fusion
import Nox.Soundness.IntUtil
import Nox.Soundness.StreamTools
import Nox.Proofs.CryptoNoteCore.PoolOrder
import Nox.Proofs.CryptoNoteCore.TimestampIndex
import Nox.Model.CryptoNoteProtocol.CryptoNoteProtocolHandler
import Nox.Proofs.CryptoNoteProtocol.CryptoNoteProtocolHandler
import Nox.Soundness.PoolOrder
import Nox.Proofs.Common.ShuffleUniform
import Nox.Soundness.ShuffleGenerator
import Nox.Soundness.TimestampIndex
import Nox.Soundness.CryptoNoteProtocolHandler
import Nox.Model.P2p.PeerListManager
import Nox.Proofs.P2p.PeerListManager
import Nox.Soundness.PeerListManager
import Nox.Model.CryptoNoteCore.AccountAddress
import Nox.Model.Wallet.IntegratedAddress
import Nox.Soundness.IntegratedAddress
import Nox.Model.Common.JsonValue
import Nox.Model.Serialization.JsonSerialization
import Nox.Proofs.Common.JsonValue
import Nox.Proofs.Serialization.JsonSerialization
import Nox.Soundness.JsonRoundTrip
import Nox.Library.LittleEndian
import Nox.Model.Serialization.KVBinaryInput
import Nox.Model.Serialization.KVBinaryOutput
