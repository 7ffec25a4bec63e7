import EphemeralValidator.Bytes.Basic
import EphemeralValidator.Bytes.Bincode
import EphemeralValidator.Bytes.ByteOrder
import EphemeralValidator.Lib.Counter
import EphemeralValidator.Lib.Except
import EphemeralValidator.Lib.Interleaving
import EphemeralValidator.Lib.SortedStore
import EphemeralValidator.Lib.Slice
import EphemeralValidator.Lib.OrderedMap
import EphemeralValidator.Lib.Transducer
import EphemeralValidator.Solana.Account
import EphemeralValidator.Solana.Transaction
import EphemeralValidator.Magicblock.MagicContext
import EphemeralValidator.Magicblock.ScheduleCommit
import EphemeralValidator.Magicblock.Scheduler
import EphemeralValidator.Magicblock.AccountModData
import EphemeralValidator.Magicblock.MutateAccounts
import EphemeralValidator.Ledger.Columns
import EphemeralValidator.Magicblock.ProcessMutateAccounts
import EphemeralValidator.Mutator.Program
import EphemeralValidator.Utils.ExpiringHashMap
import EphemeralValidator.AccountsDb.AccountLocks
import EphemeralValidator.AccountsDb.Persister
import EphemeralValidator.Bank.StatusCache
import EphemeralValidator.AccountCloner.CloneRequests
import EphemeralValidator.AccountCloner.Freshness
import EphemeralValidator.AccountCloner.Hydrate
import EphemeralValidator.AccountCloner.CloneCache
import EphemeralValidator.Accounts.ScheduledCommitsProcessor
import EphemeralValidator.Accounts.ExternalAccountsManager
import EphemeralValidator.Bank.TransactionStatus
import EphemeralValidator.Bank.BlockhashQueue
import EphemeralValidator.Ledger.Replay
import EphemeralValidator.Rpc.Blocks
import EphemeralValidator.Processor.TransactionIndex
import EphemeralValidator.Magicblock.InstructionContextFrames
import EphemeralValidator.Ledger.StatusLookup
import EphemeralValidator.Ledger.TransactionProto
import EphemeralValidator.Ledger.Blockstore
import EphemeralValidator.Ledger.SignaturesForAddress
import EphemeralValidator.Geyser.Subscription
import EphemeralValidator.Geyser.Filters
import EphemeralValidator.Geyser.MessageFilters
import EphemeralValidator.Geyser.AccountMatch
import EphemeralValidator.Geyser.Service
import EphemeralValidator.Pubsub.Conversions
import EphemeralValidator.Geyser.GeyserLoop
