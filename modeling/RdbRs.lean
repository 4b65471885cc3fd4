import RdbRs.Lib.Outcome
import RdbRs.Lib.BigEndian
import RdbRs.Lib.Tiling
import RdbRs.Lib.Sort
import RdbRs.Lib.LeafChain
import RdbRs.Lib.LeafChainSteps
import RdbRs.Lib.LeafChainFuse
import RdbRs.Lib.LeafChainUnique
import RdbRs.Lib.LeafChainLinks
import RdbRs.Lib.WriteBack
import RdbRs.Lib.Codec
import RdbRs.Lib.TokenReader
import RdbRs.Lib.Loop
import RdbRs.Lib.Triple
import RdbRs.Lib.RunningSum
import RdbRs.Lib.Grouping
import RdbRs.Lib.SecondaryIndex
import RdbRs.Lib.SecondChance
import RdbRs.Lib.Walk
import RdbRs.Lib.TokenErrors
import RdbRs.Lib.Progress
import RdbRs.Lib.Changes
import RdbRs.Lib.Coupling
import RdbRs.Lib.Halts
import RdbRs.Lib.Decides
import RdbRs.Storage.Page
import RdbRs.Storage.Types
import RdbRs.Storage.SlottedPage
import RdbRs.Storage.PageLayout
import RdbRs.Storage.SlottedPageSpec
import RdbRs.Storage.SlottedPageOps
import RdbRs.Storage.SlottedPageMap
import RdbRs.Storage.SlottedPageRuns
import RdbRs.Storage.SlottedPageSpace
import RdbRs.Storage.PageStore
import RdbRs.Storage.BufferPool
import RdbRs.Storage.StorageManager
import RdbRs.Storage.BufferPoolSpec
import RdbRs.Storage.Clock
import RdbRs.Storage.StorageManagerSpec
import RdbRs.Storage.StorageRuns
import RdbRs.Storage.ReliableManager
import RdbRs.Storage.Durability
import RdbRs.Storage.CheckedPage
import RdbRs.Storage.FreeListSearch
import RdbRs.Storage.DamagedPages
import RdbRs.Storage.SamePages
import RdbRs.Storage.StoreReturns
import RdbRs.Tuple.Tuple
import RdbRs.Tuple.TupleCodec
import RdbRs.Catalog.Types
import RdbRs.Catalog.Metadata
import RdbRs.Catalog.MetadataCodec
import RdbRs.Catalog.Catalog
import RdbRs.Catalog.CatalogRuns
import RdbRs.Index.Key
import RdbRs.Index.Header
import RdbRs.Index.EntryPage
import RdbRs.Index.Leaf
import RdbRs.Index.Internal
import RdbRs.Index.BTree
import RdbRs.Index.LeafSpec
import RdbRs.Index.InternalSpec
import RdbRs.Index.TreeView
import RdbRs.Index.TreeInvariant
import RdbRs.Index.TreeInsert
import RdbRs.Index.TreeInsertSpec
import RdbRs.Index.TreeDelete
import RdbRs.Index.TreeDeleteSpec
import RdbRs.Index.TreeRuns
import RdbRs.Index.TextTrees
import RdbRs.Index.TreeSearches
import RdbRs.Index.TreeShape
import RdbRs.Index.TreeUnique
import RdbRs.Index.TreeLinks
import RdbRs.Index.TreeCalls
import RdbRs.Index.TreeDurable
import RdbRs.Index.DurableRuns
import RdbRs.Index.InternalSequence
import RdbRs.Index.LeafRewrites
import RdbRs.Index.Rerouting
import RdbRs.Index.CheckedReads
import RdbRs.Index.PageFormats
import RdbRs.Index.TreeTermination
import RdbRs.Index.TreeFrame
import RdbRs.Index.TreeSamePages
import RdbRs.Index.TreeReturns
import RdbRs.Table.HeapTable
import RdbRs.Table.HeapTableSpec
import RdbRs.Table.HeapTableDurable
import RdbRs.Table.HeapTableRuns
import RdbRs.Table.HeapSamePages
import RdbRs.Table.HeapReturns
import RdbRs.Query.Ast
import RdbRs.Query.Parser
import RdbRs.Query.Canonical
import RdbRs.Query.ParserSpec
import RdbRs.Query.Bound
import RdbRs.Query.Binder
import RdbRs.Query.BinderSpec
import RdbRs.Query.Resolution
import RdbRs.Query.BinderExact
import RdbRs.Query.Lexer
import RdbRs.Query.LexerSpec
import RdbRs.Query.TokenText
import RdbRs.Query.ParserErrors
import RdbRs.Query.OffendingToken
import RdbRs.Query.ParserSafety
import RdbRs.Query.StatementText
import RdbRs.Executor.Rows
import RdbRs.Executor.Predicate
import RdbRs.Executor.Projection
import RdbRs.Executor.Executor
import RdbRs.Executor.TypedRows
import RdbRs.Executor.Joins
import RdbRs.Executor.Sums
import RdbRs.Executor.FilterChains
import RdbRs.Executor.Orders
import RdbRs.Executor.Groups
import RdbRs.Executor.Modifications
import RdbRs.Executor.FromClause
import RdbRs.Executor.Soundness
import RdbRs.Executor.Selections
import RdbRs.Executor.JoinedRows
import RdbRs.Executor.Stateless
import RdbRs.Database.Engine
import RdbRs.Database.IndexManager
import RdbRs.Database.Execute
import RdbRs.Database.Agreement
import RdbRs.Database.IndexSpec
import RdbRs.Database.Fetching
import RdbRs.Database.MapEngine
import RdbRs.Database.LiveRows
import RdbRs.Database.InStep
import RdbRs.Database.IndexPath
import RdbRs.Database.StoreEngine
import RdbRs.Database.StoreCalls
import RdbRs.Database.StoreReads
import RdbRs.Database.StoreStatements
import RdbRs.Database.StoreCatalog
import RdbRs.Database.StoreExecute
import RdbRs.Database.SparedIndexes
import RdbRs.Database.FailedStatements
import RdbRs.Database.Meaning
import RdbRs.Database.StoreContents
import RdbRs.Database.Refinement
import RdbRs.Database.Sessions
import RdbRs.Database.EngineCoupling
import RdbRs.Database.PoolTransparency
import RdbRs.Database.Repl
import RdbRs.Database.Restart
import RdbRs.Database.CallsReturn
import RdbRs.Database.ReadsReturn
import RdbRs.Database.RowWidths
import RdbRs.Database.Returns
import RdbRs.Database.TextWidths
import RdbRs.Database.ProgramReturns
