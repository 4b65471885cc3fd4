import Mathlib.Tactic.Common

namespace RdbRs

structure TableId where
  id : UInt32
  deriving DecidableEq

structure ColumnId where
  id : UInt32
  deriving DecidableEq

structure IndexId where
  id : UInt32
  deriving DecidableEq

/-- The file a page belongs to: a table's rows or an index. -/
inductive RelationId where
  | heap (tableId : TableId)
  | index (indexId : IndexId)
  deriving DecidableEq

inductive DataType where
  | int
  | bigInt
  | boolean
  | varchar
  | null
  deriving DecidableEq

end RdbRs
