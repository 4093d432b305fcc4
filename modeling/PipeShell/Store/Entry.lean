import PipeShell.Failure

/-!
# What stores answer

A store operation works on a state and keeps the state when it fails, because a failed operation may
have done part of its work.
-/

namespace PipeShell

/-- An operation on a state `σ`, which may fail and leaves a state in either case. -/
abbrev Action (σ α : Type) := ExceptT Failure (StateM σ) α

/-- An entry of a store. -/
structure StoreEntry where
  name : Text
  path : Text
  isDirectory : Bool
  deriving DecidableEq, Repr

/-- The bytes that a store uses, and those that it may use. -/
structure StorageInfo where
  used : Int
  quota : Int
  deriving DecidableEq, Repr

end PipeShell
