/-
`LoaderCommitException.java`: a classified failure of one durable commit, with
what is known of its two effects.
-/

namespace Lakehouse.Loader

namespace LoaderCommitException

/-- `LoaderCommitException.Type`. -/
inductive FailureType where
  | dataFileWriteFailed
  | icebergCommitFailed
  | icebergCommitStateUnknown
  | offsetCommitFailed
deriving DecidableEq, Repr

def FailureType.eventName : FailureType → String
  | .dataFileWriteFailed => "data_file_write_failed"
  | .icebergCommitFailed => "iceberg_commit_failed"
  | .icebergCommitStateUnknown => "iceberg_commit_state_unknown"
  | .offsetCommitFailed => "offset_commit_failed"

end LoaderCommitException

/-- The exception: its type, the two durability fields, and the class of the
cause, which is all of the cause that is ever read. -/
structure LoaderCommitException where
  type : LoaderCommitException.FailureType
  icebergCommitStatus : String
  offsetCommitStatus : String
  causeClass : String
deriving DecidableEq, Repr

namespace LoaderCommitException

/-- The four `throw` sites. -/
def dataFileWriteFailed (cause : String) : LoaderCommitException :=
  ⟨.dataFileWriteFailed, "not_committed", "not_committed", cause⟩

def icebergCommitStateUnknown (cause : String) : LoaderCommitException :=
  ⟨.icebergCommitStateUnknown, "unknown", "not_committed", cause⟩

def icebergCommitFailed (cause : String) : LoaderCommitException :=
  ⟨.icebergCommitFailed, "not_committed", "not_committed", cause⟩

def offsetCommitFailed (cause : String) : LoaderCommitException :=
  ⟨.offsetCommitFailed, "committed", "not_committed", cause⟩

end LoaderCommitException

end Lakehouse.Loader
