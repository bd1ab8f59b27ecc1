import DocHarvest.Host.Access

/-!
# Failures of a loader

A loader that finds a package reports what is wrong with it inside the package. These are the
failures that leave no package at all.
-/

namespace DocHarvest.Load

open DocHarvest.Host

/-- Why a loader has no package to return. -/
inductive LoadError where
  /-- The listing program could not be started. -/
  | spawn (program : String) (cause : AccessError)
  /-- The listing program ended with a status other than zero. -/
  | command (program : String) (status : Nat) (stderr : String)
  /-- The listing could not be read. -/
  | decode
  /-- A file of the package could not be read. -/
  | read (path : String) (cause : AccessError)
deriving DecidableEq, Repr

/-- The failure in words. -/
def LoadError.message : LoadError → String
  | .spawn program cause => "failed to run " ++ program ++ ": " ++ cause.message
  | .command program status stderr =>
    program ++ " exited with exit status: " ++ toString status ++ ": " ++ stderr
  | .decode => "failed to decode the package listing"
  | .read path cause => "failed to read " ++ path ++ ": " ++ cause.message

end DocHarvest.Load
