import Hazard.Fault
import Hazard.Value.Basic

set_option autoImplicit false

/-! # Files

All that matters about a stored file is what reading it gives, and all that matters about its bytes
is which value they stand for. Neither is up to the program: it is handed the files and a loader,
and has to be ready for whatever comes of them. -/

namespace Hazard

/-- Why a file cannot be read. -/
inductive FileError where
  /-- Nothing has that name. -/
  | missing
  /-- The system refuses for another reason, which it puts into words. -/
  | refused (reason : String)
  /-- It does not come to a question to the system, as with a path that none can be. -/
  | fault (f : Fault)
  deriving DecidableEq, Repr

/-- What reading a path gives. -/
abbrev Files := String → Except FileError (List UInt8)

/-- Why a loader gets no value out of bytes. -/
inductive LoaderError where
  /-- The text is malformed, for the given reason. The place is the line and the column where the
      loader knows them, counted from zero. -/
  | malformed (reason : String) (place : Option (Nat × Nat))
  /-- The loader breaks down, as it does over bytes that are no text. -/
  | fault (f : Fault)
  deriving DecidableEq, Repr

/-- What gets values out of bytes. -/
abbrev Loader := List UInt8 → Except LoaderError Value

end Hazard
