import Casefile.Errno

/-!
# What can go wrong

* `DomainFault` — a value that the rules of the domain refuse.
* `DatabaseFault` — what a case database answers instead of a result.
* `Failure` — every way in which an operation of this library fails, with its wording in
  `Failure.message`.
-/

set_option autoImplicit false

namespace Casefile

/-- A value that the rules of the domain refuse. -/
inductive DomainFault where
  | invalidDeviceId (text : String)
  | noPaths
  deriving DecidableEq, Repr

def DomainFault.message : DomainFault → String
  | .invalidDeviceId text => "Invalid device id: " ++ text
  | .noPaths => "No local file paths given"

/-- A failure of the operating system, or of a part that stands in for it. -/
inductive IoFault where
  | os (e : Errno)
  | nulInPath
  | described (text : String)
  deriving DecidableEq, Repr

def IoFault.message : IoFault → String
  | .os e => e.report
  | .nulInPath => "file name contained an unexpected NUL byte"
  | .described text => text

/-- What a case database answers instead of a result. -/
inductive DatabaseFault where
  /-- A table is missing. -/
  | noSuchTable (table : String)
  /-- A row with the key is there already. -/
  | duplicateKey (table column : String)
  /-- Another transaction is writing. -/
  | locked
  /-- The transaction reads an older state than the one committed last. -/
  | outdatedView
  /-- The database has been closed. -/
  | closed
  /-- The database file cannot be opened. -/
  | cannotOpen
  /-- The file holds something else. -/
  | notADatabase
  | described (text : String)
  deriving DecidableEq, Repr

def DatabaseFault.message : DatabaseFault → String
  | .noSuchTable table => "Database error [1]: no such table: " ++ table
  | .duplicateKey table column =>
    "Unique constraint violation: UNIQUE constraint failed: " ++ table ++ "." ++ column ++ " (1555)"
  | .locked => "Database locked (SQLITE_BUSY): database is locked"
  | .outdatedView => "Database error [517]: database is locked"
  | .closed => "attempted to acquire a connection on a closed pool"
  | .cannotOpen => "error returned from database: (code: 14) unable to open database file"
  | .notADatabase => "error returned from database: (code: 26) file is not a database"
  | .described text => text

/-- The ways in which an operation fails. -/
inductive Failure where
  | domain (fault : DomainFault)
  | noCurrentCase
  | validation (text : String)
  | database (fault : DatabaseFault)
  | malformedRow (text : String)
  | io (fault : IoFault)
  | notFound (text : String)
  | conflict (text : String)
  | internal (text : String)
  deriving DecidableEq, Repr

def Failure.message : Failure → String
  | .domain fault => "Domain error: " ++ fault.message
  | .noCurrentCase => "No current case is open"
  | .validation text => "Validation error: " ++ text
  | .database fault => "Database error: " ++ fault.message
  | .malformedRow text => "Malformed row: " ++ text
  | .io fault => "IO error: " ++ fault.message
  | .notFound text => "Not found: " ++ text
  | .conflict text => "Conflict: " ++ text
  | .internal text => "Internal error: " ++ text

end Casefile
