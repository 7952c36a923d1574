import BinaryRecord.Record.Build
import BinaryRecord.Storage.Tree

namespace BinaryRecord

inductive Level
  | debug
  | info
  | warn
  deriving DecidableEq, Repr

def Level.rank : Level → Nat
  | .debug => 0
  | .info => 1
  | .warn => 2

inductive Event
  | unnamed (file : Path)
  | skipped (record : String) (file : Path)
  | read (record : String) (definitions : Nat)
  | recordsLoaded (count : Nat) (folder : Path)
  | tablesLoaded (count : Nat) (folder : Path)
  | built (record : String) (definitions members : Nat)
  | rejected (rejection : Rejection)
  | summary (records failures : Nat)
  deriving DecidableEq, Repr

def Event.level : Event → Level
  | .unnamed _ | .read _ _ | .built _ _ _ => .debug
  | .recordsLoaded _ _ | .tablesLoaded _ _ | .summary _ _ => .info
  | .skipped _ _ | .rejected _ => .warn

/-- The part of the program that an event comes from, as log lines name it. -/
def Event.target : Event → String
  | .unnamed _ | .skipped _ _ | .read _ _ | .recordsLoaded _ _ => "fieldlayout::catalog"
  | .tablesLoaded _ _ => "fieldlayout::names"
  | .built _ _ _ => "fieldlayout::layout"
  | .rejected _ | .summary _ _ => "compile_defs"

def Event.message : Event → String
  | .unnamed file => file.display ++ ": no usable record name"
  | .skipped record file => "skipping record " ++ record ++ " (" ++ file.display ++ ")"
  | .read record definitions => record ++ ": " ++ decimal definitions ++ " definitions"
  | .recordsLoaded count folder =>
      "loaded " ++ decimal count ++ " record types from " ++ folder.display
  | .tablesLoaded count folder =>
      "loaded " ++ decimal count ++ " row-name tables from " ++ folder.display
  | .built record definitions members =>
      "compiled " ++ record ++ ": " ++ decimal definitions ++ " definitions -> " ++
        decimal members ++ " members"
  | .rejected rejection => rejection.message
  | .summary records failures =>
      "compiled " ++ decimal records ++ " record types, " ++ decimal failures ++ " failed"

structure Failure where
  context : String
  causes : List String
  deriving DecidableEq, Repr

/-- What is left to the system and its libraries: how a text is quoted, what a line of the log and
the report of a failure look like, in which order a folder lists its entries, and in which order the
records are finished that are built side by side. The lines of a log are written one after the
other, so the place of a line counts. -/
structure Host where
  quote : String → String
  logLine (place : Nat) (level : Level) (target message : String) : String
  report : Failure → String
  listed : List Entry → List Entry
  listed_perm : ∀ entries, (listed entries).Perm entries
  finished : List Event → List Event
  finished_perm : ∀ events, (finished events).Perm events

variable (host : Host)

def Host.list (tree : Tree) (path : Path) : Listing := (tree.list path).map host.listed

def Host.line (place : Nat) (event : Event) : String :=
  host.logLine place event.level event.target event.message

def Host.logText (least : Level) (events : List Event) : String :=
  String.join ((events.filter fun event => least.rank ≤ event.level.rank).mapIdx host.line)

end BinaryRecord
