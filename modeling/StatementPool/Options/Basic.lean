import StatementPool.Error
import StatementPool.Text.Blank
/-!
# Options

The settings of a pool: how many workers it runs, the number that it puts on its notifications
and the name of its workers. Options are valid when there is a worker and its name is not blank.
-/

namespace StatementPool

/-- The settings of a pool. -/
structure Options where
  maxThreads : UInt64
  messageType : UInt32
  threadName : String
  deriving DecidableEq

namespace Options

def standard : Options := ⟨1, 1, "sql-worker"⟩

def ofThreads (n : UInt64) : Options := { standard with maxThreads := n }

/-- Refuse settings that no pool can run with. -/
def validate (o : Options) : Except Error Unit :=
  if o.maxThreads = 0 then .error (.config .noThreads)
  else if allBlank o.threadName then .error (.config .blankName)
  else .ok ()

def shown (o : Options) : String :=
  "EngineOptions \x7b max_threads: " ++ Numeral.text o.maxThreads.toNat ++ ", message_type: " ++
    Numeral.text o.messageType.toNat ++ ", thread_name: " ++ Quoted.text o.threadName ++ " \x7d"

/-- A pool with these options as a dump shows it, with the workers alive and the queries waiting. -/
def poolShown (o : Options) (live queued : Nat) : String :=
  "ConnectionEngine \x7b options: " ++ o.shown ++ ", live_threads: " ++ Numeral.text live ++
    ", queued: " ++ Numeral.text queued ++ " \x7d"

end Options

end StatementPool
