import Ripple.Rebuild.Indexer

/-!
# Ripple.Rebuild.Wait

A caller that asks for a rebuild and waits for its end.  Between its own moves the indexer may
change: the caller waits for the rebuild that was accepted last when it begins to wait, and once
that one is over it reads the status, as it is at that moment.
-/

namespace Ripple.Rebuild

/-- Whether the rebuild with a given name is over. -/
def Indexer.isOver (ix : Indexer) (run : RunId) : Bool := !ix.flights.any (·.run = run)

/-- Where a waiting caller stands. -/
inductive Waiter where
  /-- The caller's own rebuild was accepted. -/
  | accepted (run : RunId)
  /-- The caller waits for a rebuild. -/
  | waiting (target : RunId)
  /-- The wait is over; a caller that gave up has a reason. -/
  | released (reason : Option Failure)
  /-- What the caller got. -/
  | returned (status : Status) (error : Option Failure)

namespace Waiter

/-- The next move of a caller.  One that was cancelled stops waiting for a rebuild that is not over
and gets the status nevertheless. -/
def step (ix : Indexer) (cancelled : Bool) : Waiter → Waiter
  | accepted run => waiting (ix.latest.getD run)
  | waiting target =>
    if ix.isOver target then released none
    else if cancelled then released (some (.root .cancelled))
    else waiting target
  | released none => returned ix.status ix.lastError
  | released (some reason) => returned ix.status (some reason)
  | returned status error => returned status error

end Waiter

/-- Waits for the rebuild that was accepted last. -/
def Indexer.wait (ix : Indexer) (cancelled : Bool) : Except Failure Unit :=
  match ix.latest with
  | none => .ok ()
  | some run => if cancelled && !ix.isOver run then .error (.root .cancelled) else .ok ()

end Ripple.Rebuild
