import ScoreRelay.Registry.Basic

/-! Calling every registration of some sets once, whatever becomes of the single calls. -/
namespace ScoreRelay

/-- How a call to a cache ends. -/
inductive Delivery where
  | delivered
  | failed (reason : String)
  | crashed
  deriving DecidableEq, Repr

/-- The calls of a broadcast that went well, and those that did not. -/
structure Tally where
  delivered : Nat := 0
  failed : Nat := 0
  deriving DecidableEq, Repr

namespace Tally

def total (t : Tally) : Nat := t.delivered + t.failed

def count (t : Tally) : Delivery → Tally
  | .delivered => { t with delivered := t.delivered + 1 }
  | .failed _ | .crashed => { t with failed := t.failed + 1 }

end Tally

variable {κ σ : Type}

/-- Call the registrations of one set in order. -/
def broadcastSet (act : Registration κ → σ → Delivery × σ) :
    List (Registration κ) → Tally → σ → Tally × σ
  | [], tally, s => (tally, s)
  | reg :: regs, tally, s =>
    let (d, s) := act reg s
    broadcastSet act regs (tally.count d) s

/-- Call the registrations of the sets, set by set. -/
def broadcastFrom (act : Registration κ → σ → Delivery × σ) :
    List (ListenerSet κ) → Tally → σ → Tally × σ
  | [], tally, s => (tally, s)
  | set :: sets, tally, s =>
    let (tally, s) := broadcastSet act set.registrations tally s
    broadcastFrom act sets tally s

/-- Call every registration of the sets, with the state that the calls before have left. -/
def broadcast (act : Registration κ → σ → Delivery × σ) (sets : List (ListenerSet κ)) (s : σ) :
    Tally × σ :=
  broadcastFrom act sets {} s

end ScoreRelay
