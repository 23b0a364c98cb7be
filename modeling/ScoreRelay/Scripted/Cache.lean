import ScoreRelay.Scripted.Binder
import ScoreRelay.Service.Basic
import ScoreRelay.Wire.Network

/-! Caches that behave as they are told and note every call, to try a service with. -/
namespace ScoreRelay.Scripted

/-- How a call ends. -/
inductive Ending where
  | ok
  | fail
  | crash
  deriving DecidableEq, Repr

/-- A cache: how its calls end, what it writes about itself, and what it registers and unregisters
while it is called. -/
inductive CacheScript where
  | mk (id : String) (update clear dump : Ending) (text : String) (bare : Bool)
    (onUpdate onClear : List (NetworkType × String × Option CacheScript))

namespace CacheScript

def id : CacheScript → String | .mk i _ _ _ _ _ _ _ => i
def update : CacheScript → Ending | .mk _ u _ _ _ _ _ _ => u
def clear : CacheScript → Ending | .mk _ _ c _ _ _ _ _ => c
def dump : CacheScript → Ending | .mk _ _ _ d _ _ _ _ => d
def text : CacheScript → String | .mk _ _ _ _ t _ _ _ => t
def bare : CacheScript → Bool | .mk _ _ _ _ _ b _ _ => b
/-- What is done during an update: for each kind and identifier, a cache to register or none to
unregister. -/
def onUpdate : CacheScript → List (NetworkType × String × Option CacheScript)
  | .mk _ _ _ _ _ _ a _ => a
def onClear : CacheScript → List (NetworkType × String × Option CacheScript)
  | .mk _ _ _ _ _ _ _ a => a

/-- How a call of this cache ends. -/
def deliver (c : CacheScript) : Ending → Delivery
  | .ok => .delivered
  | .fail => .failed ("cache " ++ c.id ++ " died")
  | .crash => .crashed

end CacheScript

/-- A call that a cache noted. -/
inductive Call where
  | update (id : String) (networks : List ScoredNetwork)
  | clear (id : String)
  | dump (id : String)
  deriving DecidableEq

/-- Register and unregister as a script says, one after the other. -/
def act (actions : List (NetworkType × String × Option CacheScript)) (r : Registry CacheScript) :
    Registry CacheScript :=
  actions.foldl (fun r (t, id, cache) =>
    match cache with
    | some c => (r.register ⟨t, id, .none, c⟩).2
    | none => (r.unregister t id).2) r

/-- The world of a scripted service: how its binder answers, and the calls its caches have noted,
oldest first. -/
structure World where
  binder : BinderScript
  calls : List Call := []
  deriving DecidableEq

def World.note (w : World) (c : Call) : World := { w with calls := w.calls ++ [c] }

def cachePort : CachePort CacheScript World where
  update reg batch := fun (registry, w) =>
    (reg.cache.deliver reg.cache.update, (act reg.cache.onUpdate registry, w.note (.update reg.id batch)))
  clear reg := fun (registry, w) =>
    (reg.cache.deliver reg.cache.clear, (act reg.cache.onClear registry, w.note (.clear reg.id)))
  dump reg w :=
    if reg.cache.bare then (⟨[], .delivered, .failed Sink.fullText⟩, w)
    else
      (⟨[reg.cache.text], reg.cache.deliver reg.cache.dump, .failed Sink.fullText⟩,
        w.note (.dump reg.id))

/-- Scripted caches and a scripted binder in one world. -/
def ports : Ports CacheScript World where
  binder := binder.within World.binder fun w script => { w with binder := script }
  caches := cachePort

end ScoreRelay.Scripted
