import ScoreRelay.Network

/-! One value for each kind of network. -/
namespace ScoreRelay

structure ByType (α : Type) where
  wifi : α
  cellular : α
  ethernet : α
  deriving DecidableEq

namespace ByType

variable {α : Type}

/-- The same value for every kind. -/
def const (a : α) : ByType α := ⟨a, a, a⟩

def get (m : ByType α) : NetworkType → α
  | .wifi => m.wifi
  | .cellular => m.cellular
  | .ethernet => m.ethernet

def set (m : ByType α) (t : NetworkType) (a : α) : ByType α :=
  match t with
  | .wifi => { m with wifi := a }
  | .cellular => { m with cellular := a }
  | .ethernet => { m with ethernet := a }

@[simp] theorem get_const (a : α) (t : NetworkType) : (const a).get t = a := by cases t <;> rfl

@[simp] theorem get_set_same (m : ByType α) (t : NetworkType) (a : α) : (m.set t a).get t = a := by
  cases t <;> rfl

@[simp] theorem set_set (m : ByType α) (t : NetworkType) (a b : α) :
    (m.set t a).set t b = m.set t b := by
  cases t <;> rfl

theorem get_set_other (m : ByType α) {t u : NetworkType} (a : α) (h : u ≠ t) :
    (m.set t a).get u = m.get u := by
  cases t <;> cases u <;> first | rfl | exact absurd rfl h

end ByType

end ScoreRelay
