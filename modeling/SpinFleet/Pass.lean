import SpinFleet.Cluster.Call
import SpinFleet.RuntimeConfig.References
/-!
# Passes

A pass brings the cluster closer to what is declared.  It is a tree of calls: each call waits for
its answer, which may be a failure, and the pass goes on from there.  Being a value, a pass can be
run against a cluster in memory, with failures and delays wherever a script wants them, be stopped
at any call, or be interleaved with other writers.
-/
namespace SpinFleet

inductive EventType
  | normal
  | warning
deriving DecidableEq, Repr

def EventType.text : EventType → String
  | .normal => "Normal"
  | .warning => "Warning"

structure Event where
  regarding : ObjectReference
  type : EventType
  reason : String
  action : String
  note : Option String
deriving DecidableEq, Repr

inductive Measurement
  | appInfo (name ns executor : String)
  | executorInfo (name ns : String) (createDeployment : Bool) (runtimeClassName : String)
deriving DecidableEq, Repr

/-- A pass that ends with a result. -/
inductive Pass (α : Type)
  | done (a : α)
  | call (c : Call) (next : Except Error c.Answer → Pass α)
  /-- Looks up several objects at once; the first failure ends the look-up. -/
  | gather (refs : List Reference) (next : Except Error Resolved → Pass α)
  /-- Tells the users of an object something, which cannot fail. -/
  | publish (e : Event) (next : Pass α)
  /-- Records a measurement. -/
  | record (m : Measurement) (next : Pass α)

namespace Pass

variable {α β : Type}

def bind : Pass α → (α → Pass β) → Pass β
  | done a, f => f a
  | call c next, f => call c fun r => (next r).bind f
  | gather refs next, f => gather refs fun r => (next r).bind f
  | publish e next, f => publish e (next.bind f)
  | record m next, f => record m (next.bind f)

instance : Monad Pass where
  pure := done
  bind := bind

end Pass

/-- A pass that may fail. -/
abbrev Attempt := ExceptT Error Pass

namespace Attempt

def call (c : Call) : Attempt c.Answer := ExceptT.mk (Pass.call c .done)

/-- Makes a call whose failure does not matter. -/
def tryCall (c : Call) : Attempt (Except Error c.Answer) :=
  ExceptT.mk (Pass.call c fun r => .done (.ok r))

def gather (refs : List Reference) : Attempt Resolved := ExceptT.mk (Pass.gather refs .done)

def publish (e : Event) : Attempt Unit := ExceptT.mk (Pass.publish e (.done (.ok ())))

def record (m : Measurement) : Attempt Unit := ExceptT.mk (Pass.record m (.done (.ok ())))

def ofExcept {α : Type} (r : Except Error α) : Attempt α := ExceptT.mk (Pass.done r)

end Attempt

inductive Action
  /-- As soon as something changes. -/
  | awaitChange
  /-- After some seconds, or as soon as something changes. -/
  | requeue (seconds : Nat)
deriving DecidableEq, Repr

def retryAfter : Nat := 30

def Error.policy (e : Error) : Action := if e.isRetryable then .requeue retryAfter else .awaitChange

def Action.text : Action → String
  | .awaitChange => "await_change"
  | .requeue s => "requeue " ++ toString s ++ "s"

end SpinFleet
