import SpinFleet.Simulation.Fetch
/-!
# Running a pass

A pass is run against a world, call by call.  A pass with a deadline is dropped as soon as it waits
for a call that would act only after the deadline.
-/
namespace SpinFleet.Simulation

/-- Waits for a call to act; nothing if the deadline comes first. -/
def await (deadline : Option Nat) (w : World) (delay : Nat) : World × Bool :=
  if delay = 0 then (w, true)
  else
    let wake := w.clock + delay
    match deadline with
    | some limit =>
      if limit < wake then ({ w with clock := max limit w.clock }, false)
      else ({ w with clock := wake }, true)
    | none => ({ w with clock := wake }, true)

def makeCall (deadline : Option Nat) (w : World) (c : Call) :
    World × Option (Except Error c.Answer) :=
  let b := w.begin c
  match await deadline b.1 b.2.delay with
  | (w, false) => (w, none)
  | (w, true) =>
    let r := w.act ⟨c, b.2.entry, b.2.cue⟩
    (r.1, some r.2)

def run {α : Type} (deadline : Option Nat) : Pass α → World → World × Option α
  | .done a, w => (w, some a)
  | .call c next, w =>
    match makeCall deadline w c with
    | (w, none) => (w, none)
    | (w, some r) => run deadline (next r) w
  | .gather refs next, w =>
    match fetch deadline w refs with
    | .timedOut w => (w, none)
    | .finished w r => run deadline (next r) w
  | .publish e next, w => run deadline next (w.note (.event e))
  | .record m next, w => run deadline next (w.note (.measurement m))

def runWithin {α : Type} (seconds : Nat) (p : Attempt α) (w : World) : World × Except Error α :=
  match run (some (w.clock + seconds * 1000)) p.run w with
  | (w, some r) => (w, r)
  | (w, none) => (w, .error (.timeout seconds))

def runToEnd {α : Type} (p : Attempt α) (w : World) : World × Except Error α :=
  match run none p.run w with
  | (w, some r) => (w, r)
  | (w, none) => (w, .error (.timeout 0))

end SpinFleet.Simulation
