import SpinFleet.Pass
import SpinFleet.RuntimeConfig.Build
/-!
# The configuration of an app in a cluster

The part of a pass that finds out an app's document: it looks up what the app refers to, and
builds the document from what it finds.  A ready-made configuration has no document.
-/
namespace SpinFleet

def maxLookups : Nat := 10

def References.fetch (r : References) : Attempt Resolved := Attempt.gather r.toList

def App.resolveDocument (a : App) : Attempt (Option Document) := do
  let resolved ← (References.ofApp a).fetch
  if a.spec.runtimeConfig.verbatimSecret.isSome then return none
  let d ← Attempt.ofExcept (Document.build a resolved)
  return some d

end SpinFleet
