import SpinFleet.Child.Container
import SpinFleet.Kube.Service
/-!
# The `Service` of an app

The address of an app within the cluster.  It sends requests to the pods that carry the app's
status label.
-/
namespace SpinFleet

def serviceSelector (app : String) : Labels := .ofList [(statusLabel app, readyValue)]

def App.service (a : App) : Except Error Service := do
  let owner ← a.owner
  return {
    metadata := a.childMeta a.spec.serviceAnnotations owner
    spec := some {
      type := some "ClusterIP"
      ports := some [⟨some portName, portNumber, some "TCP", some (.string portName), .empty⟩]
      selector := some (serviceSelector a.name)
      carried := .empty }
    carried := .empty }

end SpinFleet
