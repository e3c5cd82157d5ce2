import SpinFleet.Codec.Record
/-!
# Conditions

A condition says whether one thing holds of an app, since when, and why.  An app has at most one
condition of a type; setting one again keeps its time as long as its status stays the same.
-/
namespace SpinFleet

inductive ConditionStatus
  | true
  | false
  | unknown
deriving DecidableEq, Repr, Inhabited

namespace ConditionStatus

def text : ConditionStatus → String
  | .true => "True"
  | .false => "False"
  | .unknown => "Unknown"

def words : List String := ["True", "False", "Unknown"]

def ofWord? : String → Option ConditionStatus
  | "True" => some .true
  | "False" => some .false
  | "Unknown" => some .unknown
  | _ => none

/-- The status that the cluster writes as a word; every other word leaves it unknown. -/
def observed (word : String) : ConditionStatus := (ofWord? word).getD .unknown

def codec : Codec ConditionStatus where
  decode j := observed <$> (Codec.word words).decode j
  encode s := .string s.text
  schema := .word words

end ConditionStatus

structure Condition where
  type : String
  status : ConditionStatus
  reason : String
  message : String
  /-- Since when the status is what it is. -/
  lastTransitionTime : Instant
deriving DecidableEq, Repr

namespace Condition

def record : Record Condition where
  name := "Condition"
  doc := "Kubernetes-style condition for status reporting"
  start := ⟨"", .unknown, "", "", ⟨0, 0⟩⟩
  fields := [
    .doc "Type of condition (e.g., Available, Progressing)" <|
      .required "type" .string type fun a x => { x with type := a },
    .doc "Status of the condition (True, False, Unknown)" <|
      .required "status" ConditionStatus.codec status fun a x => { x with status := a },
    .doc "Machine-readable reason for the condition" <|
      .defaulted "reason" .string reason fun a x => { x with reason := a },
    .doc "Human-readable message" <|
      .defaulted "message" .string message fun a x => { x with message := a },
    .doc "Last time the condition transitioned" <|
      .required "lastTransitionTime" (.time Instant.textExact) lastTransitionTime
        fun a x => { x with lastTransitionTime := a }]

def codec : Codec Condition := record.strict

def find? (type : String) (cs : List Condition) : Option Condition :=
  cs.find? (fun c => c.type == type)

/-- What becomes of a condition when a newer one of its type is set: reason and message are the
newer ones, and the time moves only together with the status. -/
def update (old new : Condition) : Condition :=
  if old.status = new.status then { old with reason := new.reason, message := new.message }
  else { new with type := old.type }

/-- Sets a condition: the one of its type is updated in place, otherwise it comes last. -/
def set (new : Condition) : List Condition → List Condition
  | [] => [new]
  | c :: cs => if c.type = new.type then update c new :: cs else c :: set new cs

end Condition

end SpinFleet
