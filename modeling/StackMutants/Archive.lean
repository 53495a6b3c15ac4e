import StackMutants.Datum.Outcome
import StackMutants.Fault
import StackMutants.Json.Printer
import StackMutants.Json.Reader
import StackMutants.Json.View

/-!
# Archive — outcomes stored as text

An archive is a JSON object with a version number and the outcomes in their order.  `Archive.text`
writes one and `Archive.read` reads one back; an archive of another version is refused once it has been
read completely.
-/

namespace StackMutants

def CoveringTest.toJson (t : CoveringTest) : Json :=
  .record [("name", .text t.name), ("defining_class", .text t.definingClass.text),
    ("time_ms", .nat t.timeMs.toNat)]

def MutationId.toJson (id : MutationId) : Json :=
  .record [("class", .text id.owner.text), ("method", .text id.method),
    ("descriptor", .text id.descriptor), ("operator", .text id.operator), ("index", .nat id.index)]

def Mutation.toJson (m : Mutation) : Json :=
  .record [("id", m.id.toJson), ("line", .nat m.line.toNat), ("description", .text m.description),
    ("tests_in_order", .array (m.tests.map CoveringTest.toJson))]

def Verdict.toJson (v : Verdict) : Json :=
  .record [("tests_run", .nat v.testsRun), ("status", .text v.status.name),
    ("killing_test", v.note.elim .null .text)]

def Outcome.toJson (o : Outcome) : Json :=
  .record [("details", o.mutation.toJson), ("status_test_pair", o.verdict.toJson)]

namespace Archive

/-- The version of the archives that are written and read here. -/
def version : Nat := 1

def toJson (os : List Outcome) : Json :=
  .record [("version", .nat version), ("results", .array (os.map Outcome.toJson))]

def text (os : List Outcome) : String := String.ofList (toJson os).pretty

/-- The version and the outcomes of an archive. -/
def ofJson? (v : Json) : Option (Nat × List Outcome) := do
  match ← Datum.fields? ["version", "results"] v with
  | [found, outcomes] =>
    some (← Datum.needed? (Datum.natBelow? UInt32.size) found,
      ← Datum.needed? (Datum.list? Outcome.read?) outcomes)
  | _ => none

/-- Reads the text of an archive; the file is named for the sake of messages. -/
def read (file : String) (text : String) : Except Fault (List Outcome) :=
  match (Json.read? text.toList).bind ofJson? with
  | none => .error (.history file .malformed)
  | some (found, outcomes) =>
    if found = version then .ok outcomes
    else .error (.history file (.unsupportedVersion found version))

end Archive

end StackMutants
