import StackMutants.Archive
import StackMutants.Datum.Project
import StackMutants.Journal
import StackMutants.Plan.Analyser
import StackMutants.Yaml.View

/-!
# Files — programs, configurations and archives in files

`Files m` is what is asked of a file system: to read a file and to replace one, either of which may fail
for a reason given in words.  Programs and configurations are YAML texts, archives JSON texts.
-/

namespace StackMutants

structure Files (m : Type → Type) where
  /-- The bytes of a file. -/
  read : (path : String) → m (Except String ByteArray)
  /-- Puts a text into a file, in place of what was there. -/
  write : (path : String) → (text : String) → m (Except String Unit)

namespace Files

variable {m : Type → Type} [Monad m]

/-- The text of a file, which has to be UTF-8. -/
def readText (files : Files m) (path : String) : m (Except String String) := do
  match ← files.read path with
  | .error reason => pure (.error reason)
  | .ok bytes =>
    match String.fromUTF8? bytes with
    | some text => pure (.ok text)
    | none => pure (.error "stream did not contain valid UTF-8")

end Files

def Program.ofText (file : String) (text : String) : Except Fault Program :=
  match (Yaml.Document.read? text.toList).bind (·.readAs? Program.read?) with
  | none => .error (.config (.malformed "program" file))
  | some p => do
    p.validate
    pure p

def Config.ofText (file : String) (text : String) : Except Fault Config :=
  match (Yaml.Document.read? text.toList).bind (·.readAs? Config.read?) with
  | none => .error (.config (.malformed "config" file))
  | some c => .ok c

namespace Files

variable {m : Type → Type} [Monad m] (files : Files m)

def loadProgram (path : String) : m (Except Fault Program) := do
  match ← files.readText path with
  | .error reason => pure (.error (.unreadable path reason))
  | .ok text => pure (Program.ofText path text)

def loadConfig (path : String) : m (Except Fault Config) := do
  match ← files.readText path with
  | .error reason => pure (.error (.config (.unreadable path reason)))
  | .ok text => pure (Config.ofText path text)

def loadArchive (path : String) : m (Except Fault (List Outcome)) := do
  match ← files.readText path with
  | .error reason => pure (.error (.unreadable path reason))
  | .ok text => pure (Archive.read path text)

def storeArchive (path : String) (os : List Outcome) : m (Except Fault Unit) := do
  match ← files.write path (Archive.text os) with
  | .error reason => pure (.error (.unwritable path reason))
  | .ok () => pure (.ok ())

/-- A recall of the outcomes in an archive, with a note of how many they are. -/
def loadRecall (path : String) : m (Journaled Fault Recall) := do
  match ← files.loadArchive path with
  | .error fault => pure (.fail fault)
  | .ok os =>
    pure do
      .debug s!"Loaded {os.length} stored result(s) from {path}"
      pure (.ofOutcomes os)

end Files

end StackMutants
