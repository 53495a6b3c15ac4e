import StackMutants.Datum.Outcome
import StackMutants.Plan.Settings

/-!
# Datum.Project — reading programs, settings and configurations
-/

namespace StackMutants

open Datum

variable {m : Type → Type} {ν : Type} [Monad m] [MonadExcept Unit m] [Datum m ν]

def LineCoverage.read? (v : ν) : m LineCoverage := do
  match ← fields? ["class", "line", "tests"] v with
  | [owner, line, tests] =>
    pure {
      owner := ← needed? ClassName.read? owner
      line := ← needed? word32? line
      tests := ← field? [] (list? CoveringTest.read?) tests }
  | _ => refuse

def Program.read? (v : ν) : m Program := do
  match ← fields? ["classes", "coverage"] v with
  | [classes, coverage] =>
    pure {
      classes := ← field? [] (list? ClassDef.read?) classes
      coverage := ← field? [] (list? LineCoverage.read?) coverage }
  | _ => refuse

def Settings.read? (v : ν) : m Settings := do
  let standard : Settings := {}
  match ← fields? ["mutation_unit_size", "verbose", "timeout_factor", "timeout_constant_ms",
    "mutators"] v with
  | [unitSize, verbose, factor, constantMs, mutators] =>
    pure {
      unitSize := ← field? standard.unitSize (natBelow? UInt64.size) unitSize
      verbose := ← field? standard.verbose bool? verbose
      timeoutFactor := ← field? standard.timeoutFactor single? factor
      timeoutConstantMs := ← field? standard.timeoutConstantMs word64? constantMs
      mutators := ← field? standard.mutators (list? text?) mutators }
  | _ => refuse

def Config.read? (v : ν) : m Config := do
  match ← fields? ["version", "settings", "classes"] v with
  | [version, settings, classes] =>
    pure {
      version := ← needed? text? version
      settings := ← field? {} Settings.read? settings
      classes := ← field? [] (list? ClassName.read?) classes }
  | _ => refuse

end StackMutants
