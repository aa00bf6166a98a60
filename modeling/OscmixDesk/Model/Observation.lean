/-
**Latest decoded values within one observation window** (`observation.py`).

An observation holds what a window expects of some registers and the last report of each register it
keeps. A report that matches confirms its register and one that does not contradicts it; either is
revoked by the next report of the register. Absence is neither.
-/

import Mathlib.Data.Finset.Card
import OscmixDesk.Model.Reconcile

namespace OscmixDesk

/-- What a window expects a register to report. -/
structure Expectation where
  path : Path
  tags : String
  args : Args
  deriving DecidableEq, Repr

/-- One expectation set and what its window has reported so far. -/
structure Observation where
  expected : Keyed Expectation.path
  device : Option Device := none
  dependencyPaths : List Path := []
  /-- Kept as reported, neither expected nor waited for. -/
  noted : List Path := []
  latest : Reports := noReports
  confirmed : Finset Path := ∅
  mismatched : Finset Path := ∅
  invalid : Finset Path := ∅

/-- The last report of a register is now another. -/
def Reports.set (latest : Reports) (path : Path) (report : Report) : Reports :=
  Function.update latest path (some report)

namespace Observation

/-- A window that has seen nothing. -/
def opened (expected : List Expectation) (device : Option Device := none)
    (dependencyPaths noted : List Path := []) : Observation where
  expected := Keyed.ofList expected
  device := device
  dependencyPaths := dependencyPaths
  noted := noted

/-- Whether one argument could be a report of its register. -/
def validArg (register : Option Register) (stereo : Bool) (index : ℕ) (tag : Char) (value : Value) :
    Bool :=
  let coded : Bool :=
    if tag = 'i' then
      match integer value with
      | .ok number => !stereo || number = 0 || number = 1
      | .error _ => false
    else if tag = 'f' then (float32 value).toOption.isSome
    else false
  match register with
  | none => coded
  | some row =>
      if row.mixLevel then
        if index = 0 ∧ value = .float (.infinite true) then true
        else
          (index ≠ 1 || match value with
            | .int pan => -100 ≤ pan && pan ≤ 100
            | _ => false) && coded
      else if row.domain.isSome then (reportValue value row).toOption.isSome && coded
      else coded

/-- The arguments one by one, from an index. -/
def validArgs (register : Option Register) (stereo : Bool) : ℕ → List Char → Args → Bool
  | index, tag :: tags, value :: values =>
      validArg register stereo index tag value && validArgs register stereo (index + 1) tags values
  | _, _, _ => true

/-- Invalid feedback is not an observed user adjustment. -/
def valid (device : Option Device) (path : Path) (tags : String) (args : Args) : Bool :=
  !tags.isEmpty && tags.toList.length ≤ args.length
    && validArgs (registerAt device path) (path.endsWith "stereo") 0 tags.toList args

/-- Whether a register is declared unobservable: an echo of it is no confirmation. -/
def unobservable (device : Option Device) (path : Path) : Bool :=
  match registerAt device path with
  | none => false
  | some row => row.verify ≠ .verifiable && row.domain.isSome

/-- Whether a report could be one of its expected register. -/
def validReport (device : Option Device) (expectation : Expectation) (report : Message) : Bool :=
  expectation.tags.toList.isPrefixOf report.tags.toList
    && valid device report.path expectation.tags report.args
    && (!report.path.endsWith "autoset" || (flagValue (some ⟨report.tags, report.args⟩)).isSome)

/-- One decoded report. -/
def absorb (observed : Observation) (report : Message) : Observation :=
  let kept := (observed.expected.get? report.path).isSome
    || observed.dependencyPaths.contains report.path || observed.noted.contains report.path
  let noted := if kept then
      { observed with latest := observed.latest.set report.path ⟨report.tags, report.args⟩ }
    else observed
  match observed.expected.get? report.path with
  | none => noted
  | some expectation =>
      if unobservable observed.device report.path then noted
      else
        let isValid := validReport observed.device expectation report
        let agrees := isValid && matchesReport expectation.tags expectation.args report.args none
          (registerAt observed.device report.path)
        { noted with
          confirmed :=
            if agrees then insert report.path observed.confirmed
            else observed.confirmed.erase report.path
          mismatched :=
            if agrees then observed.mismatched.erase report.path
            else insert report.path observed.mismatched
          invalid :=
            if isValid then observed.invalid.erase report.path
            else insert report.path observed.invalid }

/-- The decoded reports of one delivery. -/
def absorbAll (observed : Observation) (reports : List Message) : Observation :=
  reports.foldl absorb observed

/-- The expected registers no report decided. -/
def unobserved (observed : Observation) : List Path :=
  observed.expected.keys.filter fun path =>
    path ∉ observed.confirmed ∧ path ∉ observed.mismatched

/-- Whether every expectation is confirmed. -/
def complete (observed : Observation) : Bool :=
  observed.confirmed.card = observed.expected.keys.length

/-- Whether every requested Boolean dependency has a valid last report. -/
def dependenciesComplete (observed : Observation) : Bool :=
  observed.dependencyPaths.all fun path => (flagValue (observed.latest path)).isSome

end Observation

end OscmixDesk
