/-
**Mirrored outputs: one output's declared submix, kept equal on another** (`mirrors.py`).

`[output:3]` with `mirror = 1/2` declares every route of outputs 1/2 again for outputs 3/4, without
the route's `volume`. Only what the desk declares is mirrored.
-/

import OscmixDesk.Model.Base

namespace OscmixDesk

def mirrorOption : String := "mirror"

/-- An output of the device, as a channel number. -/
def outputOf (device : Device) (channel : ℤ) : Option ℕ :=
  (device.channelsFor "output").find? fun out => (out : ℤ) = channel

/-- `mirror = S` or `mirror = S/S+1` in `[output:N]`; the target has its width. -/
def parseMirror (raw sectionName : String) (channel : ℤ) (device : Device) :
    Except ConfigProblem Mirror :=
  match ((Text.strip raw.toList).splitOn '/').mapM Text.readInt with
  | none => .error (.mirrorSyntax sectionName raw)
  | some [source] =>
      match outputOf device channel, outputOf device source with
      | some target, some source =>
          if source = target then .error (.mirrorItself sectionName)
          else .ok { target := .mono target, source := .mono source, sameWidth := Channels.mono_width _ _ }
      | _, _ => .error (.mirrorNoOutput sectionName)
  | some [left, right] =>
      if left % 2 ≠ 1 ∨ right ≠ left + 1 then .error (.mirrorNotAPair sectionName raw)
      else if channel % 2 ≠ 1 then .error (.mirrorOntoEven sectionName)
      else
        match outputOf device channel, outputOf device (channel + 1), outputOf device left,
            outputOf device right with
        | some target, some targetRight, some source, some sourceRight =>
            if source = target ∨ source = targetRight ∨ sourceRight = target
                ∨ sourceRight = targetRight then
              .error (.mirrorItself sectionName)
            else .ok { target := .pair target targetRight, source := .pair source sourceRight,
                       sameWidth := Channels.pair_width _ _ _ _ }
        | _, _, _, _ => .error (.mirrorNoOutput sectionName)
  | some _ => .error (.mirrorSyntax sectionName raw)

/-- The first channel that occurs a second time. -/
def firstRepeated : List ℕ → Option ℕ
  | [] => none
  | channel :: rest => if rest.contains channel then some channel else firstRepeated rest

/-- A route's copy on a mirror of its output. A copy keeps its source, level, balance and link. -/
def mirrorCopy (mirror : Mirror) (route : Route) (own : route.output = mirror.source) : Route :=
  { route with
    name := route.name ++ "-mirror-" ++ "-".intercalate (mirror.target.toList.map toString)
    output := mirror.target
    volume := none
    mirrorOf := some mirror.source
    sameWidth := by rw [route.sameWidth, own, mirror.sameWidth] }

/-- The copies one mirror makes of the routes. -/
def mirrorCopies (routes : List Route) (mirror : Mirror) : List Route :=
  routes.filterMap fun route =>
    if own : route.output = mirror.source then some (mirrorCopy mirror route own) else none

/-- Refuses a route that covers a mirrored output only in part, or writes a mirror's target. -/
def checkMirrored (mirrors : List Mirror) (route : Route) : Except ConfigProblem Unit :=
  match mirrors.find? fun mirror => route.output.toList.any mirror.source.toList.contains
      && route.output ≠ mirror.source with
  | some mirror => .error (.mirroredPartly route.name mirror.source.toList)
  | none =>
      match route.output.toList.find? (mirroredOutputs mirrors).contains with
      | some output => .error (.mirrorHasRoute route.name output)
      | none => .ok ()

/-- The declared routes plus, for each mirror, a copy of its source's routes. -/
def expandMirrors (routes : List Route) (mirrors : List Mirror) :
    Except ConfigProblem (List Route) :=
  match firstRepeated (mirroredOutputs mirrors) with
  | some output => .error (.mirroredTwice output)
  | none =>
      match mirrors.find? fun mirror =>
          mirror.source.toList.any (mirroredOutputs mirrors).contains with
      | some mirror => .error (.mirrorOfMirror mirror.target.toList mirror.source.toList)
      | none => do
          routes.forM (checkMirrored mirrors)
          return routes ++ mirrors.flatMap (mirrorCopies routes)

end OscmixDesk
