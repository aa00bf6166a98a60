/-
**routing.conf, read: the parser that turns a file into a `Config`** (`config.py`, `deskconf.py`).

`loadConfig` goes over the sections once (`dispatch`), `[device]` first, collecting those that need
the device; then it parses the collected ones, adds what spans the whole desk (the base's routes,
then the mirrors' copies) and checks the routes and settings against the device and each other.
-/

import OscmixDesk.Model.Playback
import OscmixDesk.Model.Sections

namespace OscmixDesk

/-! ### Routes -/

/-- One channel number of a side. -/
def parseChannel (sectionName option : String) (part : List Char) : Except ConfigProblem ℕ :=
  match Text.readInt part with
  | none => .error (.notAChannel sectionName option)
  | some value =>
      if channelMin ≤ value ∧ value ≤ channelMax then .ok value.toNat
      else .error (.channelOutOfRange sectionName option value)

/-- Parses `1/2` (a pair) or `3` (mono). -/
def parseChannels (raw sectionName option : String) : Except ConfigProblem Channels :=
  let parts := (raw.toList.splitOn '/').map Text.strip
  if parts.any List.isEmpty then .error (.channelSyntax sectionName option raw)
  else match parts with
  | [part] => do return .mono (← parseChannel sectionName option part)
  | [left, right] => do
      let first ← parseChannel sectionName option left
      return .pair first (← parseChannel sectionName option right)
  | _ => .error (.channelSyntax sectionName option raw)

def parseDb (raw sectionName option : String) : Except ConfigProblem ℚ :=
  match Text.readFloat raw.toList with
  | none => .error (.notDb sectionName option raw)
  | some (.finite value) =>
      if levelMin ≤ value ∧ value ≤ levelMax then .ok value
      else .error (.dbOutOfRange sectionName option raw)
  | some _ => .error (.dbOutOfRange sectionName option raw)

/-- The options each of the file's own sections may set. -/
def knownOptions : String → List String
  | "device" => ["name", "usb-id", "serial"]
  | "desk" => ["base", "enforce", "peak-safe"]
  | "osc" => ["port", "recv-port"]
  | _ => ["playback", "input", "output", "level", "volume", "stereo", "pan"]

def checkOptions (ini : IniSection) (kind : String) : Except ConfigProblem Unit :=
  let unknown := unknownOptions ini (knownOptions kind)
  if unknown.isEmpty then .ok () else .error (.unknownOptions ini.name unknown)

/-- The value of an optional entry, parsed, or the option's default. -/
def optionOr {α : Type} (ini : IniSection) (option : String) (fallback : α)
    (parse : String → Except ConfigProblem α) : Except ConfigProblem α :=
  match ini.get? option with
  | none => .ok fallback
  | some raw => parse raw

/-- The one source of a route. -/
def routeSource (ini : IniSection) : Except ConfigProblem (Kind × Channels) :=
  match ini.get? "playback", ini.get? "input" with
  | some _, some _ => .error (.twoSources ini.name)
  | none, none => .error (.noSource ini.name)
  | some raw, none => do return (.playback, ← parseChannels raw ini.name "playback")
  | none, some raw => do return (.input, ← parseChannels raw ini.name "input")

/-- The name of a route section, or the whole section name where it gives none. -/
def routeName (ini : IniSection) : String :=
  let name := Text.strip ini.tail
  if name.isEmpty then ini.name else String.ofList name

def parsePan (ini : IniSection) (raw : String) : Except ConfigProblem ℤ :=
  match Text.readInt raw.toList with
  | none => .error (.notABalance ini.name raw)
  | some pan => .ok pan

def parseRoute (ini : IniSection) : Except ConfigProblem Route := do
  checkOptions ini "route"
  match ini.get? "output" with
  | none => throw (.missingOutput ini.name)
  | some rawOutput =>
      let (kind, source) ← routeSource ini
      let output ← parseChannels rawOutput ini.name "output"
      if sameWidth : source.isPair = output.isPair then
        let level ← optionOr ini "level" 0 (parseDb · ini.name "level")
        let volume ← optionOr ini "volume" none fun raw =>
          return some (← parseDb raw ini.name "volume")
        let stereo ← optionOr ini "stereo" true (parseBool · ini.name "stereo")
        if output.isPair && !stereo && decide (0 < level) then throw (.unlinkedLevel ini.name)
        let pan ← optionOr ini "pan" 0 (parsePan ini)
        let route : Route :=
          { name := routeName ini, kind, source, output, level, volume, stereo, pan, sameWidth }
        match route.checkedPan with
        | .ok _ => return route
        | .error problem => throw (.balance ini.name problem)
      else throw (.widthsDiffer ini.name)

/-! ### The draft -/

/-- A configuration while it is being read. -/
structure Draft where
  deviceName : String
  usbId : String
  serial : String
  oscPort : ℤ
  oscRecvPort : ℤ
  overrides : Overrides
  routes : List Route := []
  channels : List ChannelSetting := []
  globals : List GlobalSetting := []
  policies : List ((Family × String) × Policy) := []
  base : String := "keep"
  enforce : Enforce := .apply
  peakSafe : Bool := false
  mirrors : List Mirror := []
  /-- The sections that need the device, in file order. -/
  pending : List IniSection := []
  pendingGlobals : List IniSection := []
  pendingNested : List IniSection := []

/-- The device name the desk is for: the command line's, else the file's. -/
def Draft.used (draft : Draft) : String :=
  draft.overrides.named.getD draft.deviceName

def Draft.device (draft : Draft) : Option Device :=
  deviceForName draft.used

/-- The configuration a draft becomes. -/
def Draft.frozen (draft : Draft) (base : Base) : Config :=
  let file : Machine :=
    { deviceName := draft.deviceName, usbId := draft.usbId, serial := draft.serial,
      oscPort := draft.oscPort, oscRecvPort := draft.oscRecvPort }
  let run := file.under draft.overrides
  { deviceName := run.deviceName, usbId := run.usbId, serial := run.serial,
    oscPort := run.oscPort, oscRecvPort := run.oscRecvPort, routes := draft.routes,
    channels := draft.channels, globals := draft.globals, policies := draft.policies,
    loaded := some file, overrides := draft.overrides, base, enforce := draft.enforce,
    peakSafe := draft.peakSafe }

/-! ### The file's own sections -/

/-- A hexadecimal digit, as the pattern of a USB id spells it. -/
def isHexDigit (c : Char) : Bool :=
  ('0' ≤ c && c ≤ '9') || ('a' ≤ c && c ≤ 'f') || ('A' ≤ c && c ≤ 'F')

/-- `vvvv:pppp`. -/
def isUsbId (text : List Char) : Bool :=
  match text.splitOn ':' with
  | [vendor, product] =>
      vendor.length = 4 && product.length = 4 && vendor.all isHexDigit && product.all isHexDigit
  | _ => false

/-- Four or more decimal digits. -/
def isSerial (text : List Char) : Bool :=
  4 ≤ text.length && text.all fun c => (Text.digitValue c).isSome

def parseDevice (ini : IniSection) (draft : Draft) : Except ConfigProblem Draft := do
  checkOptions ini "device"
  let name := Text.strip ((ini.get? "name").getD draft.deviceName).toList
  if name.isEmpty then throw .deviceName
  let usbId := Text.strip ((ini.get? "usb-id").getD draft.usbId).toList
  if !isUsbId usbId then throw (.usbId (String.ofList usbId))
  let serial := Text.strip ((ini.get? "serial").getD draft.serial).toList
  if !serial.isEmpty && !isSerial serial then throw (.serial (String.ofList serial))
  return { draft with
    deviceName := String.ofList name
    usbId := String.ofList (Text.lower usbId)
    serial := String.ofList serial }

def parsePort (option : String) (fallback : ℤ) (ini : IniSection) : Except ConfigProblem ℤ :=
  optionOr ini option fallback fun raw =>
    match Text.readInt raw.toList with
    | none => .error (.notAPort option raw)
    | some port => .ok port

/-- A port number, the fallback's included, must be one. -/
def checkPort (option : String) (port : ℤ) : Except ConfigProblem ℤ :=
  if 1 ≤ port ∧ port ≤ 65535 then .ok port else .error (.portOutOfRange option port)

def parseOsc (ini : IniSection) (draft : Draft) : Except ConfigProblem Draft := do
  checkOptions ini "osc"
  let oscPort ← checkPort "port" (← parsePort "port" draft.oscPort ini)
  let oscRecvPort ← checkPort "recv-port" (← parsePort "recv-port" draft.oscRecvPort ini)
  return { draft with oscPort, oscRecvPort }

def parseEnforce (raw : String) : Except ConfigProblem Enforce :=
  let word := Text.strip raw.toList
  if word = "apply".toList then .ok .apply
  else if word = "watch".toList then .ok .watch
  else .error (.enforceValue (String.ofList word))

/-- Options of the session rather than of the desk. -/
def sessionOptions : List String := ["enforce", "peak-safe"]

/-- The `[desk]` options the file states. A profile states none of the session's. -/
def parseDesk (profile : Bool) (ini : IniSection) (draft : Draft) :
    Except ConfigProblem Draft := do
  checkOptions ini "desk"
  let base := ((ini.get? "base").map fun raw => String.ofList (Text.strip raw.toList)).getD draft.base
  match (sessionOptions.filter ini.has).head? with
  | some option => if profile then throw (.sessionOption option)
  | none => pure ()
  let enforce ← optionOr ini "enforce" draft.enforce parseEnforce
  let peakSafe ← optionOr ini "peak-safe" draft.peakSafe (parseBool · ini.name "peak-safe")
  return { draft with base, enforce, peakSafe }

/-- A policy word. -/
def parsePolicy (raw : List Char) : Option Policy :=
  let word := Text.lower (Text.strip raw)
  if word = "pin".toList then some .pin
  else if word = "remember".toList then some .remember
  else none

/-- The family of a `[pin]` key. -/
def pinFamily (name : List Char) : Option Family :=
  if name = "input".toList then some .input
  else if name = "output".toList then some .output
  else if name = "playback".toList then some .playback
  else none

/-- The options of a family a `[pin]` may name: the settable ones, and the link where the device
has one. -/
def pinnable (device : Option Device) (family : Family) : List String :=
  (settableOptionRows device family).map Prod.fst
    ++ (if (registerAt device (.link family 1)).isSome then ["stereo"] else [])

/-- One override of who wins after the initial write. -/
def parsePinEntry (device : Option Device) (entry : String × String) :
    Except ConfigProblem ((Family × String) × Policy) :=
  match parsePolicy entry.2.toList, entry.1.toList.splitOn '.' with
  | none, _ => .error (.pinValue entry.1 entry.2)
  | some policy, [familyName, option] =>
      match pinFamily familyName with
      | none => .error (.pinFamily entry.1 (String.ofList familyName))
      | some family =>
          if (pinnable device family).contains (String.ofList option) then
            .ok ((family, String.ofList option), policy)
          else .error (.pinOption entry.1 family.name (String.ofList option))
  | some _, _ => .error (.pinKey entry.1)

def parsePin (ini : IniSection) (draft : Draft) : Except ConfigProblem Draft := do
  let policies ← ini.options.mapM (parsePinEntry draft.device)
  return { draft with policies := draft.policies ++ policies }

/-! ### Going over the sections -/

/-- Routes one section to its parser, or refuses or reports an ignored one. Sections that need the
device are only collected. -/
def dispatchSection (strict profile : Bool) (draft : Draft) (ini : IniSection) :
    Except ConfigProblem Draft :=
  if ini.name = "device" then parseDevice ini draft
  else if ini.name = "osc" then parseOsc ini draft
  else if ini.name = "desk" then parseDesk profile ini draft
  else if "route:".toList.isPrefixOf ini.name.toList then do
    let route ← parseRoute ini
    return { draft with routes := draft.routes ++ [route] }
  else if (channelFamily ini).isSome then
    .ok { draft with pending := draft.pending ++ [ini] }
  else if ini.name = "pin" then parsePin ini draft
  else if isGlobalFamily draft.device ini.name then
    .ok { draft with pendingGlobals := draft.pendingGlobals ++ [ini] }
  else if isNestedSection draft.device ini then
    .ok { draft with pendingNested := draft.pendingNested ++ [ini] }
  else do
    ignoredSection ini.name strict
    return draft

/-- The sections with `[device]` in front, wherever it stands in the file. -/
def orderedSections (file : IniFile) : List IniSection :=
  file.sections.filter (·.name = "device") ++ file.sections.filter (·.name ≠ "device")

def dispatch (strict profile : Bool) (draft : Draft) (file : IniFile) :
    Except ConfigProblem Draft :=
  (orderedSections file).foldlM (dispatchSection strict profile) draft

/-- The `mirror =` of an output section, on a device that is modelled. -/
def sectionMirror (device : Option Device) (ini : IniSection) :
    Except ConfigProblem (Option Mirror) :=
  match channelFamily ini, device, ini.get? mirrorOption, Text.readInt ini.tail with
  | some .output, some model, some raw, some channel => do
      return some (← parseMirror raw ini.name channel model)
  | some .output, some _, some _, none => .error (.sectionChannel ini.name)
  | _, _, _, _ => .ok none

/-- One collected channel section: its settings and its mirror. -/
def collectSection (device : Option Device) (strict : Bool) (ini : IniSection) :
    Except ConfigProblem (List ChannelSetting × Option Mirror) :=
  match channelFamily ini with
  | none => .ok ([], none)
  | some family => do
      let settings ← parseChannelSection device strict family ini
      return (settings, ← sectionMirror device ini)

/-- The sections that needed the device: global, nested and channel sections. -/
def parseCollected (strict : Bool) (draft : Draft) : Except ConfigProblem Draft := do
  let globals ← draft.pendingGlobals.mapM (parseGlobalSection draft.device)
  let nested ← draft.pendingNested.mapM (parseNestedSection draft.device)
  let sections ← draft.pending.mapM (collectSection draft.device strict)
  return { draft with
    globals := globals.flatten
    channels := nested.flatten ++ (sections.map Prod.fst).flatten
    mirrors := sections.filterMap Prod.snd }

/-- The base's routes beneath the declared ones; a device that is not modelled gets none. -/
def addedRoutes (draft : Draft) (base : Base) : Except ConfigProblem (List Route) :=
  match draft.device with
  | none => .ok []
  | some device => baseRoutes base draft.routes draft.channels draft.mirrors device

/-- What spans the whole desk: the base's routes, then the mirrors, so that a mirror copies the
base's routes of its source like any other. -/
def deskWide (draft : Draft) : Except ConfigProblem (Draft × Base) := do
  let base ← checkBase draft.base
  let added ← addedRoutes draft base
  let routes ← expandMirrors (draft.routes ++ added) draft.mirrors
  return ({ draft with routes }, base)

/-! ### The desk as a whole -/

/-- A side's first channel that the device does not have. A capability that was never recorded is
no opinion. -/
def missingChannel (device : Device) (family : Family) (channels : Channels) : Option ℕ :=
  let valid := device.channelsFor family.name
  if valid.isEmpty then none else channels.toList.find? (!valid.contains ·)

/-- Rejects a route on channels the configured device does not have. -/
def checkRouteChannels (device : Device) (route : Route) : Except ConfigProblem Unit :=
  match missingChannel device route.kind.family route.source with
  | some channel => .error (.noSuchChannel route.name route.kind.family channel)
  | none =>
      match missingChannel device .output route.output with
      | some channel => .error (.noSuchChannel route.name .output channel)
      | none => .ok ()

def checkDeviceChannels (device : Option Device) (routes : List Route) :
    Except ConfigProblem Unit :=
  match device with
  | none => .ok ()
  | some known => routes.forM (checkRouteChannels known)

/-- Rejects routes that disagree on a source or output pair's link. The problem names the first
route that states the pair and the first that states it the other way. -/
def checkLinkAgreement (routes : List Route) : Except ConfigProblem Unit :=
  match disagreement [] (allRequirements routes) with
  | none => .ok ()
  | some requirement =>
      let nameOf (states : LinkRequirement → Bool) :=
        ((routes.find? (·.linkRequirements.any states)).map (·.name)).getD ""
      .error (.linkDisagreement
        (nameOf fun own => own.family = requirement.family && own.channel = requirement.channel)
        (nameOf (· = requirement)) requirement.family requirement.channel)

/-- The checks of a configuration before any I/O, once it is read. -/
def validate (config : Config) : Except Fault Unit := do
  validateAutogain config
  orConfig (validatePlaybackMute config)
  validateDspLimits config

/-- Loads a `routing.conf`; no file gives the built-in defaults. `onto` supplies defaults, such as
a profile's main configuration; `strict` refuses what would be ignored. -/
def loadConfig (file : Option IniFile) (onto : Config := {}) (overrides : Overrides := {})
    (strict profile : Bool := false) : Except Fault Config := do
  let draft : Draft :=
    { deviceName := onto.deviceName, usbId := onto.usbId, serial := onto.serial,
      oscPort := onto.oscPort, oscRecvPort := onto.oscRecvPort, overrides }
  match file with
  | none => return draft.frozen .keep
  | some file =>
      let read ← orConfig (dispatch strict profile draft file)
      let collected ← orConfig (parseCollected strict read)
      let (whole, base) ← orConfig (deskWide collected)
      orConfig (checkDeviceChannels whole.device whole.routes)
      orConfig (checkLinkAgreement whole.routes)
      orConfig ((validateRoutePan whole.routes).mapError .routePan)
      let config := whole.frozen base
      validate config
      return config

/-- The configurations `loadConfig` accepts. -/
def Accepted (config : Config) : Prop :=
  ∃ file onto overrides strict profile,
    loadConfig file onto overrides strict profile = .ok config

end OscmixDesk
