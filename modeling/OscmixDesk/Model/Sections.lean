/-
**The sections the register table declares: channels, families, globals** (`sections.py`).

Which sections exist, which options they take and what each may hold is read from the device's
table. A file is what `configparser` answers about it: section by section, option by option, names
and options unique, and the options of `[DEFAULT]` already in every section.
-/

import OscmixDesk.Model.Mirrors

namespace OscmixDesk

/-- One section, as `configparser` answers for it. -/
structure IniSection where
  name : String
  options : List (String × String)
  distinct : (options.map Prod.fst).Nodup

namespace IniSection

def get? (ini : IniSection) (option : String) : Option String :=
  ini.options.lookup option

def has (ini : IniSection) (option : String) : Bool :=
  (ini.options.map Prod.fst).contains option

/-- What follows the first colon of the name. -/
def tail (ini : IniSection) : List Char :=
  Text.afterColon ini.name.toList

/-- The parts of the name between its colons. -/
def parts (ini : IniSection) : List (List Char) :=
  ini.name.toList.splitOn ':'

end IniSection

/-- A file, as `configparser` answers for it. -/
structure IniFile where
  sections : List IniSection
  distinct : (sections.map (·.name)).Nodup

/-! ### Values -/

def parseBool (raw sectionName option : String) : Except ConfigProblem Bool :=
  let lowered := Text.lower (Text.strip raw.toList)
  if ["1".toList, "yes".toList, "true".toList, "on".toList].contains lowered then .ok true
  else if ["0".toList, "no".toList, "false".toList, "off".toList].contains lowered then .ok false
  else .error (.notBoolean sectionName option raw)

/-- A quantity, checked against the bounds the register declares. -/
def parseNumber (raw sectionName option : String) (register : Register) :
    Except ConfigProblem Value :=
  match (fromPhysical raw.toList register).getD (Text.readFloat raw.toList) with
  | none => .error (.notANumber sectionName option raw)
  | some number =>
      match numberValue (.float number) register with
      | .ok value => .ok (.real value)
      | .error problem => .error (.numberRefused sectionName option problem)

/-- A value according to the register's declared domain. -/
def parseDomain (raw sectionName option : String) (register : Register) :
    Except ConfigProblem Value :=
  match register.domain with
  | some .bool => do return .int (if ← parseBool raw sectionName option then 1 else 0)
  | some .enum =>
      let value := String.ofList (Text.strip raw.toList)
      if register.choices.contains value then .ok (.str value)
      else .error (.notAChoice sectionName option value)
  | some .number => parseNumber raw sectionName option register
  | none => .error (.noDomain sectionName option)

/-! ### Ignored sections -/

/-- Strict parsing refuses what tolerant parsing would ignore. -/
def ignoredSection (sectionName : String) (strict : Bool) : Except ConfigProblem Unit :=
  if strict then .error (.ignored sectionName) else .ok ()

/-! ### Nested, global and channel sections -/

/-- The families a nested section may name. -/
def nestedFamilyOf (name : List Char) : Option Family :=
  if name = "input".toList then some .input
  else if name = "output".toList then some .output
  else none

/-- Whether `[<sub>:<family>:<n>]` names something the model carries. -/
def isNestedSection (device : Option Device) (ini : IniSection) : Bool :=
  match ini.parts with
  | [sub, family, raw] =>
      Text.allDigits (Text.strip raw) &&
        match nestedFamilyOf family with
        | some family => isNestedFamily device family (String.ofList sub)
        | none => false
  | _ => false

/-- The first option a section may not set. -/
def unknownOptions (ini : IniSection) (known : List String) : List String :=
  (ini.options.map Prod.fst).filter (!known.contains ·)

/-- The option of a nested section as the setting of its channel. -/
def nestedSetting (sub option : String) : Setting :=
  if option = enableOption then .flat sub else .nested sub option

/-- One option of a nested section, read by its row. -/
def nestedOption (ini : IniSection) (known : List (String × Register)) (family : Family)
    (sub : String) (channel : ℕ) (entry : String × String) : Except ConfigProblem ChannelSetting :=
  match known.lookup entry.1 with
  | none => .error (.unknownOptions ini.name [entry.1])
  | some register => do
      let value ← parseDomain entry.2 ini.name entry.1 register
      return { family, channel, option := nestedSetting sub entry.1, value }

/-- Whether the sub-family's first row has the channel. -/
def nestedChannel (device : Device) (known : List (String × Register)) (channel : ℤ) : Option ℕ :=
  known.head?.bind fun row =>
    (device.channelsFor row.2.channels).find? fun own => (own : ℤ) = channel

/-- Parses `[eq:input:3]` and the families that follow it. -/
def parseNestedSection (device : Option Device) (ini : IniSection) :
    Except ConfigProblem (List ChannelSetting) :=
  match ini.parts with
  | [subName, familyName, raw] =>
      match nestedFamilyOf familyName, Text.readInt raw with
      | some family, some channel =>
          let sub := String.ofList subName
          let known := settableNested device sub family
          match device with
          | none => .ok []
          | some model =>
              if known.isEmpty then
                if isNestedFamily device family sub then .error (.unsettable ini.name) else .ok []
              else match nestedChannel model known channel with
              | none => .error (.nestedChannel ini.name sub channel)
              | some own =>
                  let unknown := unknownOptions ini (known.map Prod.fst)
                  if !unknown.isEmpty then .error (.unknownOptions ini.name unknown)
                  else ini.options.mapM (nestedOption ini known family sub own)
      | _, _ => .error (.sectionChannel ini.name)
  | _ => .error (.sectionChannel ini.name)

/-- One option of a global section, read by its row. -/
def globalOption (ini : IniSection) (known : List (String × Register))
    (entry : String × String) : Except ConfigProblem GlobalSetting :=
  match known.lookup entry.1 with
  | none => .error (.unknownOptions ini.name [entry.1])
  | some register => do
      let value ← parseDomain entry.2 ini.name entry.1 register
      return { family := ini.name, option := entry.1, value }

/-- Parses `[echo]` and the other families without channels. -/
def parseGlobalSection (device : Option Device) (ini : IniSection) :
    Except ConfigProblem (List GlobalSetting) :=
  let known := settableGlobals device ini.name
  if known.isEmpty then .error (.unsettable ini.name)
  else
    let unknown := unknownOptions ini (known.map Prod.fst)
    if !unknown.isEmpty then .error (.unknownOptions ini.name unknown)
    else ini.options.mapM (globalOption ini known)

/-- The family a channel section's name starts with. -/
def channelFamily (ini : IniSection) : Option Family :=
  let name := ini.name.toList
  if "input:".toList.isPrefixOf name then some .input
  else if "output:".toList.isPrefixOf name then some .output
  else if "playback:".toList.isPrefixOf name then some .playback
  else none

/-- One option of a channel section. The row is found by channel and not by name alone: an option
can have several rows when the device's limits differ per channel. -/
def channelOption (ini : IniSection) (device : Device) (family : Family) (channel : ℤ)
    (entry : String × String) : Except ConfigProblem ChannelSetting :=
  match channel.toNat?.bind fun number =>
      (optionRegister (some device) family (.flat entry.1) number).map fun row => (number, row) with
  | none => .error (.lacksOption ini.name entry.1 channel)
  | some (number, register) => do
      let value ← parseDomain entry.2 ini.name entry.1 register
      return { family, channel := number, option := .flat entry.1, value }

/-- The options of a section that are the desk's own and no register's. -/
def deskOptions (family : Family) : List String :=
  if family = .output then [mirrorOption] else []

/-- Parses `[input:N]`, `[output:N]` and `[playback:N]`. -/
def parseChannelSection (device : Option Device) (strict : Bool) (family : Family)
    (ini : IniSection) : Except ConfigProblem (List ChannelSetting) :=
  match Text.readInt (Text.strip ini.tail) with
  | none => .error (.sectionChannel ini.name)
  | some channel =>
      let known := (settableOptionRows device family).map Prod.fst
      match device.filter fun _ => !known.isEmpty with
      | none =>
          if family = .playback then .error (.noPlaybackModel ini.name)
          else do
            ignoredSection ini.name strict
            return []
      | some model =>
          let unknown := unknownOptions ini (known ++ deskOptions family)
          if !unknown.isEmpty then .error (.unknownOptions ini.name unknown)
          else (ini.options.filter fun entry => !(deskOptions family).contains entry.1).mapM
            (channelOption ini model family channel)

end OscmixDesk
