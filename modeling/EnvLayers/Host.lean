import EnvLayers.Profile.Find

/-
Module: EnvLayers.Host
Purpose: What a command finds around it: the files, and the variables of its own environment, some
  of which say where profiles are.
Main exports: Host, Host.setting?, Host.home?, Host.profilesDirectory?, Host.profileSearch
-/

namespace EnvLayers

/-- The surroundings of a command. -/
structure Host where
  files : Files
  settings : List (String × String)
deriving Repr, DecidableEq, Inhabited

namespace Host

/-- The value of a variable that is set. -/
def setting? (h : Host) (name : String) : Option String := h.settings.lookup name

/-- The home directory, if one is named. -/
def home? (h : Host) : Option String := (h.setting? "HOME").filter (· ≠ "")

/-- The directory that holds the settings of this program. -/
def settingsDirectory? (h : Host) : Option String :=
  match h.setting? "DEPENV_HOME" with
  | some directory => some directory
  | none => h.home?.map (Path.join · ".depenv")

/-- The directory of shared profiles. -/
def profilesDirectory? (h : Host) : Option String :=
  h.settingsDirectory?.map (Path.join · "profiles")

/-- Where profiles are looked for. -/
def profileSearch (h : Host) : ProfileSearch where
  files := h.files.view
  home := h.home?
  shared := h.profilesDirectory?

end Host

end EnvLayers
