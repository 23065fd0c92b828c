import ComponentViews.Settings.Basic
import ComponentViews.Toml.Document

/-!
# Settings in TOML

The settings can be kept in a TOML text, where each has a key of its own. Settings that are
missing keep their defaults, and keys that are not known are passed over.
-/

namespace ComponentViews

/-- Why a text holds no settings. -/
inductive SettingsFault where
  /-- The text is no TOML, or a value is not of the type wanted. -/
  | malformed
  | unsupported (fault : UnsupportedMajor)
deriving DecidableEq, Repr

/-- The text that is reported for settings that cannot be used. -/
def SettingsFault.message : SettingsFault → String
  | malformed => "Invalid configuration: the settings are malformed"
  | unsupported fault => fault.message

namespace Toml

/-- The truth value that a value is. -/
def boolean? : Toml → Option Bool
  | boolean b => some b
  | _ => none

/-- The text that a value is. -/
def string? : Toml → Option String
  | string s => some s
  | _ => none

/-- The word that a value is; integers out of the range of words are none. -/
def word16? : Toml → Option UInt16
  | integer n => if 0 ≤ n ∧ n < 0x10000 then some (UInt16.ofNat n.toNat) else none
  | _ => none

/-- The value of a setting: its default where the document does not have the key. -/
def Document.setting {α : Type} (d : Document) (key : String) (read : Toml → Option α)
    (fallback : α) : Except SettingsFault α :=
  match (d.value? key).map read with
  | some (some a) => .ok a
  | some none => .error .malformed
  | none => if d.has key then .error .malformed else .ok fallback

end Toml

namespace Settings

/-- The settings that a document holds. -/
def ofDocument (d : Toml.Document) : Except SettingsFault Settings := do
  let d₀ : Settings := {}
  let major ← d.setting "class_file_major" Toml.word16? d₀.major
  let nameCompat ← d.setting "name_compat" Toml.boolean? d₀.nameCompat
  let uncheckedAreSystem ← d.setting "declared_unchecked_are_system_exceptions" Toml.boolean?
    d₀.failures.uncheckedAreSystem
  let remoteAreApplication ← d.setting "declared_remote_are_application_exceptions"
    Toml.boolean? d₀.failures.remoteAreApplication
  let verifyOutput ← d.setting "verify_output" Toml.boolean? d₀.verifyOutput
  let dumpDir ← d.setting "dump_dir" (fun v => some <$> v.string?) d₀.dumpDir
  return { major, nameCompat, failures := ⟨uncheckedAreSystem, remoteAreApplication⟩,
           verifyOutput, dumpDir }

/-- Reads settings from a TOML text, and checks them. -/
def ofToml (text : String) : Except SettingsFault Settings := do
  match Toml.Document.ofText? text with
  | none => throw .malformed
  | some d =>
    let s ← ofDocument d
    s.check.mapError .unsupported
    return s

end Settings

end ComponentViews
