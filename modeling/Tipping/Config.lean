import Tipping.Json.Codec.Tree
import Tipping.Log
import Tipping.Text.Blank

/-!
Settings, given as optional JSON text.

Every field has a default. A text that cannot be used leaves all of them at their defaults, and
one warning says why; it is made after logging has been started at the level of the settings in
force.
-/

namespace Tipping

/-- The paths of the toolbar icon at 18, 36 and 54 pixels. -/
structure IconSet where
  small : String
  medium : String
  large : String
  deriving DecidableEq, Repr

namespace IconSet

def initial : IconSet :=
  ⟨"img/rewards-on.png", "img/rewards-on@2x.png", "img/rewards-on@3x.png"⟩

/-- Sizes and paths, by ascending size. -/
def entries (i : IconSet) : List (Nat × String) := [(18, i.small), (36, i.medium), (54, i.large)]

open Json in
def codec : Codec IconSet :=
  .record "IconSet"
    (.cons "18" .string none (.cons "36" .string none (.cons "54" .string none .nil)))
    (fun (small, medium, large, ()) => ⟨small, medium, large⟩)
    (fun i => (i.small, i.medium, i.large, ()))
    (fun _ => rfl) (fun _ => rfl)

end IconSet

structure Config where
  badgeColor : String
  badgeText : String
  icons : IconSet
  saveDebounce : Unsigned64
  logLevel : String
  deriving DecidableEq, Repr

namespace Config

def initial : Config where
  badgeColor := "#FB542B"
  badgeText := "1"
  icons := .initial
  saveDebounce := ⟨50, by decide⟩
  logLevel := "info"

open Json in
def codec : Codec Config :=
  .record "ExtensionConfig"
    (.cons "badgeColor" .string (some initial.badgeColor)
      (.cons "badgeText" .string (some initial.badgeText)
        (.cons "icons" IconSet.codec (some initial.icons)
          (.cons "saveDebounceMs" (.integer "u64" _ _) (some initial.saveDebounce)
            (.cons "logLevel" .string (some initial.logLevel) .nil)))))
    (fun (badgeColor, badgeText, icons, saveDebounce, logLevel, ()) =>
      ⟨badgeColor, badgeText, icons, saveDebounce, logLevel⟩)
    (fun c => (c.badgeColor, c.badgeText, c.icons, c.saveDebounce, c.logLevel, ()))
    (fun _ => rfl) (fun _ => rfl)

/-- The level to log at: the one named, or INFO if there is none of that name. -/
def level (c : Config) : Level := (Level.ofName? c.logLevel).getD .info

/-- How long a save waits for a later one, in milliseconds. -/
def window (c : Config) : Nat := c.saveDebounce.val.toNat

end Config

inductive ConfigError where
  | unreadable (fault : Json.Fault)
  | emptyBadgeText
  deriving DecidableEq, Repr

namespace ConfigError

def message : ConfigError → String
  | unreadable _ => "Failed to parse extension config"
  | emptyBadgeText => "badgeText must not be empty"

def cause? : ConfigError → Option Json.Fault
  | unreadable fault => some fault
  | emptyBadgeText => none

def text (e : ConfigError) : String :=
  match e.cause? with
  | some fault => e.message ++ ": " ++ fault.message
  | none => e.message

end ConfigError

namespace Config

def ofText (s : String) : Except ConfigError Config :=
  match codec.readText s with
  | .error fault => .error (.unreadable fault)
  | .ok c => if c.badgeText.isEmpty then .error .emptyBadgeText else .ok c

/-- No text, or a blank one, gives the defaults. -/
def ofOptionalText : Option String → Except ConfigError Config
  | none => .ok initial
  | some s => if blankText s then .ok initial else ofText s

end Config

/-- Settings in force, the level at which logging was started, and the records made then. -/
structure LoadedConfig where
  config : Config
  level : Level
  records : List LogRecord
  deriving DecidableEq, Repr

def Config.load (text : Option String) : LoadedConfig :=
  match ofOptionalText text with
  | .ok c => ⟨c, c.level, []⟩
  | .error e => ⟨initial, initial.level, [⟨.warn, "Using default config: " ++ e.text⟩]⟩

end Tipping
