import Tipping.Json.Codec.Tree
import Tipping.Json.Codec.Value
import Tipping.Log

/-!
Messages from other pages, and the records that travel with them.

A message is a bare tag or an object with a `type` and the fields of that type. Reading one never
fails: what is no request that is known and complete is unknown, and keeps its tag.
-/

namespace Tipping

/-- A tip for a user, passed on as it was given. -/
structure TwitterTip where
  userId : String
  name : String
  screenName : String
  tweetText : String
  deriving DecidableEq, Repr

open Json in
def TwitterTip.codec : Codec TwitterTip :=
  .record "TwitterTip"
    (.cons "userId" .string none (.cons "name" .string none
      (.cons "screenName" .string none (.cons "tweetText" .string none .nil))))
    (fun (userId, name, screenName, tweetText, ()) => ⟨userId, name, screenName, tweetText⟩)
    (fun t => (t.userId, t.name, t.screenName, t.tweetText, ()))
    (fun _ => rfl) (fun _ => rfl)

/-- The answer to the question whether rewards are enabled. -/
structure RewardsReply where
  enabled : Bool
  deriving DecidableEq, Repr

open Json in
def RewardsReply.codec : Codec RewardsReply :=
  .record "RewardsEnabledResponse" (.cons "enabled" .bool none .nil)
    (fun (enabled, ()) => ⟨enabled⟩) (fun r => (r.enabled, ()))
    (fun _ => rfl) (fun _ => rfl)

/-- A browser tab; one that is no page of its own has no number. -/
structure Tab where
  id : Option Signed32
  deriving DecidableEq, Repr

open Json in
def Tab.codec : Codec Tab :=
  .record "Tab" (.cons "id" (.nullable (.integer "i32" _ _)) (some none) .nil)
    (fun (id, ()) => ⟨id⟩) (fun t => (t.id, ()))
    (fun _ => rfl) (fun _ => rfl)

inductive Message where
  | donate (tip : TwitterTip)
  | rewardsEnabled
  | unknown (tag : String)
  deriving DecidableEq, Repr

namespace Message

def donateTag : String := "donateToTwitterUser"
def rewardsEnabledTag : String := "rewardsEnabled"

def tag : Message → String
  | donate _ => donateTag
  | rewardsEnabled => rewardsEnabledTag
  | unknown tag => tag

/-- The tag that a value names, if it is a string or an object with a `type` that is one. -/
def tagOf? : Json → Option String
  | .string s => some s
  | .object ms =>
    match ms.lookup "type" with
    | some (.string s) => some s
    | _ => none
  | _ => none

/-- The message of a value, and the records made on the way. -/
def parse (v : Json) : Message × List LogRecord :=
  match tagOf? v with
  | none => (unknown "", [])
  | some tag =>
    if tag = rewardsEnabledTag then (rewardsEnabled, [])
    else if tag = donateTag then
      match TwitterTip.codec.ofJson v with
      | .ok tip => (donate tip, [])
      | .error m =>
        (unknown tag, [⟨.warn, "Ignoring " ++ tag ++ " with malformed payload: " ++ m.message⟩])
    else (unknown tag, [])

/-- The message of a JSON text. -/
def ofText (s : String) : Message × List LogRecord :=
  match Json.ofText s with
  | .ok v => parse v
  | .error b => (unknown "", [⟨.warn, "Ignoring message that is not JSON: " ++ b.message⟩])

end Message

end Tipping
