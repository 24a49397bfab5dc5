import Tipping.Browser.Callback
import Tipping.Host

/-!
Requests and notices as calls of the browser's interfaces.

Each request is one call with a callback, each notice one call without. A failure names the
interface, then shows what was thrown or reported. What the browser answers is taken for what
the request asks, or refused.
-/

namespace Tipping.Browser

inductive Api where
  | storageGet | storageSet | storageRemove
  | tabsQuery
  | getRewardsMainEnabled | donateToTwitterUser
  | setBadgeBackgroundColor | setIcon | setBadgeText
  deriving DecidableEq, Repr

def Api.name : Api → String
  | storageGet => "chrome.storage.local.get"
  | storageSet => "chrome.storage.local.set"
  | storageRemove => "chrome.storage.local.remove"
  | tabsQuery => "chrome.tabs.query"
  | getRewardsMainEnabled => "chrome.braveRewards.getRewardsMainEnabled"
  | donateToTwitterUser => "chrome.braveRewards.donateToTwitterUser"
  | setBadgeBackgroundColor => "chrome.browserAction.setBadgeBackgroundColor"
  | setIcon => "chrome.browserAction.setIcon"
  | setBadgeText => "chrome.browserAction.setBadgeText"

/-- A call, with its arguments but for a callback. -/
structure Invocation where
  api : Api
  arguments : List JsValue
  deriving Repr

def thrown (v : JsValue) : Failure := ⟨v.debug, []⟩

/-! ### Requests -/

def key (k : String) : JsValue := .array [.string k]

def invocation : Request → Invocation
  | .get k => ⟨.storageGet, [key k]⟩
  | .set k v => ⟨.storageSet, [.object [(k, .string v)]]⟩
  | .remove k => ⟨.storageRemove, [key k]⟩
  | .activeTab => ⟨.tabsQuery, [.object [("active", .bool true), ("currentWindow", .bool true)]]⟩
  | .rewardsEnabled => ⟨.getRewardsMainEnabled, []⟩

/-- What a failed request was doing. -/
def context : Request → String
  | .get k => "chrome.storage.local.get(" ++ k ++ ")"
  | .set k _ => "chrome.storage.local.set(" ++ k ++ ")"
  | .remove k => "chrome.storage.local.remove(" ++ k ++ ")"
  | .activeTab => "tabs.query"
  | .rewardsEnabled => "braveRewards.getRewardsMainEnabled"

/-- The item of that key, if the value holds a text under it. -/
def itemOf (k : String) (v : JsValue) : Except Failure (Option String) :=
  if v.isNullish then .ok none
  else
    match v.property k with
    | .ok item => .ok item.string?
    | .error f => .error ⟨f.debug, []⟩

/-- The first of a list of tabs, with its number if it has one. -/
def tabOf (v : JsValue) : Except Failure (Option Tab) :=
  match v with
  | .array (.undefined :: _) => .ok none
  | .array (first :: _) =>
    match first.property "id" with
    | .ok id => .ok (some ⟨id.number?.map JsNumber.toSigned32⟩)
    | .error f => .error ⟨f.debug, []⟩
  | _ => .ok none

def enabledOf (v : JsValue) : Except Failure Bool :=
  match v.bool? with
  | some b => .ok b
  | none => .error ⟨"getRewardsMainEnabled returned " ++ v.debug, []⟩

def answerOf : (r : Request) → JsValue → r.Outcome
  | .get k, v => itemOf k v
  | .set _ _, _ => .ok ()
  | .remove _, _ => .ok ()
  | .activeTab, v => tabOf v
  | .rewardsEnabled, v => enabledOf v

def outcome (r : Request) : Settlement → r.Outcome
  | .resolved v => answerOf r v
  | .rejected reason => .error ((thrown reason).during (context r))

/-! ### Notices -/

def noticeInvocation : Notice → Invocation
  | .color c => ⟨.setBadgeBackgroundColor, [.object [("color", .string c)]]⟩
  | .icons i =>
    ⟨.setIcon, [.object [("path", .object (i.entries.map fun (size, path) =>
      (toString size, .string path)))]]⟩
  | .text t => ⟨.setBadgeText, [.object [("text", .string t)]]⟩
  | .donate tab tip =>
    ⟨.donateToTwitterUser, [.number (.finite ((Binary64.ofInt? tab.val).getD default)),
      .string tip.userId, .string tip.name, .string tip.screenName, .string tip.tweetText]⟩

def noticeContext : Notice → String
  | .color _ => "browserAction.setBadgeBackgroundColor"
  | .icons _ => "browserAction.setIcon"
  | .text _ => "browserAction.setBadgeText"
  | .donate _ _ => "braveRewards.donateToTwitterUser"

/-! ### The browser -/

/-- A browser takes calls with a callback, calls without, and replies to the sender of a message;
the last are known by the number of the work that makes them. -/
class Host (β : Type) where
  invoke : Invocation → β → List CallEvent × β
  call : Invocation → β → Except JsValue Unit × β
  reply : Nat → JsValue → β → Except JsValue Unit × β

variable {β : Type} [Host β]

instance : Notified β where
  notify n b :=
    let (result, b) := Host.call (noticeInvocation n) b
    (result.mapError fun v => (thrown v).during (noticeContext n), b)

/-- Makes the call of a request. There is no outcome yet if nothing has settled it. -/
def ask (r : Request) (b : β) : Option r.Outcome × β :=
  let (events, b) := Host.invoke (invocation r) b
  ((firstSettlement events).map (outcome r), b)

end Tipping.Browser
