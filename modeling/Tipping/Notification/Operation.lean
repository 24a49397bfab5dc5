import Tipping.Host

/-!
The operations of the notification controller.

An operation runs from one host request to the next. The stage it waits at says which request
is out; the answer decides what is done then and where it waits next, if anywhere. Failures are
logged and go no further.
-/

namespace Tipping.Notification

/-- The flag that says whether the initial notification was dismissed. -/
def dismissedKey : String := "is_dismissed"
def panelOpenKey : String := "rewards_panel_open"
def yes : String := "true"
def no : String := "false"

/-- The stored flag says that the notification is still to be dismissed. -/
def pending (flag : Option String) : Bool := flag = some no

/-- Where the initial notification stands: shown, dismissed in this session, or not pending. -/
inductive State where
  | fresh | dismissed | acknowledged
  deriving DecidableEq, Repr

/-- The badge text that a state implies. -/
def State.badgeText (config : Config) : State → String
  | fresh => config.badgeText
  | dismissed => ""
  | acknowledged => ""

inductive Operation where
  | installed (reason : String)
  | startup
  | connect
  | disconnect
  | tip (tip : TwitterTip)
  | askRewards
  deriving DecidableEq, Repr

/-- What an operation in progress waits for. -/
inductive Stage where
  | storingFlag
  | readingFlagAtStartup
  | openingPanel
  | readingFlagAtConnect
  | removingFlag
  | closingPanel
  | findingTab (tip : TwitterTip)
  | askingRewards
  deriving DecidableEq, Repr

def Stage.request : Stage → Request
  | storingFlag => .set dismissedKey no
  | readingFlagAtStartup => .get dismissedKey
  | openingPanel => .set panelOpenKey yes
  | readingFlagAtConnect => .get dismissedKey
  | removingFlag => .remove dismissedKey
  | closingPanel => .set panelOpenKey no
  | findingTab _ => .activeTab
  | askingRewards => .rewardsEnabled

inductive Action where
  | log (r : LogRecord)
  | become (s : State)
  | notify (n : Notice)
  deriving DecidableEq, Repr

inductive Next where
  | finished (reply : Option RewardsReply)
  | awaiting (stage : Stage)
  deriving DecidableEq, Repr

/-- What is done between two requests, and what comes then. -/
structure Stretch where
  actions : List Action
  next : Next
  deriving DecidableEq, Repr

def finish (actions : List Action) : Stretch := ⟨actions, .finished none⟩
def await (actions : List Action) (stage : Stage) : Stretch := ⟨actions, .awaiting stage⟩

def debug (text : String) : Action := .log ⟨.debug, text⟩
def info (text : String) : Action := .log ⟨.info, text⟩
def complaint (doing : String) (f : Failure) : LogRecord := ⟨.warn, doing ++ ": " ++ f.text⟩
def complain (doing : String) (f : Failure) : Action := .log (complaint doing f)

/-- What was being done when a notice was refused. -/
def purpose : Notice → String
  | .color _ => "Failed to set badge colour"
  | .icons _ => "Failed to set browser action icon"
  | .text _ => "Failed to set badge text"
  | .donate _ _ => "Failed to forward tip"

/-- Done once, when a controller is set up. -/
def setUp (config : Config) : List Action :=
  [.notify (.color config.badgeColor), .notify (.icons config.icons)]

def showBadge (config : Config) : List Action :=
  [.become .fresh, .notify (.text config.badgeText)]

def Operation.start : Operation → Stretch
  | installed reason =>
    if reason = "install" then
      await [info "🎉 Fresh install, showing initial notification"] .storingFlag
    else finish [debug ("Installed event (" ++ reason ++ "), nothing to do")]
  | startup => await [] .readingFlagAtStartup
  | connect => await [] .openingPanel
  | disconnect => await [] .closingPanel
  | tip t => await [] (.findingTab t)
  | askRewards => await [] .askingRewards

def Stage.resume (config : Config) : (stage : Stage) → stage.request.Outcome → Stretch
  | storingFlag, outcome =>
    match outcome with
    | .ok () => finish (showBadge config)
    | .error f => finish [complain "Failed to store dismissal flag" f]
  | readingFlagAtStartup, outcome =>
    match outcome with
    | .ok value =>
      if pending value then
        finish (info "Initial notification still pending" :: showBadge config)
      else finish [.become .acknowledged]
    | .error f => finish [complain "Failed to read dismissal flag" f]
  | openingPanel, outcome =>
    match outcome with
    | .ok () => await [] .readingFlagAtConnect
    | .error f => await [complain "Failed to store panel state" f] .readingFlagAtConnect
  | readingFlagAtConnect, outcome =>
    match outcome with
    | .ok value =>
      if pending value then
        await [info "Panel opened, dismissing initial notification", .become .dismissed,
          .notify (.text "")] .removingFlag
      else finish []
    | .error f => finish [complain "Failed to read dismissal flag" f]
  | removingFlag, outcome =>
    match outcome with
    | .ok () => finish []
    | .error f => finish [complain "Failed to remove dismissal flag" f]
  | closingPanel, outcome =>
    match outcome with
    | .ok () => finish []
    | .error f => finish [complain "Failed to store panel state" f]
  | findingTab tip, outcome =>
    match outcome with
    | .ok tab =>
      match tab.bind Tab.id with
      | some id =>
        finish [info ("💸 Tip for @" ++ tip.screenName ++ " on tab " ++ toString id.val),
          .notify (.donate id tip)]
      | none => finish [debug ("No active tab, dropping tip for @" ++ tip.screenName)]
    | .error f => finish [complain "Failed to query active tab" f]
  | askingRewards, outcome =>
    match outcome with
    | .ok enabled => ⟨[], .finished (some ⟨enabled⟩)⟩
    | .error f =>
      ⟨[complain "Rewards status unavailable, replying disabled" f], .finished (some ⟨false⟩)⟩

/-- How many answers a stage takes at most until its operation is over. -/
def Stage.answersLeft : Stage → Nat
  | openingPanel => 3
  | readingFlagAtConnect => 2
  | _ => 1

theorem Stage.answersLeft_resume {config : Config} {stage stage' : Stage}
    {outcome : stage.request.Outcome} (h : (stage.resume config outcome).next = .awaiting stage') :
    stage'.answersLeft < stage.answersLeft := by
  cases stage <;> rcases outcome with f | a <;> simp only [Stage.resume] at h <;>
    (repeat' split at h) <;> cases h <;> decide

end Tipping.Notification

namespace Tipping.Message

open Notification

/-- The work that a message asks for. -/
def operation? : Message → Option Operation
  | donate t => some (.tip t)
  | rewardsEnabled => some .askRewards
  | unknown _ => none

/-- Whether the sender waits for a reply. -/
def keepsOpen : Message → Bool
  | rewardsEnabled => true
  | _ => false

/-- The records made when a message arrives. -/
def remarks : Message → List LogRecord
  | unknown tag => [⟨.debug, "Ignoring message " ++ quoted tag⟩]
  | _ => []

end Tipping.Message
