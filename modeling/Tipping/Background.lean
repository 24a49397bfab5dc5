import Tipping.Browser.Adapter
import Tipping.Notification.Session

/-!
The background page: a session in a browser.

Runtime events open flights and start them; each request is a call of the browser, and its
settlement, be it at once or later, carries the flight on. A message that asks whether rewards
are enabled has its reply sent once its flight is over. A page at work stands on a browser
that keeps every reply it is given to send.
-/

namespace Tipping

open Browser Notification

/-- A message as the browser hands it over: a text is a bare tag, and everything else is taken
by its JSON text. -/
def Message.ofJsValue (v : JsValue) : Message × List LogRecord :=
  match v with
  | .string s => parse (.string s)
  | .undefined => parse .null
  | .null => parse .null
  | v =>
    match v.stringify with
    | .ok text => ofText (text.getD "")
    | .error f =>
      let (message, records) := parse .null
      (message, ⟨.warn, "Unserializable runtime message: " ++ f.debug⟩ :: records)

/-- The settings text is given again to every new page. Replies are kept as they are sent. -/
structure Background (β : Type) where
  settings : Option String
  session : Session β
  replies : List (Nat × RewardsReply)

namespace Background

variable {β : Type}

def replyValue (r : RewardsReply) : JsValue := .object [("enabled", .bool r.enabled)]

def receivedRecord (m : Message) : LogRecord := ⟨.debug, "Received message " ++ quoted m.tag⟩

/-- The reply that the last happening calls for. -/
def dueReply? (s : Session β) : Option (Nat × RewardsReply) :=
  match s.trace.getLast? with
  | some (.finished id (some r)) => some (id, r)
  | _ => none

variable [Host β]

/-- Loads the settings and sets up the badge for the current controller. -/
def setUp (b : Background β) : Background β :=
  let loaded := Config.load b.settings
  let session := { b.session with config := loaded.config }.log loaded.records
  { b with session :=
      session.setUp.log [⟨.info, "🚀 Rewards background initialized (Rust core)"⟩] }

/-- A page that was just loaded. -/
def new (settings : Option String) (host : β) : Background β :=
  setUp ⟨settings, .new .initial host, []⟩

/-- The page is loaded again; what the earlier one left open goes on. -/
def renew (b : Background β) : Background β := setUp { b with session := b.session.restart }

/-- Sends the reply that is due. -/
def sendReply (b : Background β) : Background β :=
  match dueReply? b.session with
  | none => b
  | some (id, r) =>
    let (result, host) := Host.reply id (replyValue r) b.session.host
    let session := { b.session with host }
    let session := match result with
      | .ok () => session
      | .error v => session.log [⟨.warn, "Failed to send response: " ++ v.debug⟩]
    { b with session, replies := b.replies ++ [(id, r)] }

/-- Carries a flight on with the outcome of the request it waits for. -/
def carryOn (b : Background β) (f : Flight) (stage : Stage) (o : stage.request.Outcome) :
    Background β :=
  sendReply { b with session := b.session.settle f stage o }

/-- Makes the call of the request that a flight waits for, and goes on for as long as calls
settle at once. -/
def pursue (id : Nat) : Nat → Background β → Background β
  | 0, b => b
  | answers + 1, b =>
    match b.session.flight? id with
    | none => b
    | some f =>
      match f.progress with
      | .held _ => b
      | .waiting stage =>
        let (o, host) := ask stage.request b.session.host
        let b := { b with session := { b.session with host } }
        match o with
        | none => b
        | some o => pursue id answers (b.carryOn f stage o)

def start (b : Background β) (id : Nat) : Background β :=
  pursue id 3 { b with session := b.session.start id }

/-- A runtime event; the flight it opens is the last one opened. -/
def operate (b : Background β) (op : Operation) : Background β :=
  start { b with session := b.session.hold op } b.session.opened

/-- A runtime message. The listener's return value says whether a reply will come. -/
def receive (b : Background β) (v : JsValue) : Bool × Background β :=
  let (message, records) := Message.ofJsValue v
  let session := b.session.receive message (records ++ [receivedRecord message])
  (message.keepsOpen, start { b with session } b.session.opened)

/-- An event of the call that a flight made at a stage. It settles the call if nothing has. -/
def deliver (b : Background β) (id : Nat) (stage : Stage) (e : CallEvent) : Background β :=
  match b.session.flight? id with
  | none => b
  | some f =>
    if f.progress = .waiting stage then
      pursue id 3 (b.carryOn f stage (outcome stage.request e.settlement))
    else b

def isOpen (b : Background β) (id : Nat) : Bool := (b.session.flight? id).isSome

end Background

/-! ### Pages at work -/

/-- A reply given to the browser for the sender of a message, and how that went. -/
structure Sending where
  flight : Nat
  value : JsValue
  result : Except JsValue Unit

/-- A browser, and all replies that it was given to send. -/
structure Noted (β : Type) where
  browser : β
  sent : List Sending

instance {β : Type} [Host β] : Host (Noted β) where
  invoke i b :=
    let (events, browser) := Host.invoke i b.browser
    (events, { b with browser })
  call i b :=
    let (result, browser) := Host.call i b.browser
    (result, { b with browser })
  reply id v b :=
    let (result, browser) := Host.reply id v b.browser
    (result, ⟨browser, b.sent ++ [⟨id, v, result⟩]⟩)

/-- What the runtime reports, but for messages. -/
inductive RuntimeEvent where
  | installed (reason : String)
  | startup
  | connect
  | disconnect
  deriving DecidableEq, Repr

def RuntimeEvent.operation : RuntimeEvent → Operation
  | installed reason => .installed reason
  | startup => .startup
  | connect => .connect
  | disconnect => .disconnect

/-- All that can happen to a page: it is loaded again, the runtime has news for it, the browser
answers a call that a flight made at a stage, or others do something to the browser. -/
inductive BackgroundEvent (β : Type) where
  | reload
  | runtime (e : RuntimeEvent)
  | message (v : JsValue)
  | answer (flight : Nat) (stage : Stage) (e : CallEvent)
  | outside (change : β → β)

def Background.step {β : Type} [Host β] (b : Background (Noted β)) :
    BackgroundEvent β → Background (Noted β)
  | .reload => b.renew
  | .runtime e => b.operate e.operation
  | .message v => (b.receive v).2
  | .answer id stage e => b.deliver id stage e
  | .outside change =>
    let host := { b.session.host with browser := change b.session.host.browser }
    { b with session := { b.session with host } }

end Tipping
