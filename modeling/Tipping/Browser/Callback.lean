import Tipping.Browser.Value

/-!
How a call with a callback settles.

A call may run its callback, at once or later, and it may throw. It settles by the first of these
events and no other changes it. A callback that runs while the browser reports an error has
failed, whatever value it was given.
-/

namespace Tipping.Browser

/-- The callback ran, with the global object as it was then; or the call threw. -/
inductive CallEvent where
  | calledBack (value globalObject : JsValue)
  | threw (error : JsValue)
  deriving Repr

inductive Settlement where
  | resolved (value : JsValue)
  | rejected (reason : JsValue)
  deriving Repr

/-- The message of `chrome.runtime.lastError`, if it is set. -/
def lastError? (globalObject : JsValue) : Option String :=
  let found := do
    let chrome ← globalObject.property "chrome"
    let runtime ← chrome.property "runtime"
    runtime.property "lastError"
  match found with
  | .error _ => none
  | .ok error =>
    if error.isNullish then none
    else
      match error.property "message" with
      | .ok (.string message) => some message
      | _ => some error.debug

def CallEvent.settlement : CallEvent → Settlement
  | calledBack value globalObject =>
    match lastError? globalObject with
    | some message => .rejected (.string message)
    | none => .resolved value
  | threw error => .rejected error

/-- The first event settles. -/
def firstSettlement (events : List CallEvent) : Option Settlement :=
  events.head?.map CallEvent.settlement

end Tipping.Browser
