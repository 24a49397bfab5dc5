import Tipping.Browser.Callback

/-!
Calls with a callback, any number of them out at once.

All share one global object, in which the browser reports an error for as long as it runs the
callback of a call that failed. Each call has a promise of its own. A callback can be run once, at
once or later, and a call can throw until it returns; the promise takes the first of these and
nothing that comes after.
-/

namespace Tipping.Browser

structure Call where
  running : Bool
  callable : Bool
  promise : Option Settlement
  deriving Repr

namespace Call

/-- A call that is just being made. -/
def new : Call := ⟨true, true, none⟩

def settle (c : Call) (s : Settlement) : Call := { c with promise := c.promise.or (some s) }

/-- What an event of the call does to it. A callback that was run is gone. -/
def hear (c : Call) (e : CallEvent) : Call :=
  match e with
  | .calledBack .. => if c.callable then { c with callable := false }.settle e.settlement else c
  | .threw _ => if c.running then { c with running := false }.settle e.settlement else c

/-- What the event settles, if it is the one that does. -/
def news? (c : Call) (e : CallEvent) : Option Settlement :=
  if c.promise.isNone then (c.hear e).promise else none

end Call

/-- The program makes a call; the browser runs the callback of one; a call throws or returns; and
the browser replaces the global object, to report an error or to take the report back. -/
inductive HostEvent where
  | made
  | calledBack (call : Nat) (value : JsValue)
  | threw (call : Nat) (error : JsValue)
  | returned (call : Nat)
  | globalSet (globalObject : JsValue)
  deriving Repr

/-- Calls are numbered in the order in which they are made, and settlements are kept in the order
in which they come about. -/
structure Calls where
  globalObject : JsValue
  calls : List Call
  settled : List (Nat × Settlement)
  deriving Repr

namespace Calls

def new (globalObject : JsValue) : Calls := ⟨globalObject, [], []⟩

def hear (w : Calls) (n : Nat) (e : CallEvent) : Calls :=
  match w.calls[n]? with
  | none => w
  | some c =>
    { w with
      calls := w.calls.set n (c.hear e)
      settled := w.settled ++ (c.news? e).toList.map (n, ·) }

def step (w : Calls) : HostEvent → Calls
  | .made => { w with calls := w.calls ++ [.new] }
  | .calledBack n value => w.hear n (.calledBack value w.globalObject)
  | .threw n error => w.hear n (.threw error)
  | .returned n => { w with calls := w.calls.modify n ({ · with running := false }) }
  | .globalSet globalObject => { w with globalObject }

def run (w : Calls) (es : List HostEvent) : Calls := es.foldl step w

@[simp] theorem run_nil (w : Calls) : w.run [] = w := rfl

@[simp] theorem run_cons (w : Calls) (e : HostEvent) (es : List HostEvent) :
    w.run (e :: es) = (w.step e).run es := rfl

/-- All that a call has been settled to. -/
def settlementsOf (w : Calls) (n : Nat) : List Settlement :=
  (w.settled.filter (·.1 = n)).map Prod.snd

end Calls

end Tipping.Browser
