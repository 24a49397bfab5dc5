import Tipping.Browser.Callback
import Tipping.Payments.Desk

/-!
The payments page: a saver on the page's own store.

A page is set up with the settings text and finds the store of its window, or throws. When it is
set up anew the saves scheduled before go on, on the same store and clock.
-/

namespace Tipping

open Browser Payments

/-- What the page finds: a window, perhaps with a store, and the items of that store. -/
class PageHost (π : Type) where
  hasWindow : π → Bool × π
  hasStore : π → Except JsValue Bool × π
  getItem : String → π → Except JsValue (Option String) × π
  setItem : String → String → π → Except JsValue Unit × π

/-- The browser's timer counts milliseconds in 32 bits. Up to that it is taken to wait in full, as
is assumed of the timer; `setTimeout` itself reads its delay as a signed number. -/
def longestTimeout : Nat := 4294967295

def shownFailure (v : JsValue) : Failure := ⟨v.debug, []⟩

instance {π : Type} [PageHost π] : ItemStore π where
  getItem key p :=
    let (result, p) := PageHost.getItem key p
    (result.mapError shownFailure, p)
  setItem key value p :=
    let (result, p) := PageHost.setItem key value p
    (result.mapError shownFailure, p)

/-- The current saver is the one of the page set up last, if its set-up did not throw. -/
structure PaymentsPage (π : Type) where
  settings : Option String
  desk : Desk π
  current : Option Nat

/-- All that can happen to a page. -/
inductive PageEvent (π : Type) where
  | setUp
  | save (saver : Nat) (text : String)
  | load
  | flush (saver : Nat)
  | advance (ms : Nat)
  | outside (f : π → π)

namespace PaymentsPage

variable {π : Type} [PageHost π]

/-- Finds the store of the window. -/
def findStore (p : π) : Except Failure Unit × π :=
  let (found, p) := PageHost.hasWindow p
  if found then
    let (result, p) := PageHost.hasStore p
    match result with
    | .error v => (.error (shownFailure v), p)
    | .ok false => (.error ⟨"localStorage is disabled", []⟩, p)
    | .ok true => (.ok (), p)
  else (.error ⟨"No window in this context", []⟩, p)

/-- Sets the page up; what is thrown is the text of the failure. -/
def setUp (p : PaymentsPage π) : Except JsValue Unit × PaymentsPage π :=
  let loaded := Config.load p.settings
  let desk := loaded.records.foldl (fun d r => d.note (.logged r)) p.desk
  let (result, store) := findStore desk.store
  let desk := { desk with store }
  match result with
  | .error f => (.error (.string f.text), { p with desk, current := none })
  | .ok () =>
    (.ok (), { p with
      desk := desk.addSaver loaded.config.window
      current := some desk.savers.length })

def new (settings : Option String) (host : π) : Except JsValue Unit × PaymentsPage π :=
  setUp ⟨settings, .new host (.clock (some longestTimeout)) [], none⟩

/-- A save of a text that does not read as a state is refused. Each event of a page is a whole turn
of the event loop, with all the jobs polled that the turn has work for. Two saves in one turn, whose
jobs are polled after both, are a run of the desk and not of the page. -/
def save (p : PaymentsPage π) (saver : Nat) (text : String) : PaymentsPage π :=
  match Payments.State.codec.readText text with
  | .error fault =>
    let refusal := "Refusing to save malformed payments state: " ++ fault.message
    { p with desk := p.desk.note (.logged ⟨.error, refusal⟩) }
  | .ok state => { p with desk := ((p.desk.save saver state).release p.desk.made).pollAll }

/-- The stored state as JSON text. -/
def load (p : PaymentsPage π) : String × PaymentsPage π :=
  let (state, desk) := p.desk.load
  (Payments.State.codec.text state, { p with desk })

def flush (p : PaymentsPage π) (saver : Nat) : PaymentsPage π :=
  { p with desk := (p.desk.flush saver).pollAll }

def advance (p : PaymentsPage π) (ms : Nat) : PaymentsPage π :=
  { p with desk := (p.desk.advance ms).pollAll }

def step (p : PaymentsPage π) : PageEvent π → PaymentsPage π
  | .setUp => p.setUp.2
  | .save i text => p.save i text
  | .load => p.load.2
  | .flush i => p.flush i
  | .advance ms => p.advance ms
  | .outside f => { p with desk := { p.desk with store := f p.desk.store } }

def run (p : PaymentsPage π) (es : List (PageEvent π)) : PaymentsPage π := es.foldl step p

@[simp] theorem run_nil (p : PaymentsPage π) : p.run [] = p := rfl

@[simp] theorem run_cons (p : PaymentsPage π) (e : PageEvent π) (es : List (PageEvent π)) :
    p.run (e :: es) = (p.step e).run es := rfl

end PaymentsPage

end Tipping
