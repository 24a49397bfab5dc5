import Tipping.Config
import Tipping.Message

/-!
What the program asks of its host.

A request is answered some time later, with an answer of its own type or a failure. A notice is
taken or refused at once.
-/

namespace Tipping

/-- A failure and what led to it, outermost first. -/
structure Failure where
  message : String
  causes : List String
  deriving DecidableEq, Repr

namespace Failure

def chain (f : Failure) : List String := f.message :: f.causes

def text (f : Failure) : String := ": ".intercalate f.chain

/-- The failure, as seen by who was doing something else with it. -/
def during (doing : String) (f : Failure) : Failure := ⟨doing, f.chain⟩

end Failure

inductive Request where
  | get (key : String)
  | set (key value : String)
  | remove (key : String)
  | activeTab
  | rewardsEnabled
  deriving DecidableEq, Repr

abbrev Request.Answer : Request → Type
  | get _ => Option String
  | set _ _ => Unit
  | remove _ => Unit
  | activeTab => Option Tab
  | rewardsEnabled => Bool

abbrev Request.Outcome (r : Request) : Type := Except Failure r.Answer

inductive Notice where
  | color (color : String)
  | icons (icons : IconSet)
  | text (text : String)
  | donate (tab : Signed32) (tip : TwitterTip)
  deriving DecidableEq, Repr

/-- Hosts that take notices. -/
class Notified (η : Type) where
  notify : Notice → η → Except Failure Unit × η

end Tipping
