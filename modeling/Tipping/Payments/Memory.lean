import Tipping.Keyed
import Tipping.Payments.Desk

/-!
An item store in memory, and desks on it.

The store may be told to fail; an item that it refuses to set stays as it was.
-/

namespace Tipping.Payments

/-- The items are sorted by key. -/
structure Memory where
  items : List (String × String)
  getFailure : Option Failure
  setFailure : Option Failure
  deriving DecidableEq, Repr

namespace Memory

/-- A store with at most the payments item. -/
def new (item : Option String) : Memory := ⟨(item.map fun s => (itemKey, s)).toList, none, none⟩

def set (m : Memory) (key value : String) : Memory :=
  { m with items := Keyed.insert key value m.items }

def unset (m : Memory) (key : String) : Memory := { m with items := Keyed.erase key m.items }

instance : ItemStore Memory where
  getItem key m :=
    match m.getFailure with
    | some f => (.error f, m)
    | none => (.ok (m.items.lookup key), m)
  setItem key value m :=
    match m.setFailure with
    | some f => (.error f, m)
    | none => (.ok (), m.set key value)

end Memory

/-- What others do to the store. -/
inductive Change where
  | set (key value : String)
  | unset (key : String)
  | failGet (failure : Option Failure)
  | failSet (failure : Option Failure)
  | unavailable (b : Bool)
  deriving DecidableEq, Repr

/-- What a store that is not available says to everything. -/
def unavailable : Failure := ⟨"localStorage unavailable", []⟩

def Change.apply (m : Memory) : Change → Memory
  | set key value => m.set key value
  | unset key => m.unset key
  | failGet failure => { m with getFailure := failure }
  | failSet failure => { m with setFailure := failure }
  | unavailable b =>
    let failure := if b then some Payments.unavailable else none
    { m with getFailure := failure, setFailure := failure }

/-- All that can happen to a desk, one step at a time. -/
inductive Event where
  | save (saver : Nat) (state : State)
  | release (job : Nat)
  | poll (job : Nat)
  | drop (job : Nat)
  | flush (saver : Nat)
  | load
  | advance (ms : Nat)
  | outside (c : Change)
  deriving DecidableEq, Repr

namespace Desk

def step (d : Desk Memory) : Event → Desk Memory
  | .save i state => d.save i state
  | .release id => d.release id
  | .poll id => d.poll id
  | .drop id => d.remove id
  | .flush i => d.flush i
  | .load => d.load.2
  | .advance ms => d.advance ms
  | .outside c => { d with store := c.apply d.store }

def run (d : Desk Memory) (events : List Event) : Desk Memory := events.foldl step d

@[simp] theorem run_nil (d : Desk Memory) : d.run [] = d := rfl

@[simp] theorem run_cons (d : Desk Memory) (e : Event) (es : List Event) :
    d.run (e :: es) = (d.step e).run es := rfl

theorem run_append (d : Desk Memory) (es es' : List Event) :
    d.run (es ++ es') = (d.run es).run es' := by
  simp [run, List.foldl_append]

end Desk

end Tipping.Payments
