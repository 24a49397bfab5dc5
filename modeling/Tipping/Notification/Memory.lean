import Tipping.Keyed
import Tipping.Notification.Session

/-!
A host in memory, and sessions on it.

The host keeps what it was told and answers from it. A plan of failures says which calls it
refuses; a refused call has no effect.
-/

namespace Tipping.Notification

/-- What a planned failure is for; a storage failure is for one key or for all. -/
inductive Target where
  | get (key : Option String)
  | set (key : Option String)
  | remove (key : Option String)
  | activeTab
  | rewardsEnabled
  | color
  | icons
  | text
  | donate
  deriving DecidableEq, Repr

/-- The items are sorted by key. The badge shows nothing until a text is set. -/
structure Memory where
  items : List (String × String)
  color : Option String
  icons : Option IconSet
  shown : Option String
  donations : List (Signed32 × TwitterTip)
  tab : Option Tab
  enabled : Bool
  failures : List (Target × Failure)
  deriving DecidableEq, Repr

namespace Memory

def new (items : List (String × String)) (tab : Option Tab) : Memory :=
  ⟨Keyed.ofList items, none, none, none, [], tab, false, []⟩

/-- The plan for all keys comes first. -/
def targets : Request → List Target
  | .get key => [.get none, .get (some key)]
  | .set key _ => [.set none, .set (some key)]
  | .remove key => [.remove none, .remove (some key)]
  | .activeTab => [.activeTab]
  | .rewardsEnabled => [.rewardsEnabled]

def noticeTarget : Notice → Target
  | .color _ => .color
  | .icons _ => .icons
  | .text _ => .text
  | .donate _ _ => .donate

def planned? (m : Memory) (ts : List Target) : Option Failure :=
  ts.findSome? fun t => m.failures.lookup t

def plan (m : Memory) (t : Target) (failure : Option Failure) : Memory :=
  let others := m.failures.filter (·.1 ≠ t)
  { m with failures := (failure.map fun f => (t, f)).toList ++ others }

def planAll (m : Memory) (ts : List Target) (failure : Option Failure) : Memory :=
  ts.foldl (fun m t => m.plan t failure) m

/-- What the host says to a request that it does not refuse, and what becomes of it. -/
def serve : (r : Request) → Memory → r.Answer × Memory
  | .get key, m => (m.items.lookup key, m)
  | .set key value, m => ((), { m with items := Keyed.insert key value m.items })
  | .remove key, m => ((), { m with items := Keyed.erase key m.items })
  | .activeTab, m => (m.tab, m)
  | .rewardsEnabled, m => (m.enabled, m)

def answer (r : Request) (m : Memory) : r.Outcome × Memory :=
  match m.planned? (targets r) with
  | some f => (.error f, m)
  | none => (.ok (serve r m).1, (serve r m).2)

def take : Notice → Memory → Memory
  | .color c, m => { m with color := some c }
  | .icons i, m => { m with icons := some i }
  | .text t, m => { m with shown := some t }
  | .donate tab tip, m => { m with donations := m.donations ++ [(tab, tip)] }

instance : Notified Memory where
  notify n m :=
    match m.planned? [noticeTarget n] with
    | some f => (.error f, m)
    | none => (.ok (), take n m)

end Memory

/-- What can be out of order as a whole. -/
inductive Part where
  | reads | writes | tabs | rewards
  deriving DecidableEq, Repr

namespace Part

def targets : Part → List Target
  | reads => [.get none]
  | writes => [.set none, .remove none]
  | tabs => [.activeTab]
  | rewards => [.rewardsEnabled]

def failure : Part → Failure
  | reads => ⟨"storage read failed", []⟩
  | writes => ⟨"storage write failed", []⟩
  | tabs => ⟨"tabs.query failed", []⟩
  | rewards => ⟨"getRewardsMainEnabled failed", []⟩

end Part

/-- What others do to the host. -/
inductive Change where
  | set (key value : String)
  | unset (key : String)
  | tab (tab : Option Tab)
  | enabled (b : Bool)
  | plan (targets : List Target) (failure : Option Failure)
  | outOfOrder (part : Part) (b : Bool)
  deriving DecidableEq, Repr

def Change.apply (m : Memory) : Change → Memory
  | set key value => { m with items := Keyed.insert key value m.items }
  | unset key => { m with items := Keyed.erase key m.items }
  | tab t => { m with tab := t }
  | enabled b => { m with enabled := b }
  | plan ts failure => m.planAll ts failure
  | outOfOrder part b => m.planAll part.targets (if b then some part.failure else none)

/-- All that can happen to a session, one step at a time. -/
inductive Event where
  | setUp
  | hold (op : Operation)
  | receive (message : Message) (records : List LogRecord)
  | start (flight : Nat)
  | resume (flight : Nat)
  | drop (flight : Nat)
  | restart
  | outside (c : Change)
  deriving DecidableEq, Repr

/-- What can happen while several controllers are alive on one host: an event, or an operation of
any of the controllers. -/
inductive Impulse where
  | event (e : Event)
  | call (controller : Nat) (op : Operation)
  deriving DecidableEq, Repr

namespace Session

def step (s : Session Memory) : Event → Session Memory
  | .setUp => s.setUp
  | .hold op => s.hold op
  | .receive message records => s.receive message records
  | .start id => s.start id
  | .resume id => s.resume Memory.answer id
  | .drop id => s.remove id
  | .restart => s.restart
  | .outside c => { s with host := c.apply s.host }

def run (s : Session Memory) (events : List Event) : Session Memory := events.foldl step s

@[simp] theorem run_nil (s : Session Memory) : s.run [] = s := rfl

@[simp] theorem run_cons (s : Session Memory) (e : Event) (es : List Event) :
    s.run (e :: es) = (s.step e).run es := rfl

theorem run_append (s : Session Memory) (es es' : List Event) :
    s.run (es ++ es') = (s.run es).run es' := by
  simp [run, List.foldl_append]

/-- An operation of any of the controllers, be it the current one or not. -/
def call (s : Session Memory) (controller : Nat) (op : Operation) : Session Memory :=
  let flights := s.flights ++ [⟨s.opened, controller, .held op⟩]
  { s with flights, opened := s.opened + 1 }.note (.opened s.opened op)

def undergo (s : Session Memory) : Impulse → Session Memory
  | .event e => s.step e
  | .call c op => s.call c op

end Session

end Tipping.Notification
