import Tipping.Notification.Operation

/-!
Controllers and their operations in flight, on one host.

A flight is held until it is started, and from then on waits at a stage until its request is
answered or it is dropped; flights interleave in any order. A session may have had several
controllers; each flight belongs to one of them and acts on its state. The trace holds all
that happened, in order.
-/

namespace Tipping.Notification

inductive Progress where
  | held (op : Operation)
  | waiting (stage : Stage)
  deriving DecidableEq, Repr

structure Flight where
  id : Nat
  controller : Nat
  progress : Progress
  deriving DecidableEq, Repr

/-- A notice is given by a flight, or by none when a controller is set up. -/
inductive Happening where
  | opened (flight : Nat) (op : Operation)
  | begun (flight : Nat) (request : Request)
  | answered (flight : Nat) (request : Request) (outcome : request.Outcome)
  | notified (flight : Option Nat) (notice : Notice) (outcome : Except Failure Unit)
  | became (controller : Nat) (state : State)
  | logged (record : LogRecord)
  | finished (flight : Nat) (reply : Option RewardsReply)

/-- The states are those of all controllers so far, the current one last. Flights are in the
order in which they were opened, and `opened` is their number so far. -/
structure Session (η : Type) where
  config : Config
  host : η
  states : List State
  flights : List Flight
  opened : Nat
  trace : List Happening

namespace Session

variable {η : Type}

/-- One controller that has done nothing yet. -/
def new (config : Config) (host : η) : Session η := ⟨config, host, [.acknowledged], [], 0, []⟩

def current (s : Session η) : Nat := s.states.length - 1

def state (s : Session η) : State := s.states.getLast?.getD .acknowledged

def badgeText (s : Session η) : String := s.state.badgeText s.config

def flight? (s : Session η) (id : Nat) : Option Flight := s.flights.find? (·.id = id)

def note (s : Session η) (h : Happening) : Session η := { s with trace := s.trace ++ [h] }

def log (s : Session η) (rs : List LogRecord) : Session η :=
  { s with trace := s.trace ++ rs.map .logged }

def remove (s : Session η) (id : Nat) : Session η :=
  { s with flights := s.flights.filter (·.id ≠ id) }

def move (s : Session η) (id : Nat) (stage : Stage) : Session η :=
  { s with flights := s.flights.map fun f =>
      if f.id = id then { f with progress := .waiting stage } else f }

/-- A new controller on the same host; it knows nothing of what the others did. -/
def restart (s : Session η) : Session η := { s with states := s.states ++ [.acknowledged] }

/-- A flight that is held until it is started. -/
def hold (s : Session η) (op : Operation) : Session η :=
  let flights := s.flights ++ [⟨s.opened, s.current, .held op⟩]
  { s with flights, opened := s.opened + 1 }.note (.opened s.opened op)

/-- A message is logged when it arrives; its work, if it has any, is held. -/
def receive (s : Session η) (message : Message) (records : List LogRecord) : Session η :=
  let s := s.log (records ++ message.remarks)
  match message.operation? with
  | some op => s.hold op
  | none => s

variable [Notified η]

def perform (flight : Option Nat) (controller : Nat) (s : Session η) : Action → Session η
  | .log r => s.note (.logged r)
  | .become state =>
    { s with states := s.states.set controller state }.note (.became controller state)
  | .notify n =>
    let (outcome, host) := Notified.notify n s.host
    let s := { s with host }.note (.notified flight n outcome)
    match outcome with
    | .ok () => s
    | .error f => s.note (.logged (complaint (purpose n) f))

def performAll (s : Session η) (flight : Option Nat) (controller : Nat) (actions : List Action) :
    Session η :=
  actions.foldl (perform flight controller) s

/-- Does what a stretch asks for on behalf of a flight. -/
def follow (s : Session η) (f : Flight) (stretch : Stretch) : Session η :=
  let s := s.performAll (some f.id) f.controller stretch.actions
  match stretch.next with
  | .finished reply => (s.remove f.id).note (.finished f.id reply)
  | .awaiting stage => (s.move f.id stage).note (.begun f.id stage.request)

def setUp (s : Session η) : Session η :=
  s.performAll none s.current (Notification.setUp s.config)

/-- Starts a flight that is held. -/
def start (s : Session η) (id : Nat) : Session η :=
  match s.flight? id with
  | some f =>
    match f.progress with
    | .held op => s.follow f op.start
    | .waiting _ => s
  | none => s

/-- Goes on with a flight whose request has an outcome. -/
def settle (s : Session η) (f : Flight) (stage : Stage) (outcome : stage.request.Outcome) :
    Session η :=
  (s.note (.answered f.id stage.request outcome)).follow f (stage.resume s.config outcome)

/-- Goes on with a flight that waits, once its request has the outcome that `answer` gives. -/
def resume (answer : (r : Request) → η → r.Outcome × η) (s : Session η) (id : Nat) : Session η :=
  match s.flight? id with
  | some f =>
    match f.progress with
    | .held _ => s
    | .waiting stage =>
      let (outcome, host) := answer stage.request s.host
      { s with host }.settle f stage outcome
  | none => s

end Session

end Tipping.Notification
