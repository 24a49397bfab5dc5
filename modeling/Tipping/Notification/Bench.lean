import Tipping.Notification.Memory

/-!
A session on a host in memory, worked one step at a time.

Normally an operation runs to its end in the step that starts it. In manual mode each request is
parked when it is out, until a step completes it; those already parked stay so when the mode is
left.
-/

namespace Tipping.Notification

structure Bench where
  session : Session Memory
  manual : Bool
  parked : List Nat

inductive BenchStep where
  | setUp
  | operate (op : Operation) (started : Bool)
  | receive (message : Message) (records : List LogRecord) (started : Bool)
  | start (flight : Nat)
  | drop (flight : Nat)
  | complete (index : Nat)
  | manual (on : Bool)
  | restart
  | outside (c : Change)

/-- What a step has to say: the flight it opened, whether the flight it named was there, the
request it completed. -/
structure BenchReply where
  opened : Option Nat
  found : Option Bool
  completed : Option Request

namespace Bench

def new (session : Session Memory) : Bench := ⟨session, false, []⟩

def waiting? (b : Bench) (id : Nat) : Option Stage :=
  match (b.session.flight? id).map Flight.progress with
  | some (.waiting stage) => some stage
  | _ => none

def isHeld (b : Bench) (id : Nat) : Bool :=
  match (b.session.flight? id).map Flight.progress with
  | some (.held _) => true
  | _ => false

def after (b : Bench) (e : Event) : Bench := { b with session := b.session.step e }

/-- Goes on with a flight for as long as its requests are answered at once. -/
def pursue (id : Nat) : Nat → Bench → Bench
  | 0, b => b
  | answers + 1, b =>
    match b.waiting? id with
    | none => b
    | some _ =>
      if b.manual then { b with parked := b.parked ++ [id] }
      else pursue id answers (b.after (.resume id))

/-- No operation takes more answers than this. -/
def mostAnswers : Nat := 3

def start (b : Bench) (id : Nat) : Bench := (b.after (.start id)).pursue id mostAnswers

/-- Starts the flights that the last event opened, if they are to be started. -/
def startNew (b : Bench) (before : Nat) (started : Bool) : Bench × BenchReply :=
  if before < b.session.opened then
    (if started then b.start before else b, ⟨some before, none, none⟩)
  else (b, ⟨none, none, none⟩)

def step (b : Bench) : BenchStep → Bench × BenchReply
  | .setUp => (b.after .setUp, ⟨none, none, none⟩)
  | .operate op started => (b.after (.hold op)).startNew b.session.opened started
  | .receive message records started =>
    (b.after (.receive message records)).startNew b.session.opened started
  | .start id =>
    if b.isHeld id then (b.start id, ⟨none, some true, none⟩) else (b, ⟨none, some false, none⟩)
  | .drop id =>
    let found := (b.session.flight? id).isSome
    ({ b.after (.drop id) with parked := b.parked.filter (· ≠ id) }, ⟨none, some found, none⟩)
  | .complete index =>
    match b.parked[index]? with
    | none => (b, ⟨none, none, none⟩)
    | some id =>
      let b' := { b with parked := b.parked.eraseIdx index }
      ((b'.after (.resume id)).pursue id mostAnswers,
        ⟨none, none, (b.waiting? id).map Stage.request⟩)
  | .manual on => ({ b with manual := on }, ⟨none, none, none⟩)
  | .restart => (b.after .restart, ⟨none, none, none⟩)
  | .outside c => (b.after (.outside c), ⟨none, none, none⟩)

end Bench

/-! ### Counts over a trace -/

def Happening.isWrite : Happening → Bool
  | .answered _ (.set _ _) (.ok _) => true
  | .answered _ (.remove _) (.ok _) => true
  | _ => false

def Happening.isTextUpdate : Happening → Bool
  | .notified _ (.text _) _ => true
  | _ => false

def Happening.isRewardsQuery : Happening → Bool
  | .begun _ .rewardsEnabled => true
  | _ => false

end Tipping.Notification
