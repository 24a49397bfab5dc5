import Tipping.Host
import Tipping.Payments.State

/-!
Debounced saves of the payments state.

A saver keeps the state saved last until it is written. Each save starts a job that sleeps for
the saver's window and then writes what is pending, unless the saver's generation has moved on:
a later save or a flush makes it do nothing. Any number of savers work on one store and one
clock, and their jobs are polled in any order.
-/

namespace Tipping.Payments

/-- The item that holds the state. -/
def itemKey : String := "payments-data"

/-- Stores of text items that answer at once. -/
class ItemStore (σ : Type) where
  getItem : String → σ → Except Failure (Option String) × σ
  setItem : String → String → σ → Except Failure Unit × σ

/-- How a job sleeps: not at all, or by the clock, and then perhaps no longer than a limit. A
sleep beyond the limit breaks its job off. -/
inductive Timer where
  | immediate
  | clock (longest : Option Nat)
  deriving DecidableEq, Repr

/-- A generation is counted in 64 bits. It is taken to stay below `2^64`, where the count would
start again from zero. -/
structure Saver where
  window : Nat
  generation : Nat
  pending : Option State
  deriving DecidableEq, Repr

inductive JobStage where
  | held
  | due
  | sleeping (wakeAt : Nat)
  deriving DecidableEq, Repr

/-- The generation is the saver's when the job was made, in the same count. -/
structure Job where
  id : Nat
  saver : Nat
  generation : Nat
  stage : JobStage
  deriving DecidableEq, Repr

/-- An attempt to write, by a job or, without one, by a flush. -/
structure Write where
  saver : Nat
  job : Option Nat
  time : Nat
  key : String
  text : String
  outcome : Except Failure Unit

inductive Happening where
  | saved (saver job time : Nat) (state : State)
  | flushed (saver time : Nat)
  | got (outcome : Except Failure (Option String))
  | wrote (w : Write)
  | slept (job window : Nat)
  | logged (record : LogRecord)
  | finished (job : Nat)
  | brokeOff (job : Nat)

/-- Jobs are in the order in which they were made, and `made` is their number so far. Times are
in milliseconds. -/
structure Desk (σ : Type) where
  store : σ
  timer : Timer
  savers : List Saver
  jobs : List Job
  made : Nat
  clock : Nat
  trace : List Happening

/-- All that can happen to a desk on any store. -/
inductive Act (σ : Type) where
  | join (window : Nat)
  | save (saver : Nat) (state : State)
  | release (job : Nat)
  | poll (job : Nat)
  | drop (job : Nat)
  | flush (saver : Nat)
  | load
  | advance (ms : Nat)
  | outside (f : σ → σ)
  | log (record : LogRecord)

namespace Desk

variable {σ : Type}

def new (store : σ) (timer : Timer) (windows : List Nat) : Desk σ :=
  ⟨store, timer, windows.map (⟨·, 0, none⟩), [], 0, 0, []⟩

/-- Another saver on the same store and clock. -/
def addSaver (d : Desk σ) (window : Nat) : Desk σ :=
  { d with savers := d.savers ++ [⟨window, 0, none⟩] }

def note (d : Desk σ) (h : Happening) : Desk σ := { d with trace := d.trace ++ [h] }

def job? (d : Desk σ) (id : Nat) : Option Job := d.jobs.find? (·.id = id)

def remove (d : Desk σ) (id : Nat) : Desk σ := { d with jobs := d.jobs.filter (·.id ≠ id) }

def move (d : Desk σ) (id : Nat) (stage : JobStage) : Desk σ :=
  { d with jobs := d.jobs.map fun j => if j.id = id then { j with stage } else j }

def setSaver (d : Desk σ) (i : Nat) (s : Saver) : Desk σ := { d with savers := d.savers.set i s }

def advance (d : Desk σ) (ms : Nat) : Desk σ := { d with clock := d.clock + ms }

/-- The state becomes what its saver has pending, and a job is made for it. -/
def save (d : Desk σ) (i : Nat) (state : State) : Desk σ :=
  match d.savers[i]? with
  | none => d
  | some s =>
    let generation := s.generation + 1
    let jobs := d.jobs ++ [⟨d.made, i, generation, .held⟩]
    let d' := d.setSaver i { s with generation, pending := some state }
    { d' with jobs, made := d.made + 1 }.note (.saved i d.made d.clock state)

/-- A job that is held is polled from now on. -/
def release (d : Desk σ) (id : Nat) : Desk σ :=
  match d.job? id with
  | some j => if j.stage = .held then d.move id .due else d
  | none => d

variable [ItemStore σ]

/-- Hands a state of a saver to the store, whether or not the store takes it. -/
def attempt (d : Desk σ) (i : Nat) (s : Saver) (job : Option Nat) (state : State) : Desk σ :=
  let text := State.codec.text state.clean
  let (outcome, store) := ItemStore.setItem itemKey text d.store
  let d := { d.setSaver i { s with pending := none } with store }
  let d := d.note (.wrote ⟨i, job, d.clock, itemKey, text, outcome⟩)
  match outcome with
  | .ok () => d
  | .error f => d.note (.logged ⟨.warn, "Could not write local storage: " ++ f.text⟩)

/-- Writes what is pending. -/
def writePending (d : Desk σ) (i : Nat) (job : Option Nat) : Desk σ :=
  match d.savers[i]? with
  | none => d
  | some s =>
    match s.pending with
    | none => d
    | some state => d.attempt i s job state

/-- Writes what is pending at once; the jobs made before have nothing left to do. -/
def flush (d : Desk σ) (i : Nat) : Desk σ :=
  match d.savers[i]? with
  | none => d
  | some s =>
    let d := d.setSaver i { s with generation := s.generation + 1 }
    (d.note (.flushed i d.clock)).writePending i none

/-- The sleep of a job is over. -/
def wake (d : Desk σ) (j : Job) : Desk σ :=
  let current := (d.savers[j.saver]?.map Saver.generation) = some j.generation
  let d := if current then d.writePending j.saver (some j.id) else d
  (d.remove j.id).note (.finished j.id)

def fallAsleep (d : Desk σ) (j : Job) : Desk σ :=
  let window := (d.savers[j.saver]?.map Saver.window).getD 0
  let d := d.note (.slept j.id window)
  match d.timer with
  | .immediate => d.wake j
  | .clock longest =>
    if longest.any (· < window) then (d.remove j.id).note (.brokeOff j.id)
    else if window = 0 then d.wake j
    else d.move j.id (.sleeping (d.clock + window))

def poll (d : Desk σ) (id : Nat) : Desk σ :=
  match d.job? id with
  | none => d
  | some j =>
    match j.stage with
    | .held => d
    | .due => d.fallAsleep j
    | .sleeping wakeAt => if wakeAt ≤ d.clock then d.wake j else d

/-- Polls every job once, in the order in which they were made. -/
def pollAll (d : Desk σ) : Desk σ := (d.jobs.map Job.id).foldl poll d

/-- The stored state, cleaned; the initial one if there is none that can be read. -/
def load (d : Desk σ) : State × Desk σ :=
  let (outcome, store) := ItemStore.getItem itemKey d.store
  let d := { d with store }.note (.got outcome)
  match outcome with
  | .error f =>
    (.initial, d.note (.logged ⟨.warn, "Could not read local storage: " ++ f.text⟩))
  | .ok none => (.initial, d)
  | .ok (some text) =>
    match State.codec.readText text with
    | .ok state => (state.clean, d)
    | .error fault =>
      (.initial,
        d.note (.logged ⟨.error, "Could not parse local storage data: " ++ fault.message⟩))

def act (d : Desk σ) : Act σ → Desk σ
  | .join window => d.addSaver window
  | .save i state => d.save i state
  | .release id => d.release id
  | .poll id => d.poll id
  | .drop id => d.remove id
  | .flush i => d.flush i
  | .load => d.load.2
  | .advance ms => d.advance ms
  | .outside f => { d with store := f d.store }
  | .log r => d.note (.logged r)

def acts (d : Desk σ) (as : List (Act σ)) : Desk σ := as.foldl act d

theorem acts_append (d : Desk σ) (as as' : List (Act σ)) :
    d.acts (as ++ as') = (d.acts as).acts as' := by
  simp [acts, List.foldl_append]

end Desk

end Tipping.Payments
