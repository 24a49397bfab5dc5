import Tipping.Proofs.Notification.Turn

/-!
Two sessions abreast, each on a host of its own.

What a controller does next hangs on the outcome of a request alone: a refused notice leaves a
record and nothing else. So two sessions stay abreast, call by call and state by state, for as
long as the answers to their requests lead to the same deeds.
-/

namespace Tipping.Notification

/-- What happened, but for the records and for how the calls went. -/
inductive Mark where
  | opened (flight : Nat) (op : Operation)
  | begun (flight : Nat) (request : Request)
  | answered (flight : Nat) (request : Request)
  | notified (flight : Option Nat) (notice : Notice)
  | became (controller : Nat) (state : State)
  | finished (flight : Nat) (reply : Option RewardsReply)
  deriving DecidableEq, Repr

def Happening.mark? : Happening → Option Mark
  | .opened flight op => some (.opened flight op)
  | .begun flight r => some (.begun flight r)
  | .answered flight r _ => some (.answered flight r)
  | .notified flight n _ => some (.notified flight n)
  | .became c σ => some (.became c σ)
  | .logged _ => none
  | .finished flight reply => some (.finished flight reply)

/-- The action does more than leave a record. -/
def Action.isDeed : Action → Bool
  | .log _ => false
  | _ => true

/-- A stretch without its records. -/
def Stretch.deeds (t : Stretch) : Stretch := { t with actions := t.actions.filter Action.isDeed }

/-- A refusal says more in a record only. -/
lemma deeds_resume_refused (config : Config) (stage : Stage) (f f' : Failure) :
    (stage.resume config (.error f)).deeds = (stage.resume config (.error f')).deeds := by
  cases stage <;> simp [Stage.resume, Stretch.deeds, finish, await, complain, Action.isDeed]

/-- It is all one to a flight whether the panel flag was stored. -/
lemma deeds_resume_panel {config : Config} {stage : Stage} {value : String}
    (h : stage.request = .set panelOpenKey value) (o o' : stage.request.Outcome) :
    (stage.resume config o).deeds = (stage.resume config o').deeds := by
  cases stage with
  | openingPanel =>
    have hgo (o : Stage.openingPanel.request.Outcome) :
        (Stage.openingPanel.resume config o).deeds = await [] .readingFlagAtConnect := by
      cases o <;> rfl
    rw [hgo, hgo]
  | closingPanel =>
    have hgo (o : Stage.closingPanel.request.Outcome) :
        (Stage.closingPanel.resume config o).deeds = finish [] := by
      cases o <;> rfl
    rw [hgo, hgo]
  | storingFlag =>
    have hkey : dismissedKey = panelOpenKey := (Request.set.inj h).1
    exact absurd hkey (by decide)
  | _ => cases h

namespace Session

variable {η η' η'' : Type}

/-- All that happened so far, but for records and outcomes. -/
def marks (s : Session η) : List Mark := s.trace.filterMap Happening.mark?

/-- The sessions are at the same point, and have come there by the same calls. -/
structure Abreast (s : Session η) (s' : Session η') : Prop where
  config : s.config = s'.config
  states : s.states = s'.states
  flights : s.flights = s'.flights
  opened : s.opened = s'.opened
  marks : s.marks = s'.marks

namespace Abreast

lemma refl (s : Session η) : Abreast s s := ⟨rfl, rfl, rfl, rfl, rfl⟩

lemma symm {s : Session η} {s' : Session η'} (h : Abreast s s') : Abreast s' s :=
  ⟨h.config.symm, h.states.symm, h.flights.symm, h.opened.symm, h.marks.symm⟩

lemma trans {s : Session η} {s' : Session η'} {s'' : Session η''} (h : Abreast s s')
    (h' : Abreast s' s'') : Abreast s s'' :=
  ⟨h.config.trans h'.config, h.states.trans h'.states, h.flights.trans h'.flights,
    h.opened.trans h'.opened, h.marks.trans h'.marks⟩

variable {s : Session η} {s' : Session η'}

lemma flight? (h : Abreast s s') (id : Nat) : s.flight? id = s'.flight? id := by
  rw [Session.flight?, Session.flight?, h.flights]

lemma state (h : Abreast s s') : s.state = s'.state := by
  rw [Session.state, Session.state, h.states]

/-- Happenings with the same mark, on both sides. -/
lemma note (h : Abreast s s') (e e' : Happening) (he : e.mark? = e'.mark?) :
    Abreast (s.note e) (s'.note e') := by
  refine ⟨h.config, h.states, h.flights, h.opened, ?_⟩
  have hmarks := h.marks
  simp only [Session.marks] at hmarks
  simp [Session.marks, Session.note, hmarks, List.filterMap_cons, he]

lemma log (h : Abreast s s') (rs rs' : List LogRecord) : Abreast (s.log rs) (s'.log rs') := by
  have hnone (rs : List LogRecord) :
      (rs.map Happening.logged).filterMap Happening.mark? = [] := by
    simp [List.filterMap_map, Happening.mark?]
  have hmarks := h.marks
  simp only [Session.marks] at hmarks
  exact ⟨h.config, h.states, h.flights, h.opened, by
    simp [Session.marks, Session.log, hnone, hmarks]⟩

/-- Records on one side alone do not matter. -/
lemma log_left (h : Abreast s s') (rs : List LogRecord) : Abreast (s.log rs) s' := by
  have hlog := h.log rs []
  simpa [Session.log] using hlog

lemma remove (h : Abreast s s') (id : Nat) : Abreast (s.remove id) (s'.remove id) :=
  ⟨h.config, h.states, congrArg (List.filter _) h.flights, h.opened, h.marks⟩

lemma move (h : Abreast s s') (id : Nat) (stage : Stage) :
    Abreast (s.move id stage) (s'.move id stage) :=
  ⟨h.config, h.states, congrArg (List.map _) h.flights, h.opened, h.marks⟩

lemma restart (h : Abreast s s') : Abreast s.restart s'.restart :=
  ⟨h.config, congrArg (· ++ [State.acknowledged]) h.states, h.flights, h.opened, h.marks⟩

lemma current (h : Abreast s s') : s.current = s'.current := by
  rw [Session.current, Session.current, h.states]

lemma hold (h : Abreast s s') (op : Operation) : Abreast (s.hold op) (s'.hold op) := by
  have hflights : s.flights ++ [⟨s.opened, s.current, .held op⟩] =
      s'.flights ++ [⟨s'.opened, s'.current, .held op⟩] := by
    rw [h.flights, h.opened, h.current]
  have hheld : Abreast
      { s with flights := s.flights ++ [⟨s.opened, s.current, .held op⟩], opened := s.opened + 1 }
      { s' with
        flights := s'.flights ++ [⟨s'.opened, s'.current, .held op⟩]
        opened := s'.opened + 1 } :=
    ⟨h.config, h.states, hflights, congrArg (· + 1) h.opened, h.marks⟩
  exact hheld.note (.opened s.opened op) (.opened s'.opened op) (by rw [h.opened])

lemma receive (h : Abreast s s') (message : Message) (rs rs' : List LogRecord) :
    Abreast (s.receive message rs) (s'.receive message rs') := by
  have hlog := h.log (rs ++ message.remarks) (rs' ++ message.remarks)
  simp only [Session.receive]
  split
  · exact hlog.hold _
  · exact hlog

/-- A host may come to be any other. -/
lemma host (h : Abreast s s') (m : η) (m' : η') :
    Abreast { s with host := m } { s' with host := m' } :=
  ⟨h.config, h.states, h.flights, h.opened, h.marks⟩

variable [Notified η] [Notified η']

lemma perform (h : Abreast s s') (flight : Option Nat) (c : Nat) (a : Action) :
    Abreast (perform flight c s a) (perform flight c s' a) := by
  cases a with
  | log r => exact h.note _ _ rfl
  | become σ =>
    have hbecome : Abreast { s with states := s.states.set c σ }
        { s' with states := s'.states.set c σ } :=
      ⟨h.config, congrArg (List.set · c σ) h.states, h.flights, h.opened, h.marks⟩
    exact hbecome.note _ _ rfl
  | notify n =>
    obtain ⟨rs, hs⟩ := perform_notify flight c s n
    obtain ⟨rs', hs'⟩ := perform_notify flight c s' n
    have hhost := h.host (Notified.notify n s.host).2 (Notified.notify n s'.host).2
    have hnoted := hhost.note (.notified flight n (Notified.notify n s.host).1)
      (.notified flight n (Notified.notify n s'.host).1) rfl
    have hlogged := hnoted.log rs rs'
    rw [hs, hs']
    simpa [Session.note, Session.log] using hlogged

omit [Notified η'] in
lemma perform_log (h : Abreast s s') (flight : Option Nat) (c : Nat) (r : LogRecord) :
    Abreast (Session.perform flight c s (.log r)) s' := by
  have hlog := h.log [r] []
  simpa [Session.perform, Session.note, Session.log] using hlog

/-- The records among the actions do not matter. -/
lemma performAll_deeds (h : Abreast s s') (flight : Option Nat) (c : Nat) (as : List Action) :
    Abreast (s.performAll flight c as) (s'.performAll flight c (as.filter Action.isDeed)) := by
  induction as generalizing s s' with
  | nil => exact h
  | cons a as ih =>
    cases a with
    | log r => exact ih (h.perform_log flight c r)
    | become σ => exact ih (h.perform flight c (.become σ))
    | notify n => exact ih (h.perform flight c (.notify n))

lemma performAll (h : Abreast s s') (flight : Option Nat) (c : Nat) {as as' : List Action}
    (has : as.filter Action.isDeed = as'.filter Action.isDeed) :
    Abreast (s.performAll flight c as) (s'.performAll flight c as') := by
  have hleft := h.performAll_deeds flight c as
  have hright := (refl s').performAll_deeds flight c as'
  rw [has] at hleft
  exact hleft.trans hright.symm

lemma follow (h : Abreast s s') (f : Flight) {t t' : Stretch} (ht : t.deeds = t'.deeds) :
    Abreast (s.follow f t) (s'.follow f t') := by
  obtain ⟨as, next⟩ := t
  obtain ⟨as', next'⟩ := t'
  obtain ⟨has, rfl⟩ := Stretch.mk.inj ht
  have hdone := h.performAll (some f.id) f.controller has
  cases next with
  | finished reply => exact (hdone.remove f.id).note _ _ rfl
  | awaiting stage => exact (hdone.move f.id stage).note _ _ rfl

lemma setUp (h : Abreast s s') : Abreast s.setUp s'.setUp := by
  rw [Session.setUp, Session.setUp, h.config, h.current]
  exact h.performAll _ _ rfl

lemma start (h : Abreast s s') (id : Nat) : Abreast (s.start id) (s'.start id) := by
  simp only [Session.start, h.flight? id]
  split
  · split
    · exact h.follow _ rfl
    · exact h
  · exact h

lemma settle (h : Abreast s s') (f : Flight) {stage : Stage} {o o' : stage.request.Outcome}
    (ho : (stage.resume s'.config o).deeds = (stage.resume s'.config o').deeds) :
    Abreast (s.settle f stage o) (s'.settle f stage o') := by
  have hnoted : Abreast (s.note (.answered f.id stage.request o))
      (s'.note (.answered f.id stage.request o')) := h.note _ _ rfl
  rw [Session.settle, Session.settle, h.config]
  exact hnoted.follow f ho

end Abreast

end Session

end Tipping.Notification
