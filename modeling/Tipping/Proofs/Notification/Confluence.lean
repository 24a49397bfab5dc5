import Tipping.Proofs.Notification.Ending
import Tipping.Proofs.Notification.Storage

/-!
Overlapping connections come to the same.

Several connections can read the flag as pending before any of them has removed it. Each of them
dismisses again and removes what may be gone already, which changes nothing any more. So a run is
in one of two phases: before the first dismissal all is as it was at the start, and after it only
the removal of the flag may still be out. What was called settles which of them a run ends in.
-/

namespace Tipping.Notification

/-- An operation is called. -/
def Event.isCall : Event → Bool
  | .hold _ => true
  | .receive _ _ => true
  | _ => false

/-- A panel connects or disconnects or a message comes, a flight goes on, or the host will say
something else of the tab or the rewards. -/
def Event.isVisit : Event → Bool
  | .hold .connect => true
  | .hold .disconnect => true
  | .receive _ _ => true
  | .start _ => true
  | .resume _ => true
  | .outside (.tab _) => true
  | .outside (.enabled _) => true
  | _ => false

lemma Event.isOwn_of_isVisit {e : Event} (h : e.isVisit) : e.isOwn := by
  cases e with
  | outside c => cases c <;> first | rfl | cases h
  | restart => cases h
  | _ => rfl

lemma Event.ne_drop_of_isVisit {e : Event} (h : e.isVisit) (id : Nat) : e ≠ .drop id := by
  rintro rfl
  cases h

/-- The operation neither installs nor starts up. -/
def Operation.isVisit : Operation → Bool
  | installed _ => false
  | startup => false
  | _ => true

lemma isVisit_operation {e : Event} (h : e.isVisit) {op : Operation}
    (hop : e.operation? = some op) : op.isVisit := by
  cases e with
  | hold op' => cases hop; cases op <;> first | rfl | cases h
  | receive message rs => cases message <;> cases hop <;> rfl
  | _ => cases hop

/-- The events make these calls and no other, in any order, and have their flights go on. -/
structure Interleaves (calls es : List Event) : Prop where
  calls : (es.filter Event.isCall).Perm calls
  visits : ∀ e ∈ es, e.isVisit

/-- The host takes every text and lets the flag be read and removed. -/
structure Memory.Willing (m : Memory) : Prop where
  texts : m.failures.lookup .text = none
  reads : m.planned? (targets (.get dismissedKey)) = none
  removals : m.planned? (targets (.remove dismissedKey)) = none

lemma Memory.willing_of_failures {m m' : Memory} (h : m'.failures = m.failures)
    (hm : m.Willing) : m'.Willing := by
  have hplanned (ts : List Target) : m'.planned? ts = m.planned? ts := by rw [planned?, h]; rfl
  exact ⟨h ▸ hm.texts, (hplanned _).trans hm.reads, (hplanned _).trans hm.removals⟩

/-- Whoever connects and reads the flag as pending goes on to remove it. -/
lemma next_of_pending {config : Config} {m : Memory} (hm : m.Willing)
    (hflag : m.items.lookup dismissedKey = some no) :
    (Stage.readingFlagAtConnect.resume config
      (Memory.answer Stage.readingFlagAtConnect.request m).1).next = .awaiting .removingFlag := by
  have ha : Memory.answer (.get dismissedKey) m = (.ok (some no), m) := by
    simp [Memory.answer, hm.reads, Memory.serve, hflag]
  simp only [Stage.request, ha]
  rfl

/-- What is left of a session when its flights are over. -/
structure Upshot where
  state : State
  flag : Option String
  shown : Option String
  deriving DecidableEq, Repr

namespace Session

def upshot (s : Session Memory) : Upshot := ⟨s.state, s.flag, s.host.shown⟩

/-- The operation is called and carried to its end. -/
def complete (s : Session Memory) (call : Event) : Session Memory :=
  (s.step call).run (course s.opened)

/-- The operations are called one after another, each when the one before is over. -/
def inTurn (s : Session Memory) (calls : List Event) : Session Memory := calls.foldl complete s

lemma numbered_of_flights {s : Session Memory} (hs : s.flights = []) : s.Numbered :=
  ⟨by simp [ids, hs], by simp [ids, hs]⟩

/-! ### Visits -/

/-- A session of one controller that is only called for visits. -/
structure Visited (s : Session Memory) : Prop where
  numbered : s.Numbered
  started : s.states ≠ []
  willing : s.host.Willing
  manned : ∀ f ∈ s.flights, f.controller = s.current
  visits : ∀ f ∈ s.flights, f.progress.operation.isVisit

variable {s : Session Memory}

lemma current_step {e : Event} (he : e.isOwn) : (s.step e).current = s.current := by
  rw [current, length_states_step he, current]

lemma visited_step {e : Event} (he : e.isVisit) (h : s.Visited) : (s.step e).Visited := by
  have own := Event.isOwn_of_isVisit he
  refine ⟨numbered_step e h.numbered, ?_, ?_, fun f hf => ?_, ?_⟩
  · rw [← List.length_pos_iff, length_states_step own]
    exact List.length_pos_iff.mpr h.started
  · refine Memory.willing_of_failures ?_ h.willing
    cases e with
    | outside c => cases c <;> first | rfl | cases he
    | _ => exact step_failures (by simp)
  · rw [current_step own]
    rcases mem_flights_step hf with hf | ⟨op, -, rfl⟩ | ⟨g, hg, stage, -, -, rfl⟩
    · exact h.manned f hf
    · rfl
    · exact h.manned g hg
  · exact operations_step (P := (·.isVisit)) (fun op => isVisit_operation he) h.visits

/-- What the change of a turn leaves. -/
lemma Visited.upshot_eq (h : s.Visited) {s' : Session Memory} {c : Nat} {σ : Option State}
    (hc : σ ≠ none → c = s.current) {flag text : Option String}
    (hch : Changes s s' c σ flag text) :
    s'.upshot = ⟨σ.getD s.state, flag, text.or s.host.shown⟩ := by
  have hstate : s'.state = σ.getD s.state := by
    rw [state, hch.states]
    cases σ with
    | none => rfl
    | some σ =>
      have hlt : s.states.length - 1 < s.states.length := by
        have := List.length_pos_iff.mpr h.started
        omega
      simp [hc (by simp), List.getLast?_eq_getElem?, current, hlt]
  rw [upshot, hstate, hch.flag, hch.shown h.willing.texts]

/-- A connection is under way. -/
def Connecting (s : Session Memory) : Prop :=
  ∃ f ∈ s.flights, f.progress.operation = .connect

/-- What a visit does to the upshot, and to the removals that are out. -/
inductive Visit (s : Session Memory) (e : Event) : Prop where
  | dismisses (pending : s.flag = some no) (connection : s.Connecting)
      (upshot : (s.step e).upshot = ⟨.dismissed, some no, some ""⟩)
      (out : (s.step e).Dismissing) : Visit s e
  | removes (resumed : s.resumes? e = some .removingFlag)
      (upshot : (s.step e).upshot = ⟨s.state, none, s.host.shown⟩) : Visit s e
  | aside (resumed : s.resumes? e ≠ some .removingFlag) (upshot : (s.step e).upshot = s.upshot)
      (window : (s.step e).Dismissing → s.Dismissing) : Visit s e

/-- **What a visit does.** It dismisses, removes the flag, or leaves all as it is. -/
theorem visit_step {e : Event} (he : e.isVisit) (h : s.Visited) : Visit s e := by
  -- a removal comes out with a dismissal only; in all other cases it was out before
  by_cases hent : s.Enters e .removingFlag
  · obtain ⟨id, f, rfl, hf, hp, hch⟩ := hent.removing
    have hmem := (mem_of_flight? hf).1
    have hpending := hent.pending
    refine .dismisses hpending ⟨f, hmem, by rw [hp]; rfl⟩ ?_ hent.arrives
    rw [h.upshot_eq (fun _ => h.manned f hmem) hch, hpending]
    rfl
  have hwindow := dismissing_of_step hent
  rcases step_cases (Event.isOwn_of_isVisit he) with ⟨id, f, stage, rfl, hf, hp, turn⟩ | ⟨hr, hch⟩
  · have hmem := (mem_of_flight? hf).1
    have hvisit := h.visits f hmem
    have hresumed := resumes?_resume hf hp
    have aside (hstage : stage ≠ .removingFlag)
        (hch : Changes s (s.step (.resume id)) f.controller none s.flag none) :
        Visit s (.resume id) := by
      refine .aside ?_ (h.upshot_eq (fun _ => h.manned f hmem) hch) hwindow
      rw [hresumed]
      exact fun heq => hstage (Option.some.inj heq)
    rw [hp] at hvisit
    cases turn with
    | refused failure hch =>
      refine aside ?_ hch
      rintro rfl
      exact failure h.willing.removals
    | installed _ => cases hvisit
    | recalled _ _ => cases hvisit
    | acknowledged _ _ => cases hvisit
    | dismissed hpending _ =>
      exact absurd (.resume hf hp (next_of_pending h.willing hpending)) hent
    | declined _ hch => exact aside (by simp) hch
    | removed hch => exact .removes hresumed (h.upshot_eq (fun _ => h.manned f hmem) hch)
    | aside hstage hch =>
      refine aside ?_ hch
      rcases hstage with rfl | rfl | ⟨tip, rfl⟩ | rfl <;> simp
  · exact .aside (by simp [hr]) (h.upshot_eq (absurd rfl) hch) hwindow

/-! ### Phases -/

/-- No connection has dismissed yet: all is as it was, and if there is something to dismiss, a
connection that was called is still under way. -/
structure Undismissed (start : Upshot) (s : Session Memory) (connected : Prop) : Prop where
  upshot : s.upshot = start
  idle : ¬ s.Dismissing
  called : s.Connecting → connected
  expected : start.flag = some no → connected → s.Connecting

/-- A connection has dismissed: the flag is gone, or its removal is out. -/
structure Dismissed (start : Upshot) (s : Session Memory) (connected : Prop) : Prop where
  pending : start.flag = some no
  connected : connected
  upshot : s.upshot = ⟨.dismissed, none, some ""⟩ ∨
    s.upshot = ⟨.dismissed, some no, some ""⟩ ∧ s.Dismissing

lemma eq_connect {e : Event} (h : e.operation? = some .connect) : e = .hold .connect := by
  cases e with
  | hold op => cases h; rfl
  | receive message rs => cases message <;> cases h
  | _ => cases h

lemma dismissing_of_resumes {e : Event} (h : s.resumes? e = some .removingFlag) :
    s.Dismissing := by
  obtain ⟨id, -, hstage⟩ := Option.bind_eq_some_iff.mp h
  obtain ⟨f, hf, hp⟩ := stage?_eq_some hstage
  exact ⟨f, (mem_of_flight? hf).1, hp⟩

/-- A removal stays out until it is answered. -/
lemma dismissing_step {e : Event} (he : e.isVisit) (hs : s.Numbered)
    (hr : s.resumes? e ≠ some .removingFlag) (h : s.Dismissing) : (s.step e).Dismissing := by
  obtain ⟨f, hf, hp⟩ := h
  have hfound := hs.flight?_of_mem hf
  rcases flight?_step hfound (Event.ne_drop_of_isVisit he f.id) with ⟨t, ht⟩ | hsame
  · cases ht with
    | start held => cases hp.symm.trans held
    | resume _ => exact absurd (resumes?_resume hfound hp) hr
  · exact ⟨f, (mem_of_flight? hsame).1, hp⟩

/-- A connection does not end before it has dismissed, if there is something to dismiss. -/
lemma connecting_step {e : Event} (he : e.isVisit) (hs : s.Visited) (hflag : s.flag = some no)
    (hidle : ¬ s.Dismissing) (h : s.Connecting) : (s.step e).Connecting := by
  obtain ⟨f, hf, hop⟩ := h
  have hfound := hs.numbered.flight?_of_mem hf
  rcases flight?_step hfound (Event.ne_drop_of_isVisit he f.id) with ⟨t, ht⟩ | hsame
  · cases hn : t.next with
    | awaiting stage => exact ⟨_, ht.mem_flights hfound hn, (ht.operation hn).trans hop⟩
    | finished reply =>
      -- what ends a connection is a removal, or a flag that is not pending
      cases ht with
      | start held =>
        rw [held] at hop
        cases hop
        cases hn
      | @resume stage waiting =>
        rw [waiting] at hop
        cases stage with
        | openingPanel => simp only [Stage.resume] at hn; split at hn <;> cases hn
        | readingFlagAtConnect => cases hn.symm.trans (next_of_pending hs.willing hflag)
        | removingFlag => exact absurd ⟨f, hf, waiting⟩ hidle
        | _ => cases hop
  · exact ⟨f, (mem_of_flight? hsame).1, hop⟩

lemma connecting_call (hs : s.Numbered) : (s.step (.hold .connect)).Connecting :=
  ⟨_, (mem_of_flight? (flight?_opened hs (e := .hold .connect) rfl)).1, rfl⟩

lemma Undismissed.step {start : Upshot} {connected : Prop} {e : Event} (he : e.isVisit)
    (hs : s.Visited) (h : Undismissed start s connected) :
    Undismissed start (s.step e) (connected ∨ e = .hold .connect) ∨
      Dismissed start (s.step e) (connected ∨ e = .hold .connect) := by
  have hflag : s.flag = start.flag := congrArg Upshot.flag h.upshot
  cases visit_step he hs with
  | dismisses pending connection upshot out =>
    exact .inr ⟨hflag.symm.trans pending, .inl (h.called connection), .inr ⟨upshot, out⟩⟩
  | removes resumed _ => exact absurd (dismissing_of_resumes resumed) h.idle
  | aside _ upshot window =>
    refine .inl ⟨upshot.trans h.upshot, mt window h.idle, ?_, fun hpending hconnected => ?_⟩
    · rintro ⟨f, hf, hop⟩
      rcases operation_step hs.numbered hf with ⟨g, hg, -, hsame⟩ | ⟨hopens, -⟩
      · exact .inl (h.called ⟨g, hg, hsame.symm.trans hop⟩)
      · exact .inr (eq_connect (hopens.trans (congrArg some hop)))
    · rcases hconnected with hconnected | rfl
      · exact connecting_step he hs (hflag.trans hpending) h.idle (h.expected hpending hconnected)
      · exact connecting_call hs.numbered

lemma Dismissed.step {start : Upshot} {connected : Prop} {e : Event} (he : e.isVisit)
    (hs : s.Visited) (h : Dismissed start s connected) :
    Dismissed start (s.step e) (connected ∨ e = .hold .connect) := by
  refine ⟨h.pending, .inl h.connected, ?_⟩
  cases visit_step he hs with
  | dismisses _ _ upshot out =>
    -- this one has read the flag before the removal was over
    exact .inr ⟨upshot, out⟩
  | removes _ upshot =>
    have hsame : s.state = .dismissed ∧ s.host.shown = some "" := by
      rcases h.upshot with hu | ⟨hu, -⟩ <;>
        exact ⟨congrArg Upshot.state hu, congrArg Upshot.shown hu⟩
    rw [hsame.1, hsame.2] at upshot
    exact .inl upshot
  | aside resumed upshot _ =>
    rcases h.upshot with hu | ⟨hu, hout⟩
    · exact .inl (upshot.trans hu)
    · exact .inr ⟨upshot.trans hu, dismissing_step he hs.numbered resumed hout⟩

/-- **Two phases.** A run of visits is in one of them. -/
theorem phase_run (hs : s.Visited) (hidle : s.flights = []) {es : List Event}
    (hes : ∀ e ∈ es, e.isVisit) :
    (s.run es).Visited ∧ (Undismissed s.upshot (s.run es) (.hold .connect ∈ es) ∨
      Dismissed s.upshot (s.run es) (.hold .connect ∈ es)) := by
  induction es using List.reverseRecOn with
  | nil =>
    refine ⟨hs, .inl ⟨rfl, ?_, ?_, fun _ h => absurd h List.not_mem_nil⟩⟩ <;>
      simp [Dismissing, Connecting, hidle]
  | append_singleton es e ih =>
    obtain ⟨hrun, hphase⟩ := ih fun e' he' => hes e' (List.mem_append_left _ he')
    have he : e.isVisit := hes e (by simp)
    have hcalled :
        (.hold .connect ∈ es ++ [e]) = (.hold .connect ∈ es ∨ e = .hold .connect) := by
      simp [eq_comm]
    rw [run_concat, hcalled]
    refine ⟨visited_step he hrun, ?_⟩
    rcases hphase with h | h
    · exact h.step he hrun
    · exact .inr (h.step he hrun)

/-- How a run of visits ends. -/
lemma upshot_run (hs : s.Visited) (hidle : s.flights = []) {es : List Event}
    (hes : ∀ e ∈ es, e.isVisit) (hdone : (s.run es).flights = []) :
    (s.run es).upshot = if s.flag = some no ∧ .hold .connect ∈ es then
      ⟨.dismissed, none, some ""⟩ else s.upshot := by
  rcases (phase_run hs hidle hes).2 with h | h
  · rw [if_neg, h.upshot]
    rintro ⟨hflag, hconnected⟩
    obtain ⟨f, hf, -⟩ := h.expected hflag hconnected
    simp [hdone] at hf
  · rw [if_pos ⟨h.pending, h.connected⟩]
    rcases h.upshot with hu | ⟨-, f, hf, -⟩
    · exact hu
    · simp [hdone] at hf

/-! ### One after another -/

lemma over_complete (hs : s.Numbered) {call : Event} {op : Operation}
    (hop : call.operation? = some op) : (s.complete call).Over s.opened op := by
  refine over_of_course (numbered_step call hs) ⟨_, flight?_opened hs hop, rfl⟩
    (List.Sublist.refl _) (mt DroppedIn.mem ?_)
  simp [course]

/-- Nothing is in flight when the call is over. -/
lemma flights_complete (hs : s.flights = []) (call : Event) : (s.complete call).flights = [] := by
  have hids : (s.complete call).ids.Sublist
      (if call.operation?.isSome then [s.opened] else []) := by
    have hcall := ids_step s call
    rw [show s.ids = [] by simp [ids, hs], List.nil_append] at hcall
    exact (ids_run (by simp [course, Event.operation?])).trans hcall
  have hnone : (s.complete call).ids = [] := by
    cases hop : call.operation? with
    | none => simpa [hop] using hids
    | some op =>
      have hgone := (over_complete (numbered_of_flights hs) hop).gone
      rw [hop, Option.isSome_some, if_pos rfl, List.sublist_singleton] at hids
      rcases hids with hids | hids
      · exact hids
      · simp [hids] at hgone
  exact List.map_eq_nil_iff.mp hnone

lemma flights_inTurn (hs : s.flights = []) (calls : List Event) :
    (s.inTurn calls).flights = [] := by
  induction calls generalizing s with
  | nil => exact hs
  | cons call calls ih => exact ih (flights_complete hs call)

lemma isVisit_course {id : Nat} {e : Event} (he : e ∈ course id) : e.isVisit := by
  rcases List.mem_cons.mp he with rfl | he
  · rfl
  · rw [List.eq_of_mem_replicate he]
    rfl

/-- One after another is one of the interleavings. -/
lemma exists_run_inTurn (s : Session Memory) {calls : List Event}
    (hcalls : ∀ e ∈ calls, e.isCall ∧ e.isVisit) :
    ∃ es, s.inTurn calls = s.run es ∧ Interleaves calls es := by
  induction calls generalizing s with
  | nil => exact ⟨[], rfl, .refl _, by simp⟩
  | cons call calls ih =>
    obtain ⟨hcall, hvisit⟩ := hcalls call List.mem_cons_self
    have htail : ∀ e ∈ calls, e.isCall ∧ e.isVisit :=
      fun e he => hcalls e (List.mem_cons_of_mem _ he)
    obtain ⟨es, hrun, hes⟩ := ih (s.complete call) htail
    refine ⟨call :: course s.opened ++ es, ?_, ?_, fun e he => ?_⟩
    · rw [run_append]
      exact hrun
    · have hcourse : (course s.opened).filter Event.isCall = [] := rfl
      rw [List.filter_append, List.filter_cons_of_pos hcall, hcourse]
      exact hes.calls.cons call
    · rw [List.cons_append, List.mem_cons, List.mem_append] at he
      rcases he with rfl | he | he
      · exact hvisit
      · exact isVisit_course he
      · exact hes.visits e he

end Session

/-- **Overlapping connections are confluent.** With nothing in flight, on a host that takes every
text and lets the flag be read and removed, and whatever the state and the storage are: all
interleavings of the same calls that come to their end leave the same state, flag and badge, which
are those of the calls one after another in any order. If the flag was pending and somebody
connected, the notification is dismissed, the flag gone and the badge clear; else all is as it
was. -/
theorem connections_confluent {s : Session Memory} (hs : s.flights = []) (hstates : s.states ≠ [])
    (hm : s.host.Willing) {calls es : List Event} (hes : Interleaves calls es)
    (hdone : (s.run es).flights = []) :
    ((s.run es).upshot = if s.flag = some no ∧ .hold .connect ∈ calls then
      ⟨.dismissed, none, some ""⟩ else s.upshot) ∧
    ∀ calls', calls'.Perm calls →
      (s.inTurn calls').flights = [] ∧ (s.inTurn calls').upshot = (s.run es).upshot := by
  have hvisited : s.Visited := by
    refine ⟨Session.numbered_of_flights hs, hstates, hm, ?_, ?_⟩ <;> simp [hs]
  have hconnect {calls es : List Event} (hes : Interleaves calls es) :
      .hold .connect ∈ es ↔ .hold .connect ∈ calls := by
    rw [← hes.calls.mem_iff, List.mem_filter]
    simp [Event.isCall]
  have hend := Session.upshot_run hvisited hs hes.visits hdone
  simp only [hconnect hes] at hend
  refine ⟨hend, fun calls' hperm => ?_⟩
  have hcalls : ∀ e ∈ calls', e.isCall ∧ e.isVisit := by
    intro e he
    obtain ⟨hmem, hcall⟩ := List.mem_filter.mp (hes.calls.mem_iff.mpr (hperm.mem_iff.mp he))
    exact ⟨hcall, hes.visits e hmem⟩
  obtain ⟨es', hrun, hes'⟩ := s.exists_run_inTurn hcalls
  have hdone' := Session.flights_inTurn hs calls'
  have hend' := Session.upshot_run hvisited hs hes'.visits (hrun ▸ hdone')
  simp only [hconnect hes', hperm.mem_iff] at hend'
  rw [← hend, ← hrun] at hend'
  exact ⟨hdone', hend'⟩

/-- Two connections both read the flag before either has removed it. -/
theorem connections_confluent_of_two :
    let m : Memory := Memory.new [(dismissedKey, no)] none
    let s := (Session.new Config.initial m).run [.hold .startup, .start 0, .resume 0]
    let calls : List Event := [.hold .connect, .receive .rewardsEnabled [], .hold .connect,
      .hold .disconnect]
    let es : List Event := [.hold .connect, .start 1, .hold .connect, .resume 1, .start 2,
      .resume 2, .resume 2, .hold .disconnect, .resume 1, .resume 1, .start 3,
      .receive .rewardsEnabled [], .resume 3, .resume 2, .outside (.enabled true), .start 4,
      .resume 4]
    (s.flights = [] ∧ s.states ≠ [] ∧ s.host.Willing ∧ Interleaves calls es ∧
      (s.run es).flights = []) ∧
      s.upshot = ⟨.fresh, some no, some "1"⟩ ∧
      (s.run es).upshot = ⟨.dismissed, none, some ""⟩ ∧
      (s.inTurn calls.reverse).upshot = ⟨.dismissed, none, some ""⟩ := by
  intro m s calls es
  have hs : s.upshot = ⟨.fresh, some no, some "1"⟩ ∧ s.flights = [] ∧ s.states ≠ [] ∧
      s.host.failures = [] := by decide +kernel
  obtain ⟨hupshot, hflights, hstates, hfailures⟩ := hs
  have hm : s.host.Willing :=
    ⟨by rw [hfailures]; rfl, by simp [Memory.planned?, hfailures],
      by simp [Memory.planned?, hfailures]⟩
  have hes : Interleaves calls es := ⟨by decide, by decide⟩
  have hdone : (s.run es).flights = [] := by decide +kernel
  obtain ⟨hend, hturn⟩ := connections_confluent hflights hstates hm hes hdone
  have hflag : s.flag = some no := congrArg Upshot.flag hupshot
  rw [if_pos ⟨hflag, by decide⟩] at hend
  refine ⟨⟨hflights, hstates, hm, hes, hdone⟩, hupshot, hend, ?_⟩
  rw [(hturn _ (List.reverse_perm calls)).2, hend]

end Tipping.Notification
