import Tipping.Proofs.Notification.Flights
import Tipping.Proofs.Notification.Reports

/-!
How a flight comes to its end.

An event moves at most the flight that it carries, by one stretch, and a stretch leads to the next
request or to the end. After each answer there are fewer requests to come, and a failure is an
answer like any other; so whoever is not dropped and has its requests answered is soon over.
-/

namespace Tipping.Notification

lemma Stage.answersLeft_pos (stage : Stage) : 0 < stage.answersLeft := by
  cases stage <;> simp [answersLeft]

lemma Stage.answersLeft_le (stage : Stage) : stage.answersLeft ≤ 3 := by
  cases stage <;> simp [answersLeft]

/-- An operation that ends has a reply exactly if it asked for the rewards. -/
lemma reply_of_start {op : Operation} {reply : Option RewardsReply}
    (h : op.start.next = .finished reply) : reply.isSome ↔ op = .askRewards := by
  have hnone := reply?_start op
  rw [h] at hnone
  cases op with
  | askRewards => cases h
  | _ => simp [show reply = none from hnone]

lemma reply_of_resume {config : Config} {stage : Stage} {o : stage.request.Outcome}
    {reply : Option RewardsReply} (h : (stage.resume config o).next = .finished reply) :
    reply.isSome ↔ stage.operation = .askRewards := by
  by_cases hstage : stage = .askingRewards
  · subst hstage
    cases o <;> cases h <;> simp [Stage.operation]
  · have hnone : (stage.resume config o).next.reply? = none := reply?_resume hstage
    rw [h] at hnone
    rw [show reply = none from hnone]
    cases stage <;> simp [Stage.operation] at hstage ⊢

def Happening.opened? : Happening → Option (Nat × Operation)
  | .opened flight op => some (flight, op)
  | _ => none

namespace Session

/-- By the event the flight follows the stretch. -/
inductive Follows (s : Session Memory) (f : Flight) : Event → Stretch → Prop where
  | start {op : Operation} (held : f.progress = .held op) : Follows s f (.start f.id) op.start
  | resume {stage : Stage} (waiting : f.progress = .waiting stage) : Follows s f (.resume f.id)
      (stage.resume s.config (Memory.answer stage.request s.host).1)

namespace Follows

variable {s : Session Memory} {f : Flight} {e : Event} {t : Stretch}

lemma step_eq (h : s.Follows f e t) (hf : s.flight? f.id = some f) :
    ∃ host trace, s.step e = { s with host, trace }.follow f t := by
  cases h with
  | start held => exact ⟨s.host, s.trace, by simp [step, Session.start, hf, held]⟩
  | resume waiting => exact ⟨_, _, step_resume hf waiting⟩

/-- The flight comes to wait where the stretch leads, or is gone. -/
lemma flight?_eq (h : s.Follows f e t) (hf : s.flight? f.id = some f) :
    (s.step e).flight? f.id =
      t.next.stage?.map fun stage => { f with progress := .waiting stage } := by
  obtain ⟨host, trace, hs⟩ := h.step_eq hf
  have hf' : ({ s with host, trace } : Session Memory).flight? f.id = some f := hf
  rw [hs, flight?_follow, if_pos rfl, hf']
  cases t.next <;> rfl

lemma mem_flights (h : s.Follows f e t) (hf : s.flight? f.id = some f) {stage : Stage}
    (hn : t.next = .awaiting stage) :
    { f with progress := .waiting stage } ∈ (s.step e).flights := by
  have hf' := h.flight?_eq hf
  rw [hn] at hf'
  exact (mem_of_flight? hf').1

/-- It stays at its operation. -/
lemma operation (h : s.Follows f e t) {stage : Stage} (hn : t.next = .awaiting stage) :
    stage.operation = f.progress.operation := by
  cases h with
  | start held =>
    rw [held]
    exact operation_of_start hn
  | resume waiting =>
    rw [waiting]
    exact operation_of_resume hn

lemma reply (h : s.Follows f e t) {reply : Option RewardsReply} (hn : t.next = .finished reply) :
    reply.isSome ↔ f.progress.operation = .askRewards := by
  cases h with
  | start held =>
    rw [held]
    exact reply_of_start hn
  | resume waiting =>
    rw [waiting]
    exact reply_of_resume hn

end Follows

/-- A flight that enters a stage then waits there. -/
lemma Enters.arrives {s : Session Memory} {e : Event} {stage : Stage} (h : s.Enters e stage) :
    ∃ f ∈ (s.step e).flights, f.progress = .waiting stage := by
  cases h with
  | start found held next =>
    obtain rfl := (mem_of_flight? found).2
    exact ⟨_, (Follows.start held).mem_flights found next, rfl⟩
  | resume found waiting next =>
    obtain rfl := (mem_of_flight? found).2
    exact ⟨_, (Follows.resume waiting).mem_flights found next, rfl⟩

/-- An event that does not drop a flight has it follow a stretch or leaves it where it is. -/
lemma flight?_step {s : Session Memory} {e : Event} {id : Nat} {f : Flight}
    (hf : s.flight? id = some f) (he : e ≠ .drop id) :
    (∃ t, s.Follows f e t) ∨ (s.step e).flight? id = some f := by
  obtain rfl : f.id = id := (mem_of_flight? hf).2
  have other {g : Flight} {id' : Nat} {s' : Session Memory} {t : Stretch} (hne : id' ≠ f.id)
      (hg : s.flight? id' = some g) (hs : s'.flight? f.id = some f) :
      (s'.follow g t).flight? f.id = some f := by
    have hg : g.id = id' := (mem_of_flight? hg).2
    rw [flight?_follow, if_neg (by omega), hs]
  cases e with
  | setUp =>
    refine .inr ?_
    rwa [step, setUp, flight?, (frame_performAll ..).flights]
  | hold op =>
    refine .inr ?_
    rw [step, flight?_hold, hf, Option.some_or]
  | receive message rs =>
    refine .inr ?_
    simp only [step, receive]
    split
    · have hlog : (s.log (rs ++ message.remarks)).flight? f.id = some f := hf
      rw [flight?_hold, hlog, Option.some_or]
    · exact hf
  | start id' =>
    by_cases hne : id' = f.id
    · subst hne
      cases hp : f.progress with
      | held op => exact .inl ⟨_, .start hp⟩
      | waiting stage => exact .inr (by simp [step, start, hf, hp])
    · refine .inr ?_
      simp only [step, start]
      split
      · rename_i g hg
        split
        · exact other hne hg hf
        · exact hf
      · exact hf
  | resume id' =>
    by_cases hne : id' = f.id
    · subst hne
      cases hp : f.progress with
      | held op => exact .inr (by simp [step, resume, hf, hp])
      | waiting stage => exact .inl ⟨_, .resume hp⟩
    · refine .inr ?_
      cases hs : s.stage? id' with
      | none => rwa [step_resume_of_none hs]
      | some stage =>
        obtain ⟨g, hg, hp⟩ := stage?_eq_some hs
        rw [step_resume hg hp]
        exact other hne hg hf
  | drop id' =>
    refine .inr ?_
    rw [step, flight?_remove, if_neg fun h => he (by rw [h]), hf]
  | restart => exact .inr hf
  | outside c => exact .inr hf

/-! ### Ends -/

lemma mem_trace_step {s : Session Memory} {h : Happening} (hh : h ∈ s.trace) (e : Event) :
    h ∈ (s.step e).trace := by
  rw [trace_step]
  simp [hh]

/-- The flight for the operation is over: it came to its end by itself, with a reply exactly if it
asked for the rewards. -/
structure Over (s : Session Memory) (id : Nat) (op : Operation) : Prop where
  opened : id < s.opened
  gone : id ∉ s.ids
  ended : ∃ reply, .finished id reply ∈ s.trace ∧ (reply.isSome ↔ op = .askRewards)

lemma mem_ids_of_flight? {s : Session Memory} {id : Nat} {f : Flight}
    (hf : s.flight? id = some f) : id ∈ s.ids := by
  obtain ⟨hmem, rfl⟩ := mem_of_flight? hf
  exact List.mem_map_of_mem hmem

lemma over_step {s : Session Memory} {id : Nat} {op : Operation} (h : s.Over id op) (e : Event) :
    (s.step e).Over id op := by
  obtain ⟨reply, hfin, hreply⟩ := h.ended
  obtain ⟨hopened, hgone⟩ := not_mem_ids_step (e := e) h.opened h.gone
  exact ⟨hopened, hgone, reply, mem_trace_step hfin e, hreply⟩

lemma over_run {s : Session Memory} {id : Nat} {op : Operation} (h : s.Over id op)
    (es : List Event) : (s.run es).Over id op := by
  induction es generalizing s with
  | nil => exact h
  | cons e es ih => exact ih (over_step h e)

/-- A stretch that leads to the end ends the flight. -/
lemma Follows.over {s : Session Memory} {f : Flight} {e : Event} {t : Stretch}
    (h : s.Follows f e t) (hs : s.Numbered) (hf : s.flight? f.id = some f)
    {reply : Option RewardsReply} (hn : t.next = .finished reply) :
    (s.step e).Over f.id f.progress.operation := by
  have hreply := h.reply hn
  have hlt : f.id < s.opened := hs.below _ (mem_ids_of_flight? hf)
  obtain ⟨host, trace, heq⟩ := h.step_eq hf
  rw [heq]
  refine ⟨?_, not_mem_ids_follow _ f hn, reply, ?_, hreply⟩
  · rwa [Session.opened_follow]
  · rw [follow_trace, hn]
    simp [Next.happening]

/-- In the course of the run the flight was dropped before its end. -/
def DroppedIn (s : Session Memory) (es : List Event) (id : Nat) : Prop :=
  ∃ before, before ++ [.drop id] <+: es ∧ id ∈ (s.run before).ids

lemma DroppedIn.mono {s : Session Memory} {es es' : List Event} {id : Nat} (h : es <+: es') :
    s.DroppedIn es id → s.DroppedIn es' id :=
  fun ⟨before, hpre, hid⟩ => ⟨before, hpre.trans h, hid⟩

lemma DroppedIn.mem {s : Session Memory} {es : List Event} {id : Nat} :
    s.DroppedIn es id → .drop id ∈ es :=
  fun ⟨_, hpre, _⟩ => hpre.subset (by simp)

lemma DroppedIn.append {s : Session Memory} {es es' : List Event} {id : Nat} :
    (s.run es).DroppedIn es' id → s.DroppedIn (es ++ es') id := by
  rintro ⟨before, hpre, hid⟩
  refine ⟨es ++ before, ?_, by rwa [run_append]⟩
  rw [List.append_assoc]
  exact (List.prefix_append_right_inj es).mpr hpre

/-- **A flight ends.** It takes no more answers than its stage has left, whatever they are and
whatever else happens between them. -/
theorem over_of_answers {s : Session Memory} (hs : s.Numbered) {f : Flight} {stage : Stage}
    (hf : s.flight? f.id = some f) (hp : f.progress = .waiting stage) {es : List Event}
    (hkept : ¬ s.DroppedIn es f.id) (hanswers : stage.answersLeft ≤ es.count (.resume f.id)) :
    (s.run es).Over f.id stage.operation := by
  induction es generalizing s f stage with
  | nil =>
    have := stage.answersLeft_pos
    simp at hanswers
    omega
  | cons e es ih =>
    have hs' := numbered_step e hs
    have hes : ¬ (s.step e).DroppedIn es f.id := fun hd => by
      have hd : (s.run [e]).DroppedIn es f.id := hd
      exact hkept hd.append
    have he : e ≠ .drop f.id := by
      rintro rfl
      exact hkept ⟨[], by simp, mem_ids_of_flight? hf⟩
    rw [run_cons]
    by_cases hr : e = .resume f.id
    · subst hr
      have hfollows : s.Follows f (.resume f.id) _ := .resume hp
      cases hn : (stage.resume s.config (Memory.answer stage.request s.host).1).next with
      | finished reply =>
        have hover := hfollows.over hs hf hn
        rw [hp] at hover
        exact over_run hover es
      | awaiting stage' =>
        have hf' := hfollows.flight?_eq hf
        rw [hn] at hf'
        have hleft := Stage.answersLeft_resume hn
        rw [List.count_cons_self] at hanswers
        have hop : stage'.operation = stage.operation := operation_of_resume hn
        rw [← hop]
        have hcount : stage'.answersLeft ≤ es.count (.resume f.id) := by omega
        exact ih (f := { f with progress := .waiting stage' }) hs' hf' rfl hes hcount
    · have hf' : (s.step e).flight? f.id = some f := by
        rcases flight?_step hf he with ⟨t, ht⟩ | hf'
        · cases ht with
          | start held => rw [hp] at held; cases held
          | resume => exact absurd rfl hr
        · exact hf'
      rw [List.count_cons_of_ne hr] at hanswers
      exact ih hs' hf' hp hes hanswers

/-! ### Operations -/

/-- All operations so far, each with the number of its flight. -/
def opens (s : Session Memory) : List (Nat × Operation) := s.trace.filterMap Happening.opened?

lemma opens_follow (s : Session Memory) (f : Flight) (t : Stretch) :
    (s.follow f t).opens = s.opens := by
  have h : (s.follow f t).opens = s.opens ++ t.actions.filterMap fun _ => none :=
    follow_observed (fun _ => ⟨rfl, rfl⟩) (fun _ => rfl) (fun _ _ => rfl) (fun _ => rfl)
      (fun _ => rfl) s t
  rw [h, List.filterMap_eq_nil_iff.mpr fun _ _ => rfl, List.append_nil]

lemma opens_step (s : Session Memory) (e : Event) :
    (s.step e).opens = s.opens ++ (e.operation?.map (s.opened, ·)).toList := by
  have of {s' : Session Memory} (he : e.operation? = none) (h : s'.opens = s.opens) :
      s'.opens = s.opens ++ (e.operation?.map (s.opened, ·)).toList := by
    simp [he, h]
  cases e with
  | setUp =>
    have h : s.setUp.opens = s.opens ++ (Notification.setUp s.config).filterMap fun _ => none :=
      performAll_observed (fun _ => ⟨rfl, rfl⟩) (fun _ => rfl) (fun _ _ => rfl) s _
    exact of rfl (h.trans (List.append_nil _))
  | hold op => simp [step, hold, note, opens, Happening.opened?, Event.operation?]
  | receive message rs =>
    have hlog : (s.log (rs ++ message.remarks)).opens = s.opens := by
      simp [opens, log, List.filterMap_map, Happening.opened?]
    cases h : message.operation? with
    | none => simp [step, receive, h, hlog, Event.operation?]
    | some op =>
      have hhold : ((s.log (rs ++ message.remarks)).hold op).opens =
          (s.log (rs ++ message.remarks)).opens ++ [(s.opened, op)] := by
        simp [hold, note, opens, log, Happening.opened?]
      simp [step, receive, h, hhold, hlog, Event.operation?]
  | start id =>
    refine of rfl ?_
    simp only [step, start]
    split
    · split
      · exact opens_follow ..
      · rfl
    · rfl
  | resume id =>
    refine of rfl ?_
    cases h : s.stage? id with
    | none => rw [step_resume_of_none h]
    | some stage =>
      obtain ⟨f, hf, hp⟩ := stage?_eq_some h
      rw [step_resume hf hp, settle, opens_follow]
      simp [opens, note, Happening.opened?]
  | _ => exact of rfl rfl

/-- A new flight is held, under the next number. -/
lemma flight?_opened {s : Session Memory} (hs : s.Numbered) {e : Event} {op : Operation}
    (he : e.operation? = some op) :
    (s.step e).flight? s.opened = some ⟨s.opened, s.current, .held op⟩ := by
  have hnone : s.flight? s.opened = none := by
    cases hf : s.flight? s.opened with
    | none => rfl
    | some f => exact absurd (hs.below _ (mem_ids_of_flight? hf)) (Nat.lt_irrefl _)
  cases e with
  | hold op' =>
    cases he
    rw [step, flight?_hold, hnone, Option.none_or, if_pos rfl]
  | receive message rs =>
    have hlog : (s.log (rs ++ message.remarks)).flight? s.opened = none := hnone
    have hop : message.operation? = some op := he
    simp only [step, receive, hop]
    rw [flight?_hold, show (s.log (rs ++ message.remarks)).opened = s.opened from rfl, hlog,
      Option.none_or, if_pos rfl]
    rfl
  | _ => cases he

/-- The operation is still under way: it is held, or the host has not answered its request. -/
def UnderWay (s : Session Memory) (id : Nat) (op : Operation) : Prop :=
  ∃ f, s.flight? id = some f ∧ f.progress.operation = op

lemma numbered_run {s : Session Memory} (hs : s.Numbered) (es : List Event) :
    (s.run es).Numbered := by
  have h := upTo_inv (fun _ e => numbered_step e) hs es es.length
  rw [upTo_length] at h
  exact h

/-- What is under way goes on, ends or is dropped. -/
lemma underWay_step {s : Session Memory} (hs : s.Numbered) {id : Nat} {op : Operation}
    (h : s.UnderWay id op) {e : Event} (he : e ≠ .drop id) :
    (s.step e).UnderWay id op ∨ (s.step e).Over id op := by
  obtain ⟨f, hf, rfl⟩ := h
  obtain rfl : f.id = id := (mem_of_flight? hf).2
  rcases flight?_step hf he with ⟨t, ht⟩ | hf'
  · cases hn : t.next with
    | finished reply => exact .inr (ht.over hs hf hn)
    | awaiting stage =>
      have hf' := ht.flight?_eq hf
      rw [hn] at hf'
      exact .inl ⟨_, hf', ht.operation hn⟩
  · exact .inl ⟨f, hf', rfl⟩

/-- In the run the flight was dropped before its end, or it is under way or over. -/
def Fate (s : Session Memory) (es : List Event) (id : Nat) (op : Operation) : Prop :=
  s.DroppedIn es id ∨ (s.run es).UnderWay id op ∨ (s.run es).Over id op

lemma fate_concat {s : Session Memory} {es : List Event} {id : Nat} {op : Operation}
    (hs : (s.run es).Numbered) (h : s.Fate es id op) (e : Event) :
    s.Fate (es ++ [e]) id op := by
  rw [Fate, run_concat]
  rcases h with hdropped | hunder | hover
  · exact .inl (hdropped.mono (List.prefix_append _ _))
  · by_cases he : e = .drop id
    · subst he
      obtain ⟨f, hf, -⟩ := hunder
      exact .inl ⟨es, List.prefix_rfl, mem_ids_of_flight? hf⟩
    · exact .inr (underWay_step hs hunder he)
  · exact .inr (.inr (over_step hover e))

lemma fate_of_underWay {s : Session Memory} (hs : s.Numbered) {id : Nat} {op : Operation}
    (h : s.UnderWay id op) (es : List Event) : s.Fate es id op := by
  induction es using List.reverseRecOn with
  | nil => exact .inr (.inl h)
  | append_singleton es e ih => exact fate_concat (numbered_run hs es) ih e

/-- **Every operation is accounted for**: it was dropped, is under way or is over. -/
theorem fate_run (config : Config) (m : Memory) (es : List Event) {id : Nat} {op : Operation}
    (h : (id, op) ∈ ((Session.new config m).run es).opens) :
    (Session.new config m).Fate es id op := by
  induction es using List.reverseRecOn with
  | nil => simp [new, opens] at h
  | append_singleton es e ih =>
    have hs := numbered_run (numbered_new config m) es
    rw [run_concat, opens_step, List.mem_append] at h
    rcases h with h | h
    · exact fate_concat hs (ih h) e
    · obtain ⟨op', hop, hnew⟩ := Option.map_eq_some_iff.mp (Option.mem_toList.mp h)
      cases hnew
      refine .inr (.inl ?_)
      rw [run_concat]
      exact ⟨_, flight?_opened hs hop, rfl⟩

/-- Once it is started, a flight waits for the host. -/
lemma waiting_of_start {s : Session Memory} {f : Flight}
    (hf : (s.step (.start f.id)).flight? f.id = some f) : ∃ stage, f.progress = .waiting stage := by
  cases hg : s.flight? f.id with
  | none =>
    have hs : s.step (.start f.id) = s := by simp [step, start, hg]
    rw [hs, hg] at hf
    cases hf
  | some g =>
    have hid : g.id = f.id := (mem_of_flight? hg).2
    cases hp : g.progress with
    | held op =>
      rw [← hid] at hf hg
      rw [(Follows.start hp).flight?_eq hg] at hf
      obtain ⟨stage, -, rfl⟩ := Option.map_eq_some_iff.mp hf
      exact ⟨stage, rfl⟩
    | waiting stage =>
      have hs : s.step (.start f.id) = s := by simp [step, start, hg, hp]
      rw [hs, hg] at hf
      cases hf
      exact ⟨stage, hp⟩

/-- A flight starts and is answered three times; no operation takes more answers. -/
def course (id : Nat) : List Event := .start id :: List.replicate 3 (.resume id)

/-- **A flight that takes its course is over**, whatever happens in between. -/
theorem over_of_course {s : Session Memory} (hs : s.Numbered) {id : Nat} {op : Operation}
    (h : s.UnderWay id op) {es : List Event} (hcourse : (course id).Sublist es)
    (hkept : ¬ s.DroppedIn es id) : (s.run es).Over id op := by
  obtain ⟨before, after, rfl, hstart, hresumes⟩ := List.cons_sublist_iff.mp hcourse
  obtain ⟨before, between, rfl⟩ := List.append_of_mem hstart
  have hsplit : before ++ .start id :: between ++ after =
      (before ++ [.start id]) ++ (between ++ after) := by simp
  rw [hsplit] at hkept ⊢
  rw [run_append]
  -- the session in which the flight has just been started
  rcases fate_of_underWay hs h (before ++ [.start id]) with hdropped | ⟨f, hf, rfl⟩ | hover
  · exact absurd (hdropped.mono (List.prefix_append _ _)) hkept
  · obtain rfl : f.id = id := (mem_of_flight? hf).2
    have hstarted := hf
    rw [run_concat] at hstarted
    obtain ⟨stage, hp⟩ := waiting_of_start hstarted
    have hcount : 3 ≤ (between ++ after).count (.resume f.id) := by
      have := hresumes.count_le (.resume f.id)
      rw [List.count_replicate_self] at this
      rw [List.count_append]
      omega
    rw [hp]
    exact over_of_answers (numbered_run hs _) hf hp (mt DroppedIn.append hkept)
      (Nat.le_trans stage.answersLeft_le hcount)
  · exact over_run hover _

end Session

/-- **Every failure is reported once and goes no further.** Whatever fails and is dropped, the
warnings of a run are the reports of the failed calls, in their order, and there is no error; the
records of messages apart. Every operation that is not dropped is over as soon as no request of it
is out, the question for the rewards with a reply; and it is over after three answers at most. -/
theorem failures_reported_once (config : Config) (m : Memory) (es : List Event) :
    let s := Session.new config m
    ((s.madeIn es).filterMap Happening.warning? =
        ((s.madeIn es).filterMap Happening.failed?).map HostCall.report ∧
      ∀ r, .logged r ∈ s.madeIn es → r.level ≠ .error) ∧
    ∀ id op, (id, op) ∈ (s.run es).opens →
      (¬ s.DroppedIn es id → (s.run es).UnderWay id op ∨ (s.run es).Over id op) ∧
      ∀ later, (Session.course id).Sublist later →
        ¬ s.DroppedIn (es ++ later) id → (s.run (es ++ later)).Over id op := by
  intro s
  have hreported := s.reported_madeIn es
  refine ⟨⟨hreported.warnings_eq, fun r => hreported.not_error⟩, fun id op hop => ?_⟩
  have hfate := Session.fate_run config m es hop
  refine ⟨Or.resolve_left hfate, fun later hlater hkept => ?_⟩
  rw [Session.run_append]
  rcases hfate with hdropped | hunder | hover
  · exact absurd (hdropped.mono (List.prefix_append _ _)) hkept
  · exact Session.over_of_course (Session.numbered_run (Session.numbered_new config m) es) hunder
      hlater (mt Session.DroppedIn.append hkept)
  · exact Session.over_run hover later

/-- A connection cannot store the panel flag nor clear the badge while the rewards are asked for in
vain. A message brings a warning of its own along. -/
theorem failures_reported_once_of_two :
    let m := Memory.new [(dismissedKey, no)] none
    let foreign : LogRecord := ⟨.warn, "Ignoring message that is not JSON: expected value"⟩
    let es : List Event :=
      [.outside (.plan [.text, .set none, .rewardsEnabled] (some ⟨"out of order", ["disk full"]⟩)),
        .receive .rewardsEnabled [], .receive (.unknown "") [foreign], .hold .connect, .start 1,
        .resume 1, .resume 1]
    let later : List Event := [.start 0, .resume 1, .resume 0, .resume 0, .resume 0]
    let s := Session.new Config.initial m
    (s.madeIn es).filterMap Happening.warning? =
        [⟨.warn, "Failed to store panel state: out of order: disk full"⟩,
          ⟨.warn, "Failed to set badge text: out of order: disk full"⟩] ∧
      (s.run es).UnderWay 1 .connect ∧ ((0, .askRewards) ∈ (s.run es).opens ∧
        (Session.course 0).Sublist later ∧
        ¬ s.DroppedIn (es ++ later) 0) ∧
      (s.run (es ++ later)).Over 0 .askRewards := by
  intro m foreign es later s
  have hopens : (s.run es).opens = [(0, .askRewards), (1, .connect)] := by decide +kernel
  have hfailed : (s.madeIn es).filterMap Happening.failed? =
      [(.request (.set panelOpenKey yes), ⟨"out of order", ["disk full"]⟩),
        (.notice (.text ""), ⟨"out of order", ["disk full"]⟩)] := by decide +kernel
  have hlater : (Session.course 0).Sublist later := by decide
  have hkept : ¬ s.DroppedIn (es ++ later) 0 := mt Session.DroppedIn.mem (by decide)
  have h₀ : (0, .askRewards) ∈ (s.run es).opens := by simp [hopens]
  obtain ⟨⟨hwarnings, -⟩, hops⟩ := failures_reported_once Config.initial m es
  refine ⟨?_, ⟨⟨1, 0, .waiting .removingFlag⟩, by decide +kernel, rfl⟩, ⟨h₀, hlater, hkept⟩,
    (hops 0 .askRewards h₀).2 later hlater hkept⟩
  rw [hwarnings, hfailed]
  decide +kernel

end Tipping.Notification
