import Mathlib.Data.List.Nodup
import Tipping.Proofs.Notification.Turn
import Tipping.Proofs.Prefix

/-!
Whose flight it is.

Flights are numbered as they are opened and numbers are not used again, so a number tells the event
that opened the flight; and whatever stage a flight has come to, it is still at the operation of
that event.
-/

namespace Tipping.Notification

/-- The operation that a stage is part of. -/
def Stage.operation : Stage → Operation
  | storingFlag => .installed "install"
  | readingFlagAtStartup => .startup
  | openingPanel => .connect
  | readingFlagAtConnect => .connect
  | removingFlag => .connect
  | closingPanel => .disconnect
  | findingTab tip => .tip tip
  | askingRewards => .askRewards

def Progress.operation : Progress → Operation
  | .held op => op
  | .waiting stage => stage.operation

lemma operation_of_start {op : Operation} {stage : Stage} (h : op.start.next = .awaiting stage) :
    stage.operation = op := by
  cases op with
  | installed reason =>
    simp only [Operation.start] at h
    split at h
    · rename_i hr
      subst hr
      cases h
      rfl
    · cases h
  | _ => cases h; rfl

lemma operation_of_resume {config : Config} {before stage : Stage}
    {o : before.request.Outcome} (h : (before.resume config o).next = .awaiting stage) :
    stage.operation = before.operation := by
  cases before <;> simp only [Stage.resume] at h <;> (repeat' split at h) <;> cases h <;> rfl

namespace Session

/-! ### Numbers -/

/-- The numbers of the flights that are under way. -/
def ids (s : Session Memory) : List Nat := s.flights.map Flight.id

lemma ids_follow (s : Session Memory) (f : Flight) (t : Stretch) :
    (s.follow f t).ids.Sublist s.ids := by
  have hf := (frame_performAll (some f.id) f.controller s t.actions).flights
  simp only [follow]
  split
  · simp only [ids, note, remove, hf]
    exact List.filter_sublist.map _
  · have hid (stage : Stage) : Flight.id ∘ (fun g : Flight =>
        if g.id = f.id then { g with progress := .waiting stage } else g) = Flight.id := by
      funext g
      simp only [Function.comp]
      split <;> rfl
    simp only [ids, note, move, hf, List.map_map, hid]
    exact List.Sublist.refl _

lemma not_mem_ids_follow (s : Session Memory) (f : Flight) {t : Stretch}
    {reply : Option RewardsReply} (h : t.next = .finished reply) : f.id ∉ (s.follow f t).ids := by
  simp [follow, h, ids, note, remove]

lemma opened_follow (s : Session Memory) (f : Flight) (t : Stretch) :
    (s.follow f t).opened = s.opened := by
  simp only [follow]
  split <;> exact (frame_performAll ..).opened

/-- A flight that is started or carried on follows a stretch of its own, if it does anything. -/
lemma step_carried {s : Session Memory} {e : Event} {id : Nat} (he : e.carried? = some id) :
    s.step e = s ∨ ∃ f stretch host trace, s.flight? id = some f ∧
      s.step e = { s with host, trace }.follow f stretch := by
  cases e with
  | start id' =>
    cases he
    simp only [step, start]
    split
    · rename_i f hf
      split
      · exact .inr ⟨f, _, s.host, s.trace, hf, rfl⟩
      · exact .inl rfl
    · exact .inl rfl
  | resume id' =>
    cases he
    cases h : s.stage? id with
    | none => exact .inl (step_resume_of_none h)
    | some stage =>
      obtain ⟨f, hf, hp⟩ := stage?_eq_some h
      exact .inr ⟨f, _, _, _, hf, step_resume hf hp⟩
  | _ => cases he

/-- An event opens at most one flight, under the next number, and numbers none anew. -/
lemma ids_step (s : Session Memory) (e : Event) :
    (s.step e).ids.Sublist (s.ids ++ if e.operation?.isSome then [s.opened] else []) := by
  have carried {id : Nat} (he : e.carried? = some id) : (s.step e).ids.Sublist s.ids := by
    rcases step_carried (s := s) he with h | ⟨f, stretch, host, trace, -, h⟩
    · rw [h]
    · rw [h]
      exact ids_follow ..
  cases e with
  | setUp => simp [step, setUp, ids, (frame_performAll ..).flights, Event.operation?]
  | hold op => simp [step, hold, ids, note, Event.operation?]
  | receive message rs =>
    cases h : message.operation? <;>
      simp [step, receive, h, hold, log, ids, note, Event.operation?]
  | start id => simpa [Event.operation?] using carried rfl
  | resume id => simpa [Event.operation?] using carried rfl
  | drop id => simpa [step, remove, ids, Event.operation?] using List.filter_sublist.map _
  | restart => simp [step, restart, ids, Event.operation?]
  | outside c => simp [step, ids, Event.operation?]

lemma opened_step (s : Session Memory) (e : Event) :
    (s.step e).opened = s.opened + if e.operation?.isSome then 1 else 0 := by
  have carried {id : Nat} (he : e.carried? = some id) : (s.step e).opened = s.opened := by
    rcases step_carried (s := s) he with h | ⟨f, stretch, host, trace, -, h⟩
    · rw [h]
    · rw [h]
      exact opened_follow ..
  cases e with
  | setUp => exact (frame_performAll ..).opened
  | receive message rs =>
    cases h : message.operation? <;> simp [step, receive, h, hold, log, note, Event.operation?]
  | start id => exact carried rfl
  | resume id => exact carried rfl
  | _ => rfl

/-- No two flights under way have one number, and the next number is new. -/
structure Numbered (s : Session Memory) : Prop where
  nodup : s.ids.Nodup
  below : ∀ id ∈ s.ids, id < s.opened

lemma numbered_new (config : Config) (m : Memory) : Numbered (.new config m) :=
  ⟨List.nodup_nil, by simp [new, ids]⟩

lemma numbered_step {s : Session Memory} (e : Event) (h : Numbered s) : Numbered (s.step e) := by
  have hsub := ids_step s e
  have hopened := opened_step s e
  split at hopened
  · rename_i hop
    rw [if_pos hop] at hsub
    refine ⟨hsub.nodup ?_, fun id hid => ?_⟩
    · refine h.nodup.append (List.nodup_singleton _) ?_
      exact List.disjoint_singleton.mpr fun hid => absurd (h.below _ hid) (Nat.lt_irrefl _)
    · have hid := hsub.subset hid
      rw [List.mem_append, List.mem_singleton] at hid
      rcases hid with hid | rfl
      · have := h.below id hid
        omega
      · omega
  · rename_i hop
    rw [if_neg hop, List.append_nil] at hsub
    exact ⟨hsub.nodup h.nodup, fun id hid => hopened ▸ h.below id (hsub.subset hid)⟩

lemma Numbered.eq_of_id {s : Session Memory} (h : Numbered s) {f g : Flight} (hf : f ∈ s.flights)
    (hg : g ∈ s.flights) (hid : f.id = g.id) : f = g :=
  List.inj_on_of_nodup_map h.nodup hf hg hid

lemma Numbered.flight?_of_mem {s : Session Memory} (h : Numbered s) {f : Flight}
    (hf : f ∈ s.flights) : s.flight? f.id = some f := by
  cases hg : s.flight? f.id with
  | none => simpa using List.find?_eq_none.mp hg f hf
  | some g =>
    obtain ⟨hmem, hid⟩ := mem_of_flight? hg
    rw [h.eq_of_id hmem hf hid]

/-- A number that no flight has, and that was given before, is not given again. -/
lemma not_mem_ids_step {s : Session Memory} {e : Event} {id : Nat} (hlt : id < s.opened)
    (hid : id ∉ s.ids) : id < (s.step e).opened ∧ id ∉ (s.step e).ids := by
  refine ⟨by rw [opened_step]; omega, fun h => ?_⟩
  have h := (ids_step s e).subset h
  rw [List.mem_append] at h
  rcases h with h | h
  · exact hid h
  · split at h
    · rw [List.mem_singleton] at h
      omega
    · simp at h

/-! ### Operations -/

/-- A flight stays at its operation. -/
lemma operation_step {s : Session Memory} (h : Numbered s) {e : Event} {g : Flight}
    (hg : g ∈ (s.step e).flights) :
    (∃ g₀ ∈ s.flights, g₀.id = g.id ∧ g.progress.operation = g₀.progress.operation) ∨
      e.operation? = some g.progress.operation ∧ g.id = s.opened := by
  rcases mem_flights_step hg with hg | ⟨op, hop, rfl⟩ | ⟨g₀, hg₀, stage, hent, hid, rfl⟩
  · exact .inl ⟨g, hg, rfl, rfl⟩
  · exact .inr ⟨hop, rfl⟩
  · refine .inl ⟨g₀, hg₀, rfl, ?_⟩
    cases hent with
    | @start id f op _ hf hp hn =>
      cases hid
      obtain ⟨hmem, hfid⟩ := mem_of_flight? hf
      cases h.eq_of_id hmem hg₀ hfid
      rw [hp]
      exact operation_of_start hn
    | @resume id f before _ hf hp hn =>
      cases hid
      obtain ⟨hmem, hfid⟩ := mem_of_flight? hf
      cases h.eq_of_id hmem hg₀ hfid
      rw [hp]
      exact operation_of_resume hn

/-- A stage is entered by a flight of its operation. -/
lemma Enters.operation {s : Session Memory} {e : Event} {stage : Stage} (h : s.Enters e stage) :
    ∃ f ∈ s.flights, f.progress.operation = stage.operation := by
  cases h with
  | @start id f op _ found held next =>
    refine ⟨f, (mem_of_flight? found).1, ?_⟩
    rw [held, operation_of_start next]
    rfl
  | @resume id f before _ found waiting next =>
    refine ⟨f, (mem_of_flight? found).1, ?_⟩
    rw [waiting, operation_of_resume next]
    rfl

/-- What holds of all operations under way, and of the one that the event brings, still holds. -/
lemma operations_step {P : Operation → Prop} {s : Session Memory} {e : Event}
    (he : ∀ op, e.operation? = some op → P op) (h : ∀ f ∈ s.flights, P f.progress.operation) :
    ∀ f ∈ (s.step e).flights, P f.progress.operation := by
  intro f hf
  rcases mem_flights_step hf with hf | ⟨op, hop, rfl⟩ | ⟨g, hg, stage, hent, -, rfl⟩
  · exact h f hf
  · exact he op hop
  · obtain ⟨f, hf, hop⟩ := hent.operation
    change P stage.operation
    rw [← hop]
    exact h f hf

/-! ### Runs -/

/-- Events that open no flight number none. -/
lemma ids_run {s : Session Memory} {es : List Event} (hes : ∀ e ∈ es, e.operation? = none) :
    (s.run es).ids.Sublist s.ids := by
  induction es generalizing s with
  | nil => exact List.Sublist.refl _
  | cons e es ih =>
    have hstep := ids_step s e
    rw [hes e List.mem_cons_self] at hstep
    refine (ih fun e' he' => hes e' (List.mem_cons_of_mem _ he')).trans ?_
    simpa using hstep

lemma opened_le_step (s : Session Memory) (e : Event) : s.opened ≤ (s.step e).opened := by
  rw [opened_step]
  exact Nat.le_add_right _ _

/-- The event that opened a flight is told by its number. -/
lemma eq_of_opened_eq {s : Session Memory} {es : List Event} {k k' : Nat} {e e' : Event}
    (he : es[k]? = some e) (hop : e.operation?.isSome) (he' : es[k']? = some e')
    (hop' : e'.operation?.isSome)
    (h : (upTo step s es k).opened = (upTo step s es k').opened) : k = k' := by
  have grows {k : Nat} {e : Event} (he : es[k]? = some e) (hop : e.operation?.isSome) :
      (upTo step s es k).opened < (upTo step s es (k + 1)).opened := by
    rw [upTo_succ s he, opened_step, if_pos hop]
    exact Nat.lt_succ_self _
  exact eq_of_count opened_le_step (grows he' hop') (Nat.le_of_eq h) (h ▸ grows he hop)

/-- **Every flight has an origin**: an event before that opened it, under its number, for the
operation that it is still at. -/
theorem exists_origin {s : Session Memory} (hs : s.flights = []) (hn : Numbered s)
    (es : List Event) (n : Nat) : ∀ f ∈ (upTo step s es n).flights, ∃ k < n, ∃ e, es[k]? = some e ∧
      e.operation? = some f.progress.operation ∧ (upTo step s es k).opened = f.id := by
  induction n with
  | zero => simp [upTo_zero, hs]
  | succ n ih =>
    intro f hf
    have old {f : Flight} (hf : f ∈ (upTo step s es n).flights) :
        ∃ k < n + 1, ∃ e, es[k]? = some e ∧
          e.operation? = some f.progress.operation ∧ (upTo step s es k).opened = f.id := by
      obtain ⟨k, hk, h⟩ := ih f hf
      exact ⟨k, by omega, h⟩
    cases he : es[n]? with
    | none =>
      rw [upTo_succ_of_none s he] at hf
      exact old hf
    | some e =>
      rw [upTo_succ s he] at hf
      have hnumbered := upTo_inv (fun _ e => numbered_step e) hn es n
      rcases operation_step hnumbered hf with ⟨g₀, hg₀, hid, hop⟩ | ⟨hop, hid⟩
      · rw [hop, ← hid]
        exact old hg₀
      · exact ⟨n, Nat.lt_succ_self n, e, he, hop, hid.symm⟩

end Session

end Tipping.Notification
