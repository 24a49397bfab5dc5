import Tipping.Proofs.Notification.Doings

/-!
What the controllers do to the storage.

Every item that changes was changed by the answer to a write or a removal, and each of these is on
record with its flight, so the last of them accounts for what the item holds. The one value that
two flights can dispute is the flag between its reading and its removal: there it is pending or
gone already, because nobody writes anything else to it.
-/

namespace Tipping

open Notification

/-- What is stored under the key of a write or a removal that was carried out. -/
def Request.leaves : Request → Option String
  | .set _ value => some value
  | _ => none

lemma Request.itemAfter_eq (r : Request) (key : String) (item : Option String) :
    r.itemAfter key item = if r.changes key then r.leaves else item := by
  cases r <;> simp [itemAfter, changes, leaves, eq_comm]

namespace Notification

def Impulse.sparesItems : Impulse → Bool
  | event e => e.sparesItems
  | call _ _ => true

/-- Every stage changes the panel flag, the dismissal flag, or no item. -/
lemma Stage.eq_of_changes {stage : Stage} {key : String} (h : stage.request.changes key) :
    (key = panelOpenKey ∧ (stage = .openingPanel ∨ stage = .closingPanel)) ∨
      (key = dismissedKey ∧ (stage = .storingFlag ∨ stage = .removingFlag)) := by
  cases stage <;> simp [Stage.request, Request.changes] at h <;> simp [← h]

/-- A removal is asked for only by a flight that has just read the flag as pending. -/
lemma reads_of_removing {config : Config} {stage : Stage} {m : Memory}
    (h : (stage.resume config (Memory.answer stage.request m).1).next = .awaiting .removingFlag) :
    stage.request = .get dismissedKey ∧ m.items.lookup dismissedKey = some no := by
  cases stage with
  | readingFlagAtConnect =>
    refine ⟨rfl, ?_⟩
    simp only [Stage.request, Memory.answer] at h
    split at h
    · cases h
    · by_contra hflag
      have hq : pending (m.items.lookup dismissedKey) = false := decide_eq_false hflag
      simp only [Stage.resume, Memory.serve, hq] at h
      cases h
  | _ => simp only [Stage.resume] at h; (repeat' split at h) <;> cases h

namespace Session

/-- A removal is asked for only while the flag reads as pending. -/
lemma Enters.pending {s : Session Memory} {e : Event} (h : s.Enters e .removingFlag) :
    s.flag = some no := by
  cases h with
  | @start id f op _ _ _ next =>
    have hop := operation_of_start next
    subst hop
    cases next
  | @resume id f before _ _ _ next => exact (reads_of_removing next).2

lemma move_undergo (s : Session Memory) {i : Impulse} (h : i.sparesItems) :
    Move s (s.undergo i) := by
  cases i with
  | event e => exact move_step s h
  | call c op =>
    have h := Move.opened (s := s) [] c op
    rwa [log_nil] at h

/-- What a flight has done stays done. -/
lemma mem_doings_move {s s' : Session Memory} (hm : Move s s') {id : Nat} {d : Doing}
    (h : d ∈ s.doings id) : d ∈ s'.doings id := by
  cases hm with
  | aside _ _ _ _ doings _ => exact (doings id).symm ▸ h
  | opened rs c op =>
    rw [doings_call, doings_log]
    exact List.mem_append_left _ h
  | started =>
    rw [doings_follow]
    exact List.mem_append_left _ h
  | answered =>
    rw [doings_settle]
    exact List.mem_append_left _ h

/-- A move changes items only by an answer, and every change is on record. -/
lemma items_move {s s' : Session Memory} (hm : Move s s') :
    (s'.host.items = s.host.items ∧ ∀ key, s'.changed key = s.changed key) ∨
      ∃ f stage, s.flight? f.id = some f ∧ f.progress = .waiting stage ∧
        s' = ({ s with host := (Memory.answer stage.request s.host).2 }.settle f stage
          (Memory.answer stage.request s.host).1) := by
  cases hm with
  | aside _ _ _ items _ changed => exact .inl ⟨items, changed⟩
  | opened rs c op =>
    exact .inl ⟨rfl, fun key => (changed_call (s.log rs) c op key).trans (changed_log s rs key)⟩
  | @started f op => exact .inl ⟨follow_items .., changed_follow s f op.start⟩
  | answered found waiting => exact .inr ⟨_, _, found, waiting, rfl⟩

lemma lookup_answered (s : Session Memory) (f : Flight) (stage : Stage) (key : String) :
    ({ s with host := (Memory.answer stage.request s.host).2 }.settle f stage
      (Memory.answer stage.request s.host).1).host.items.lookup key =
      if (Memory.answer stage.request s.host).1.toBool ∧ stage.request.changes key then
        stage.request.leaves else s.host.items.lookup key := by
  rw [items_settle, Memory.lookup_answer, Request.itemAfter_eq]
  split <;> simp [*]

/-- The last change of an item accounts for what it holds, each change belongs to an operation
that makes it, and whoever waits to remove the flag would remove a pending one. -/
structure Traced (m : Memory) (s : Session Memory) : Prop where
  items : ∀ key, s.host.items.lookup key =
    (s.changed key).getLast?.elim (m.items.lookup key) (·.2.leaves)
  authors : ∀ key c, c ∈ s.changed key → ∃ stage : Stage, stage.request = c.2 ∧
    c.2.changes key ∧ .opened stage.operation ∈ s.doings c.1
  window : ∀ id f, s.flight? id = some f → f.progress = .waiting .removingFlag →
    s.flag = some no ∨ s.flag = none

lemma traced_new (config : Config) (m : Memory) : Traced m (.new config m) := by
  constructor <;> simp [new, changed, flight?]

/-- A flight that waits for its removal after a move waited for it before, or has just read the
flag as pending. -/
lemma removing_move {s s' : Session Memory} (hm : Move s s') {id : Nat} {f : Flight}
    (hf : s'.flight? id = some f) (hp : f.progress = .waiting .removingFlag) :
    s.flight? id = some f ∨ (s'.host.items = s.host.items ∧ s.flag = some no) := by
  cases hm with
  | aside _ flights => exact .inl (flights id f hf)
  | opened rs c op =>
    rw [flight?_call] at hf
    rcases Option.or_eq_some_iff.mp hf with hf | ⟨-, hf⟩
    · exact .inl hf
    · split at hf <;> cases hf
      cases hp
  | @started g op =>
    rw [flight?_follow] at hf
    split at hf
    · obtain ⟨stage, hn, hstage⟩ := waiting_of_next hf
      cases hstage.symm.trans hp
      cases op <;> simp only [Operation.start] at hn <;> (try split at hn) <;> cases hn
    · exact .inl hf
  | @answered g stage =>
    rw [settle, flight?_follow] at hf
    split at hf
    · obtain ⟨stage', hn, hstage⟩ := waiting_of_next hf
      cases hstage.symm.trans hp
      obtain ⟨hreq, hflag⟩ := reads_of_removing hn
      refine .inr ⟨?_, hflag⟩
      rw [items_settle, hreq]
      simp only [Memory.answer]
      split <;> rfl
    · exact .inl hf

lemma traced_move {m : Memory} {s s' : Session Memory} (hm : Move s s') (hr : Recorded s)
    (h : Traced m s) : Traced m s' := by
  have hwindow {id : Nat} {f : Flight} (hf : s'.flight? id = some f)
      (hp : f.progress = .waiting .removingFlag) : s.flag = some no ∨ s.flag = none := by
    rcases removing_move hm hf hp with hf | ⟨-, hflag⟩
    · exact h.window id f hf hp
    · exact .inl hflag
  rcases items_move hm with ⟨hitems, hchanged⟩ | ⟨f, stage, found, waiting, rfl⟩
  · refine ⟨fun key => ?_, fun key c hc => ?_, fun id f hf hp => ?_⟩
    · rw [hitems, hchanged, h.items]
    · rw [hchanged] at hc
      obtain ⟨stage, hreq, hch, hop⟩ := h.authors key c hc
      exact ⟨stage, hreq, hch, mem_doings_move hm hop⟩
    · rw [flag, hitems]
      exact hwindow hf hp
  · have hchanged (key : String) := changed_settle
      { s with host := (Memory.answer stage.request s.host).2 } f stage
      (Memory.answer stage.request s.host).1 key
    refine ⟨fun key => ?_, fun key c hc => ?_, fun id g hg hp => ?_⟩
    · rw [lookup_answered, hchanged]
      split
      · rw [List.getLast?_concat]
        rfl
      · rw [List.append_nil]
        exact h.items key
    · rw [hchanged] at hc
      rcases List.mem_append.mp hc with hc | hc
      · obtain ⟨stage, hreq, hch, hop⟩ := h.authors key c hc
        exact ⟨stage, hreq, hch, mem_doings_move hm hop⟩
      · split at hc
        · rename_i hdone
          cases List.mem_singleton.mp hc
          have hpath := hr.path f.id f found
          rw [waiting] at hpath
          exact ⟨stage, rfl, hdone.2, mem_doings_move hm (hpath.opened_iff.mpr rfl)⟩
        · cases hc
    · rw [flag, lookup_answered]
      split
      · rename_i hdone
        rcases Stage.eq_of_changes hdone.2 with ⟨hkey, -⟩ | ⟨-, rfl | rfl⟩
        · exact absurd hkey (by decide)
        · exact .inl rfl
        · exact .inr rfl
      · exact hwindow hg hp

lemma traced_foldl {config : Config} {m : Memory} {is : List Impulse}
    (his : ∀ i ∈ is, i.sparesItems) :
    Recorded (is.foldl undergo (.new config m)) ∧ Traced m (is.foldl undergo (.new config m)) := by
  induction is using List.reverseRecOn with
  | nil => exact ⟨recorded_new config m, traced_new config m⟩
  | append_singleton is i ih =>
    obtain ⟨hr, ht⟩ := ih fun j hj => his j (List.mem_append_left _ hj)
    have hm := move_undergo (is.foldl undergo (.new config m)) (his i (by simp))
    rw [List.foldl_append]
    exact ⟨recorded_move hm hr, traced_move hm hr ht⟩

/-- How what is stored comes from what the controllers did, on a host that began as this one. -/
structure StorageAccounted (m : Memory) (s : Session Memory) : Prop where
  /-- No other item is touched. -/
  others : ∀ key, key ≠ panelOpenKey → key ≠ dismissedKey →
    s.host.items.lookup key = m.items.lookup key
  /-- The panel flag tells whether a connection or a disconnection was the last to write it. -/
  panel : match (s.changed panelOpenKey).getLast? with
    | none => s.host.items.lookup panelOpenKey = m.items.lookup panelOpenKey
    | some (id, r) =>
      (.opened .connect ∈ s.doings id ∧ r = .set panelOpenKey yes ∧
        s.host.items.lookup panelOpenKey = some yes) ∨
      (.opened .disconnect ∈ s.doings id ∧ r = .set panelOpenKey no ∧
        s.host.items.lookup panelOpenKey = some no)
  /-- The dismissal flag tells whether an installation wrote it last or a connection removed it. -/
  flag : match (s.changed dismissedKey).getLast? with
    | none => s.flag = m.items.lookup dismissedKey
    | some (id, r) =>
      (.opened (.installed "install") ∈ s.doings id ∧ r = .set dismissedKey no ∧
        s.flag = some no) ∨
      (.opened .connect ∈ s.doings id ∧ r = .remove dismissedKey ∧ s.flag = none)
  /-- A flight is at one operation only. -/
  once : ∀ id op op', .opened op ∈ s.doings id → .opened op' ∈ s.doings id → op = op'
  /-- Whoever asks for a removal is a connection, and does so once, after it tried to write the
  panel flag, read the dismissal flag as pending and told the badge to clear. -/
  removals : ∀ id key, Removes key (s.doings id) → key = dismissedKey ∧
    ∃ o rest, s.doings id = dismissal o ++ rest ∧
      (rest = [] ∨ ∃ o', rest = [.answered (.remove dismissedKey) o', .finished none])

lemma Traced.accounted {m : Memory} {s : Session Memory} (h : Traced m s) (hr : Recorded s) :
    StorageAccounted m s := by
  -- the last change of an item, with the stage that asked for it
  have last {key : String} {id : Nat} {r : Request}
      (hl : (s.changed key).getLast? = some (id, r)) : ∃ stage : Stage, stage.request = r ∧
      stage.request.changes key ∧ .opened stage.operation ∈ s.doings id ∧
      s.host.items.lookup key = stage.request.leaves := by
    obtain ⟨stage, hreq, hch, hop⟩ := h.authors key _ (List.mem_of_getLast? hl)
    refine ⟨stage, hreq, hreq ▸ hch, hop, ?_⟩
    rw [h.items, hl]
    exact congrArg Request.leaves hreq.symm
  refine ⟨fun key hpanel hflag => ?_, ?_, ?_, hr.once, hr.removed⟩
  · rw [h.items]
    cases hl : (s.changed key).getLast? with
    | none => rfl
    | some c =>
      obtain ⟨stage, -, hch, -⟩ := last hl
      rcases Stage.eq_of_changes hch with ⟨hkey, -⟩ | ⟨hkey, -⟩
      · exact absurd hkey hpanel
      · exact absurd hkey hflag
  · cases hl : (s.changed panelOpenKey).getLast? with
    | none => exact (h.items panelOpenKey).trans (by rw [hl]; rfl)
    | some c =>
      obtain ⟨stage, hreq, hch, hop, hlook⟩ := last hl
      rcases Stage.eq_of_changes hch with ⟨-, rfl | rfl⟩ | ⟨hkey, -⟩
      · exact .inl ⟨hop, hreq.symm, hlook⟩
      · exact .inr ⟨hop, hreq.symm, hlook⟩
      · exact absurd hkey (by decide)
  · cases hl : (s.changed dismissedKey).getLast? with
    | none => exact (h.items dismissedKey).trans (by rw [hl]; rfl)
    | some c =>
      obtain ⟨stage, hreq, hch, hop, hlook⟩ := last hl
      rcases Stage.eq_of_changes hch with ⟨hkey, -⟩ | ⟨-, rfl | rfl⟩
      · exact absurd hkey (by decide)
      · exact .inl ⟨hop, hreq.symm, hlook⟩
      · exact .inr ⟨hop, hreq.symm, hlook⟩

end Session

/-- **The storage is accounted for.** However the operations of several controllers interleave on
one host that nobody else writes to, and whatever fails, is dropped or restarted: at every point
the storage is what the recorded changes made of it, and what goes next is never a removal of
another value than the pending flag. -/
theorem storage_accounted (config : Config) (m : Memory) (is : List Impulse)
    (his : ∀ i ∈ is, i.sparesItems) :
    let s := is.foldl Session.undergo (.new config m)
    s.StorageAccounted m ∧
      ∀ i : Impulse, i.sparesItems → ∀ v, s.flag = some v → (s.undergo i).flag = none → v = no := by
  intro s
  obtain ⟨hr, ht⟩ : Session.Recorded s ∧ Session.Traced m s := Session.traced_foldl his
  refine ⟨ht.accounted hr, fun i hi v hv hnone => ?_⟩
  rcases Session.items_move (Session.move_undergo s hi) with
    ⟨hitems, -⟩ | ⟨f, stage, found, waiting, hs'⟩
  · rw [Session.flag, hitems, ← Session.flag, hv] at hnone
    cases hnone
  · rw [hs', Session.flag, Session.lookup_answered] at hnone
    split at hnone
    · rename_i hdone
      rcases Stage.eq_of_changes hdone.2 with ⟨hkey, -⟩ | ⟨-, rfl | rfl⟩
      · exact absurd hkey (by decide)
      · cases hnone
      · -- the flag is as the flight read it, or another removal was faster
        rcases ht.window f.id f found waiting with hflag | hflag
        · exact (Option.some.inj (hflag.symm.trans hv)).symm
        · cases hflag.symm.trans hv
    · cases hnone.symm.trans hv

/-- Two controllers: an installation of the second rewrites the flag between the reading and the
removal of the first. -/
theorem storage_accounted_for_two :
    let m : Memory := ⟨[("other", "x"), (dismissedKey, no)], none, none, none, [], none, false, []⟩
    let is : List Impulse := [.call 0 .connect, .event (.start 0), .event (.resume 0),
      .event (.resume 0), .event .restart, .call 1 (.installed "install"), .event (.start 1),
      .event (.resume 1), .event (.resume 0), .call 0 .disconnect, .event (.start 2),
      .event (.drop 2)]
    let s := is.foldl Session.undergo (.new Config.initial m)
    (∀ i ∈ is, i.sparesItems) ∧ s.StorageAccounted m ∧
      s.changed panelOpenKey = [(0, .set panelOpenKey yes)] ∧
      s.changed dismissedKey = [(1, .set dismissedKey no), (0, .remove dismissedKey)] ∧
      s.flag = none := by
  intro m is s
  have his : ∀ i ∈ is, i.sparesItems := by decide
  exact ⟨his, (storage_accounted Config.initial m is his).1, by decide +kernel, by decide +kernel,
    by decide +kernel⟩

end Notification

end Tipping
