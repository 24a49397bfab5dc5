import Tipping.Proofs.Background.Chrome
import Tipping.Proofs.Keyed

/-!
The browser's storage as a map of texts.

The browser keeps items by key, whatever their values, and each of its calls works on all the items
that it names. Requests made one after the other, each when the one before is over, see a map from
keys to texts: a key has the text that the last request of the key to succeed gave it, and what it
has at first is the item that is kept then, if that is a text. A request fails with its call, and a
failed call is as if it had not been made.
-/

namespace Tipping

/-- The key that a request to the storage is about. -/
def Request.key? : Request → Option String
  | get k => some k
  | set k _ => some k
  | remove k => some k
  | _ => none

namespace Browser

/-! ### What is assumed of the browser -/

/-- A browser, the items in its storage, and how a call ends that it left open. -/
class Storing (β : Type) extends Host β where
  items : β → String → Option JsValue
  settle : Invocation → β → CallEvent × β

/-- The value shows the items of these keys. For a key without an item there may be no member or
an undefined one, and for no items at all there may be no object. -/
inductive ShowsItems (items : String → Option JsValue) (ks : List String) : JsValue → Prop where
  | object {ms : List (String × JsValue)}
      (h : ∀ k ∈ ks, (ms.lookup k).getD .undefined = (items k).getD .undefined) :
      ShowsItems items ks (.object ms)
  | nothing {v : JsValue} (hv : v.isNullish = true) (h : ∀ k ∈ ks, items k = none) :
      ShowsItems items ks v

section

variable {β : Type} [Storing β]

/-- The first event of a call, be it at once or later. -/
def completed (i : Invocation) (b : β) : CallEvent × β :=
  match Host.invoke i b with
  | (e :: _, b) => (e, b)
  | ([], b) => Storing.settle i b

/-- The call fails and has no effect, or its callback is given such a value and these items are
kept. -/
def Completes (i : Invocation) (b : β) (Answers : JsValue → Prop)
    (after : String → Option JsValue) : Prop :=
  ((completed i b).1.Failed ∧ Storing.items (completed i b).2 = Storing.items b) ∨
    (∃ v g, (completed i b).1 = .calledBack v g ∧ lastError? g = none ∧ Answers v) ∧
      Storing.items (completed i b).2 = after

end

/-- What the storage does for any number of keys. -/
structure KeepsItems (β : Type) [Storing β] : Prop where
  get : ∀ (ks : List String) (b : β), Completes ⟨.storageGet, [.array (ks.map .string)]⟩ b
    (ShowsItems (Storing.items b) ks) (Storing.items b)
  set : ∀ (ts : List (String × String)) (b : β), (ts.map Prod.fst).Nodup →
    Completes ⟨.storageSet, [.object (ts.map fun (k, t) => (k, .string t))]⟩ b (fun _ => True)
      fun k => ((ts.lookup k).map .string).or (Storing.items b k)
  remove : ∀ (ks : List String) (b : β), Completes ⟨.storageRemove, [.array (ks.map .string)]⟩ b
    (fun _ => True) fun k => if k ∈ ks then none else Storing.items b k

/-! ### Requests in turn -/

/-- A request that is over, the event that ended its call, and what came of it. -/
structure Finished where
  request : Request
  event : CallEvent
  outcome : request.Outcome

def Finished.Failed (d : Finished) : Prop := ∃ f, d.outcome = .error f

/-- What a request that succeeded did to the key: the text it has since, or none. -/
def Finished.change? (k : String) : Finished → Option (Option String)
  | ⟨.set k' t, _, .ok ()⟩ => if k = k' then some (some t) else none
  | ⟨.remove k', _, .ok ()⟩ => if k = k' then some none else none
  | _ => none

/-- What the last change of the key left, or what there was at first. -/
def lastLeft (k : String) (first : Option String) (ds : List Finished) : Option String :=
  (ds.filterMap (Finished.change? k)).getLast?.getD first

section

variable {β : Type} [Storing β]

/-- Makes a request, and waits for what comes of it. -/
def finish (r : Request) (b : β) : r.Outcome × β :=
  match ask r b with
  | (some outcome, b) => (outcome, b)
  | (none, b) =>
    let (e, b) := Storing.settle (invocation r) b
    (outcome r e.settlement, b)

def finished (r : Request) (b : β) : Finished :=
  ⟨r, (completed (invocation r) b).1, (finish r b).1⟩

/-- Makes the requests one after the other. -/
def inTurn : List Request → β → List Finished × β
  | [], b => ([], b)
  | r :: rs, b =>
    let (ds, b') := inTurn rs (finish r b).2
    (finished r b :: ds, b')

lemma finish_eq (r : Request) (b : β) : finish r b =
    (outcome r (completed (invocation r) b).1.settlement, (completed (invocation r) b).2) := by
  unfold finish ask completed
  -- at once or later, what settles the request is the first event
  generalize Host.invoke (invocation r) b = called
  obtain ⟨events, b'⟩ := called
  cases events <;> rfl

/-! ### One request -/

lemma itemOf_of_shows {items : String → Option JsValue} {k : String} {v : JsValue}
    (h : ShowsItems items [k] v) : itemOf k v = .ok ((items k).bind JsValue.string?) := by
  cases h with
  | object h =>
    have hk := h k (List.mem_singleton.mpr rfl)
    simp only [itemOf, JsValue.isNullish, JsValue.property, hk, Bool.false_eq_true, if_false]
    cases items k <;> rfl
  | nothing hv h => simp [itemOf, hv, h k (List.mem_singleton.mpr rfl)]

/-- A request fails with its call, or it is answered from what the callback is given. -/
lemma Completes.failed_or {r : Request} {b : β} {Answers : JsValue → Prop}
    {after : String → Option JsValue} (h : Completes (invocation r) b Answers after) :
    ((finished r b).event.Failed ∧ Storing.items (finish r b).2 = Storing.items b ∧
      ∃ reason, (finish r b).1 = .error ((thrown reason).during (context r))) ∨
    (¬(finished r b).event.Failed ∧ Storing.items (finish r b).2 = after ∧
      ∃ v, Answers v ∧ (finish r b).1 = answerOf r v) := by
  simp only [finish_eq, finished]
  rcases h with ⟨hfailed, hitems⟩ | ⟨⟨v, g, he, hg, hv⟩, hitems⟩
  · obtain ⟨reason, hreason⟩ := CallEvent.settlement_of_failed hfailed
    exact .inl ⟨hfailed, hitems, reason, by rw [hreason]; rfl⟩
  · refine .inr ⟨fun hfailed => ?_, hitems, v, hv, ?_⟩
    · rw [he] at hfailed
      exact hfailed hg
    · rw [he, CallEvent.settlement_of_lastError hg]
      rfl

end

/-- What a request did, from the items before it and after it. -/
structure Finished.Between (d : Finished) (before after : String → Option JsValue) : Prop where
  failed : d.Failed ↔ d.event.Failed
  message : ∀ f, d.outcome = .error f → f.message = context d.request
  items : ∀ k, after k = ((d.change? k).map (Option.map .string)).getD (before k)
  item : ∀ k e item, d = ⟨.get k, e, .ok item⟩ → item = (before k).bind JsValue.string?

namespace Finished

lemma change?_of_failed {d : Finished} (h : d.Failed) (k : String) : d.change? k = none := by
  obtain ⟨r, e, o⟩ := d
  obtain ⟨f, hf⟩ := h
  change o = (.error f : r.Outcome) at hf
  subst hf
  cases r <;> rfl

lemma change?_of_ne {d : Finished} {k : String} (h : d.request.key? ≠ some k) :
    d.change? k = none := by
  obtain ⟨r, e, o⟩ := d
  cases r with
  | set k' t =>
    have hk : k ≠ k' := fun hk => h (congrArg some hk.symm)
    cases o <;> simp [change?, hk]
  | remove k' =>
    have hk : k ≠ k' := fun hk => h (congrArg some hk.symm)
    cases o <;> simp [change?, hk]
  | _ => rfl

lemma between_of_failed {d : Finished} {before : String → Option JsValue} {reason : JsValue}
    (he : d.event.Failed)
    (ho : d.outcome = .error ((thrown reason).during (context d.request))) :
    d.Between before before where
  failed := iff_of_true ⟨_, ho⟩ he
  message f hf := by
    cases ho.symm.trans hf
    rfl
  items k := by rw [change?_of_failed ⟨_, ho⟩, Option.map_none, Option.getD_none]
  item k e item hd := by
    subst hd
    cases ho

lemma between_of_ok {r : Request} {e : CallEvent} {a : r.Answer}
    {before after : String → Option JsValue} (he : ¬e.Failed)
    (hitems : ∀ k, after k =
      ((change? k ⟨r, e, .ok a⟩).map (Option.map .string)).getD (before k))
    (hitem : ∀ k item, (⟨r, e, .ok a⟩ : Finished) = ⟨.get k, e, .ok item⟩ →
      item = (before k).bind JsValue.string?) :
    Between ⟨r, e, .ok a⟩ before after where
  failed := iff_of_false nofun he
  message := nofun
  items := hitems
  item k e' item hd := by
    have he' : e = e' := congrArg Finished.event hd
    subst he'
    exact hitem k item hd

end Finished

section

variable {β : Type} [Storing β]

/-- A request whose answer is right whenever its call succeeds. -/
lemma Completes.between {r : Request} {b : β} {Answers : JsValue → Prop}
    {after : String → Option JsValue} (h : Completes (invocation r) b Answers after)
    (hanswer : ∀ v, Answers v → ∃ a, answerOf r v = .ok a ∧
      ∀ e, ¬e.Failed → Finished.Between ⟨r, e, .ok a⟩ (Storing.items b) after) :
    (finished r b).Between (Storing.items b) (Storing.items (finish r b).2) := by
  rcases h.failed_or with ⟨he, hitems, reason, ho⟩ | ⟨he, hitems, v, hv, ho⟩
  · rw [hitems]
    exact Finished.between_of_failed he ho
  · obtain ⟨a, ha, hbetween⟩ := hanswer v hv
    rw [hitems, finished, ho, ha]
    exact hbetween _ he

/-- **A request does to the items what its call does.** -/
theorem KeepsItems.between (h : KeepsItems β) {r : Request} (hr : r.key?.isSome = true) (b : β) :
    (finished r b).Between (Storing.items b) (Storing.items (finish r b).2) := by
  cases r with
  | get k =>
    have hcall : Completes (invocation (.get k)) b _ _ := h.get [k] b
    refine hcall.between fun v hv => ⟨_, itemOf_of_shows hv, fun e he => ?_⟩
    refine Finished.between_of_ok he (fun _ => rfl) fun k' item hd => ?_
    cases hd
    rfl
  | set k t =>
    have hcall : Completes (invocation (.set k t)) b _ _ :=
      h.set [(k, t)] b (List.nodup_singleton k)
    refine hcall.between fun _ _ => ⟨(), rfl, fun e he => ?_⟩
    refine Finished.between_of_ok he (fun k' => ?_) nofun
    simp only [Finished.change?, Keyed.lookup_cons]
    by_cases hk : k' = k <;> simp [hk]
  | remove k =>
    have hcall : Completes (invocation (.remove k)) b _ _ := h.remove [k] b
    refine hcall.between fun _ _ => ⟨(), rfl, fun e he => ?_⟩
    refine Finished.between_of_ok he (fun k' => ?_) nofun
    simp only [Finished.change?, List.mem_singleton]
    by_cases hk : k' = k <;> simp [hk]
  | _ => cases hr

/-! ### Requests in turn -/

lemma lastLeft_cons (k : String) (first : Option String) (d : Finished) (ds : List Finished) :
    lastLeft k first (d :: ds) = lastLeft k ((d.change? k).getD first) ds := by
  cases hd : d.change? k with
  | none => simp [lastLeft, hd]
  | some c => simp [lastLeft, hd, List.getLast?_cons]

lemma lastLeft_append {k : String} {first : Option String} {ds ds' : List Finished}
    (h : ∀ d ∈ ds', d.change? k = none) : lastLeft k first (ds ++ ds') = lastLeft k first ds := by
  rw [lastLeft, List.filterMap_append, List.filterMap_eq_nil_iff.mpr h, List.append_nil, lastLeft]

/-- The requests before one in the row, and the browser that they leave to it. -/
lemma inTurn_split {rs : List Request} {b : β} {ds : List Finished} {d : Finished}
    {ds' : List Finished} (h : (inTurn rs b).1 = ds ++ d :: ds') :
    ∃ rs₁ r rs₂, rs = rs₁ ++ r :: rs₂ ∧ (inTurn rs₁ b).1 = ds ∧
      d = finished r (inTurn rs₁ b).2 := by
  induction ds generalizing rs b with
  | nil =>
    cases rs with
    | nil => cases h
    | cons r rs => exact ⟨[], r, rs, rfl, rfl, (List.cons.inj h).1.symm⟩
  | cons d₀ ds ih =>
    cases rs with
    | nil => cases h
    | cons r rs =>
      obtain ⟨hd, hds⟩ := List.cons.inj h
      obtain ⟨rs₁, r', rs₂, hrs, hrun, hd'⟩ := ih hds
      exact ⟨r :: rs₁, r', rs₂, by rw [hrs]; rfl, by rw [← hd, ← hrun]; rfl, hd'⟩

lemma KeepsItems.text_inTurn (h : KeepsItems β) (k : String) {rs : List Request}
    (hrs : ∀ r ∈ rs, r.key?.isSome = true) (b : β) :
    (Storing.items (inTurn rs b).2 k).bind JsValue.string? =
      lastLeft k ((Storing.items b k).bind JsValue.string?) (inTurn rs b).1 := by
  induction rs generalizing b with
  | nil => rfl
  | cons r rs ih =>
    obtain ⟨hr, hrest⟩ := List.forall_mem_cons.mp hrs
    have hstep : (Storing.items (finish r b).2 k).bind JsValue.string? =
        ((finished r b).change? k).getD ((Storing.items b k).bind JsValue.string?) := by
      rw [(h.between hr b).items k]
      rcases (finished r b).change? k with _ | (_ | t) <;> rfl
    -- the others start from what the first one left
    exact (ih hrest (finish r b).2).trans (by rw [hstep, inTurn, lastLeft_cons])

/-- A reading tells what the requests before it have left. -/
lemma KeepsItems.item_of_inTurn (h : KeepsItems β) {rs : List Request}
    (hrs : ∀ r ∈ rs, r.key?.isSome = true) {b : β} {k : String} {e : CallEvent}
    {item : Option String} {ds ds' : List Finished}
    (htrace : (inTurn rs b).1 = ds ++ ⟨.get k, e, .ok item⟩ :: ds') :
    item = lastLeft k ((Storing.items b k).bind JsValue.string?) ds := by
  obtain ⟨rs₁, r, rs₂, rfl, hrun, hd⟩ := inTurn_split htrace
  obtain ⟨hrs₁, hr⟩ := List.forall_mem_append.mp hrs
  have hitem := (h.between (hr r List.mem_cons_self) (inTurn rs₁ b).2).item k e item hd.symm
  rw [hitem, h.text_inTurn k hrs₁ b, hrun]

lemma requests_inTurn (rs : List Request) (b : β) :
    (inTurn rs b).1.map Finished.request = rs := by
  induction rs generalizing b with
  | nil => rfl
  | cons r rs ih => exact congrArg (r :: ·) (ih (finish r b).2)

lemma KeepsItems.items_inTurn_of_ne (h : KeepsItems β) {k : String} {rs : List Request}
    (hrs : ∀ r ∈ rs, r.key?.isSome = true) (hk : ∀ r ∈ rs, r.key? ≠ some k) (b : β) :
    Storing.items (inTurn rs b).2 k = Storing.items b k := by
  induction rs generalizing b with
  | nil => rfl
  | cons r rs ih =>
    obtain ⟨hr, hrest⟩ := List.forall_mem_cons.mp hrs
    obtain ⟨hkr, hkrest⟩ := List.forall_mem_cons.mp hk
    refine (ih hrest hkrest (finish r b).2).trans ?_
    rw [(h.between hr b).items k, Finished.change?_of_ne hkr, Option.map_none, Option.getD_none]

/-- **The storage is a map of texts.** Of requests to it that are made one after the other each is
over, and has failed if and only if its call has, with a failure that names the operation and the
key. A reading that succeeds tells what the last change of the key left, or at first the item if it
is a text. The items of other keys stay what they are, and so does what is read between requests of
other keys. -/
theorem storage_is_map_of_texts (h : KeepsItems β) (rs : List Request)
    (hrs : ∀ r ∈ rs, r.key?.isSome = true) (b : β) :
    (inTurn rs b).1.map Finished.request = rs ∧
    (∀ d ∈ (inTurn rs b).1, (d.Failed ↔ d.event.Failed) ∧
      ∀ f, d.outcome = .error f → f.message = context d.request) ∧
    (∀ k e item ds ds', (inTurn rs b).1 = ds ++ ⟨.get k, e, .ok item⟩ :: ds' →
      item = lastLeft k ((Storing.items b k).bind JsValue.string?) ds) ∧
    (∀ k, (∀ r ∈ rs, r.key? ≠ some k) →
      Storing.items (inTurn rs b).2 k = Storing.items b k) ∧
    (∀ k e e' item item' ds ds' ds'', (inTurn rs b).1 =
        ds ++ ⟨.get k, e, .ok item⟩ :: (ds' ++ ⟨.get k, e', .ok item'⟩ :: ds'') →
      (∀ d ∈ ds', d.request.key? ≠ some k) → item' = item) := by
  refine ⟨requests_inTurn rs b, fun d hd => ?_, fun _ _ _ _ _ => h.item_of_inTurn hrs,
    fun k hk => h.items_inTurn_of_ne hrs hk b, ?_⟩
  · obtain ⟨ds, ds', htrace⟩ := List.append_of_mem hd
    obtain ⟨rs₁, r, rs₂, rfl, -, rfl⟩ := inTurn_split htrace
    have hr := hrs r (by simp)
    exact ⟨(h.between hr _).failed, (h.between hr _).message⟩
  · intro k e e' item item' ds ds' ds'' htrace hk
    -- a reading changes nothing either, so both tell what was left before the first
    have hchange : ∀ d ∈ (⟨.get k, e, .ok item⟩ : Finished) :: ds', d.change? k = none :=
      List.forall_mem_cons.mpr ⟨rfl, fun d hd => Finished.change?_of_ne (hk d hd)⟩
    have htrace' : (inTurn rs b).1 =
        (ds ++ ⟨.get k, e, .ok item⟩ :: ds') ++ ⟨.get k, e', .ok item'⟩ :: ds'' := by
      rw [htrace, List.append_assoc, List.cons_append]
    rw [h.item_of_inTurn hrs htrace', lastLeft_append hchange, ← h.item_of_inTurn hrs htrace]

end

/-! ### A browser that keeps items -/

/-- What becomes of a call. -/
inductive Shelf.Mood where
  | willing | throwing | reporting

/-- A storage of any values, with the moods that the next calls will meet. It answers at once when
it is read, and later when it is changed. -/
structure Shelf where
  kept : List (String × JsValue)
  moods : List Shelf.Mood

namespace Shelf

def answer : Invocation → List (String × JsValue) → Option (JsValue × List (String × JsValue))
  | ⟨.storageGet, [.array ks]⟩, kept =>
    some (.object (kept.filter (decide <| ·.1 ∈ ks.filterMap JsValue.string?)), kept)
  | ⟨.storageSet, [.object ms]⟩, kept => some (.undefined, ms ++ kept)
  | ⟨.storageRemove, [.array ks]⟩, kept =>
    some (.undefined, kept.filter (decide <| ·.1 ∉ ks.filterMap JsValue.string?))
  | _, _ => none

def perform (i : Invocation) (s : Shelf) : CallEvent × Shelf :=
  match s.moods, answer i s.kept with
  | .throwing :: moods, _ => (.threw (.string "out of order"), ⟨s.kept, moods⟩)
  | .reporting :: moods, _ => (.calledBack .undefined SmallChrome.alarmed, ⟨s.kept, moods⟩)
  | moods, some (v, kept) => (.calledBack v SmallChrome.calm, ⟨kept, moods.tail⟩)
  | moods, none => (.threw .undefined, ⟨s.kept, moods.tail⟩)

instance : Storing Shelf where
  invoke i s :=
    match i.api with
    | .storageGet =>
      let (e, s) := perform i s
      ([e], s)
    | _ => ([], s)
  call _ s := (.ok (), s)
  reply _ _ s := (.ok (), s)
  items s k := s.kept.lookup k
  settle := perform

lemma completed_eq (i : Invocation) (s : Shelf) : completed i s = perform i s := by
  obtain ⟨api, arguments⟩ := i
  cases api <;> rfl

lemma completes {i : Invocation} {s : Shelf} {v : JsValue} {kept : List (String × JsValue)}
    {Answers : JsValue → Prop} {after : String → Option JsValue}
    (hi : answer i s.kept = some (v, kept)) (hv : Answers v)
    (hafter : ∀ k, kept.lookup k = after k) : Completes i s Answers after := by
  obtain ⟨items, moods⟩ := s
  rw [Completes, completed_eq]
  simp only [perform]
  rw [hi]
  rcases moods with _ | ⟨_ | _ | _, moods⟩
  · exact .inr ⟨⟨v, _, rfl, SmallChrome.lastError?_calm, hv⟩, funext hafter⟩
  · exact .inr ⟨⟨v, _, rfl, SmallChrome.lastError?_calm, hv⟩, funext hafter⟩
  · exact .inl ⟨trivial, rfl⟩
  · exact .inl ⟨SmallChrome.lastError?_alarmed, rfl⟩

lemma filterMap_string? (ks : List String) :
    (ks.map JsValue.string).filterMap JsValue.string? = ks := by
  rw [List.filterMap_map]
  exact List.filterMap_some

lemma keepsItems : KeepsItems Shelf where
  get ks s := by
    refine completes rfl (.object fun k hk => ?_) fun _ => rfl
    rw [filterMap_string?, Keyed.lookup_filter (decide <| · ∈ ks), if_pos (decide_eq_true hk)]
    rfl
  set ts s _ := by
    refine completes rfl trivial fun k => ?_
    have htexts : (ts.map fun (k, t) => (k, JsValue.string t)).lookup k =
        (ts.lookup k).map .string := Keyed.lookup_mapValues JsValue.string ts k
    rw [List.lookup_append, htexts]
    rfl
  remove ks s := by
    refine completes rfl trivial fun k => ?_
    rw [filterMap_string?, Keyed.lookup_filter (decide <| · ∉ ks)]
    by_cases hk : k ∈ ks
    · rw [if_pos hk, if_neg (by simpa using hk)]
    · rw [if_neg hk, if_pos (by simpa using hk)]
      rfl

end Shelf

/-- A number gives way to a text, which stays when its removal is refused, while another key cannot
be read. -/
theorem storage_is_map_of_texts_on_shelf :
    let s : Shelf := ⟨[("a", .number .nan), ("b", .string "old")],
      [.willing, .willing, .throwing, .reporting, .willing]⟩
    let rs : List Request := [.get "a", .set "a" "new", .remove "a", .get "b", .get "a"]
    KeepsItems Shelf ∧ (∀ r ∈ rs, r.key?.isSome = true) ∧
      ∃ e₁ e₂ e₃ e₄ e₅ f₃ f₄, ∃ ds : List Finished,
        ds = [⟨.get "a", e₁, .ok none⟩, ⟨.set "a" "new", e₂, .ok ()⟩,
          ⟨.remove "a", e₃, .error f₃⟩, ⟨.get "b", e₄, .error f₄⟩] ∧
        (inTurn rs s).1 = ds ++ [⟨.get "a", e₅, .ok (some "new")⟩] ∧
        f₃.message = "chrome.storage.local.remove(a)" ∧
        f₄.message = "chrome.storage.local.get(b)" ∧
        some "new" = lastLeft "a" none ds := by
  intro s rs
  have hrs : ∀ r ∈ rs, r.key?.isSome = true := by decide
  have hmap := storage_is_map_of_texts Shelf.keepsItems rs hrs s
  refine ⟨Shelf.keepsItems, hrs, _, _, _, _, _, _, _, _, rfl, rfl, ?_, ?_, ?_⟩
  · exact (hmap.2.1 _ (.tail _ (.tail _ (.head _)))).2 _ rfl
  · exact (hmap.2.1 _ (.tail _ (.tail _ (.tail _ (.head _))))).2 _ rfl
  · exact hmap.2.2.1 _ _ _ _ _ rfl

/-- A key without a text in the end although it had one at first, and no text was set. -/
theorem removed_not_read :
    let s : Shelf := ⟨[("k", .string "old")], []⟩
    KeepsItems Shelf ∧ Storing.items s "k" = some (.string "old") ∧
      ∃ e e', (inTurn [.remove "k", .get "k"] s).1 =
        [⟨.remove "k", e, .ok ()⟩, ⟨.get "k", e', .ok none⟩] :=
  ⟨Shelf.keepsItems, rfl, _, _, rfl⟩

end Browser

end Tipping
