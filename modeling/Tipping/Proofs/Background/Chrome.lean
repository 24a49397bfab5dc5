import Tipping.Background
import Tipping.Notification.Memory
import Tipping.Proofs.Binary64

/-!
What the program relies on in its browser.

A browser that can be relied on keeps what a host in memory keeps: a call that it takes does to it
what the request or the notice does to the memory, a call that it refuses does nothing. It may end
a call at once or later, and refuse it by throwing or by reporting an error.
-/

namespace Tipping.Browser

open Notification

/-- A browser, what it keeps and which calls it is about to refuse, how a call ends that it left
open, and what others do to it. -/
class Kept (β : Type) extends Host β where
  memory : β → Memory
  settle : Invocation → β → CallEvent × β
  change : Change → β → β

def CallEvent.Failed : CallEvent → Prop
  | .calledBack _ globalObject => lastError? globalObject ≠ none
  | .threw _ => True

/-- The array is empty, or it starts with a tab that has this number or none. -/
def ShowsTab : Option Tab → JsValue → Prop
  | none, v => v = .array []
  | some ⟨none⟩, v => ∃ ms rest, v = .array (.object ms :: rest) ∧ ms.lookup "id" = none
  | some ⟨some n⟩, v => ∃ ms rest x, v = .array (.object ms :: rest) ∧
      ms.lookup "id" = some (.number (.finite x)) ∧ Binary64.ofInt? n.val = some x

section

variable {β : Type} [Kept β]

/-- The first event of a call, be it at once or later. -/
def ending (i : Invocation) (b : β) : CallEvent × β :=
  match Host.invoke i b with
  | (e :: _, b) => (e, b)
  | ([], b) => Kept.settle i b

variable (β) in
/-- The call is to the browser what the request is to its memory: it fails and has no effect, or it
has the effect and its callback is shown the answer. -/
def Serves (r : Request) (i : Invocation) (Shows : r.Answer → JsValue → Prop) : Prop :=
  ∀ b : β, match (Kept.memory b).planned? (Memory.targets r) with
    | some _ => (ending i b).1.Failed ∧ Kept.memory (ending i b).2 = Kept.memory b
    | none =>
      (∃ v g, (ending i b).1 = .calledBack v g ∧ lastError? g = none ∧
        Shows (Memory.serve r (Kept.memory b)).1 v) ∧
      Kept.memory (ending i b).2 = (Memory.serve r (Kept.memory b)).2

variable (β) in
/-- The call is to the browser what the notice is to its memory. -/
def Takes (n : Notice) (i : Invocation) : Prop :=
  ∀ b : β, match (Kept.memory b).planned? [Memory.noticeTarget n] with
    | some _ => (∃ v, (Host.call i b).1 = .error v) ∧
        Kept.memory (Host.call i b).2 = Kept.memory b
    | none => (Host.call i b).1 = .ok () ∧
        Kept.memory (Host.call i b).2 = Memory.take n (Kept.memory b)

end

/-- The browser can be relied on. -/
structure Reliable (β : Type) [Kept β] : Prop where
  get : ∀ k, Serves β (.get k) ⟨.storageGet, [.array [.string k]]⟩
    fun item v => ∃ ms, v = .object ms ∧ ms.lookup k = item.map .string
  set : ∀ k t, Serves β (.set k t) ⟨.storageSet, [.object [(k, .string t)]]⟩ fun _ _ => True
  remove : ∀ k, Serves β (.remove k) ⟨.storageRemove, [.array [.string k]]⟩ fun _ _ => True
  tabs : Serves β .activeTab
    ⟨.tabsQuery, [.object [("active", .bool true), ("currentWindow", .bool true)]]⟩ ShowsTab
  enabled : Serves β .rewardsEnabled ⟨.getRewardsMainEnabled, []⟩ fun b v => v = .bool b
  color : ∀ c, Takes β (.color c) ⟨.setBadgeBackgroundColor, [.object [("color", .string c)]]⟩
  icons : ∀ small medium large, Takes β (.icons ⟨small, medium, large⟩) ⟨.setIcon,
    [.object [("path",
      .object [("18", .string small), ("36", .string medium), ("54", .string large)])]]⟩
  text : ∀ t, Takes β (.text t) ⟨.setBadgeText, [.object [("text", .string t)]]⟩
  donate : ∀ (n : Signed32) tip x, Binary64.ofInt? n.val = some x →
    Takes β (.donate n tip) ⟨.donateToTwitterUser, [.number (.finite x), .string tip.userId,
      .string tip.name, .string tip.screenName, .string tip.tweetText]⟩
  reply : ∀ id v (b : β), Kept.memory (Host.reply id v b).2 = Kept.memory b
  change : ∀ c (b : β), Kept.memory (Kept.change c b) = c.apply (Kept.memory b)

/-! ### The adapters -/

lemma CallEvent.settlement_of_failed {e : CallEvent} (h : e.Failed) :
    ∃ reason, e.settlement = .rejected reason := by
  cases e with
  | threw error => exact ⟨error, rfl⟩
  | calledBack v g =>
    cases he : lastError? g with
    | none => exact absurd he h
    | some message => exact ⟨.string message, by simp [settlement, he]⟩

lemma CallEvent.settlement_of_lastError {v g : JsValue} (h : lastError? g = none) :
    (calledBack v g).settlement = .resolved v := by
  simp [settlement, h]

lemma itemOf_object {k : String} {ms : List (String × JsValue)} {item : Option String}
    (h : ms.lookup k = item.map .string) : itemOf k (.object ms) = .ok item := by
  cases item <;> simp [itemOf, JsValue.isNullish, JsValue.property, h, JsValue.string?]

lemma tabOf_of_shows {tab : Option Tab} {v : JsValue} (h : ShowsTab tab v) :
    tabOf v = .ok tab := by
  cases tab with
  | none =>
    cases h
    rfl
  | some t =>
    obtain ⟨id⟩ := t
    cases id with
    | none =>
      obtain ⟨ms, rest, rfl, hid⟩ := h
      simp [tabOf, JsValue.property, hid, JsValue.number?]
    | some n =>
      obtain ⟨ms, rest, x, rfl, hid, hx⟩ := h
      obtain ⟨y, hy, hn⟩ := toSigned32_ofInt n
      have hxy : x = y := Option.some.inj (hx.symm.trans hy)
      simp [tabOf, JsValue.property, hid, JsValue.number?, hxy, hn]

section

variable {β : Type} [Kept β]

/-- What a request is told by a call that does as the memory does. -/
lemma Serves.outcome {r : Request} {i : Invocation} {Shows : r.Answer → JsValue → Prop}
    (h : Serves β r i Shows) (hshows : ∀ a v, Shows a v → answerOf r v = .ok a) (b : β) :
    Kept.memory (ending i b).2 = (Memory.answer r (Kept.memory b)).2 ∧
      ((∃ f f', outcome r (ending i b).1.settlement = .error f ∧
        (Memory.answer r (Kept.memory b)).1 = .error f') ∨
      outcome r (ending i b).1.settlement = (Memory.answer r (Kept.memory b)).1) := by
  have hb := h b
  unfold Memory.answer
  cases hp : (Kept.memory b).planned? (Memory.targets r) with
  | some f =>
    rw [hp] at hb
    obtain ⟨hfailed, hkept⟩ := hb
    obtain ⟨reason, hreason⟩ := CallEvent.settlement_of_failed hfailed
    exact ⟨hkept, .inl ⟨_, f, by rw [hreason]; rfl, rfl⟩⟩
  | none =>
    rw [hp] at hb
    obtain ⟨⟨v, g, he, hg, hv⟩, hkept⟩ := hb
    refine ⟨hkept, .inr ?_⟩
    rw [he, CallEvent.settlement_of_lastError hg]
    exact hshows _ v hv

/-- **A request is answered as by the memory**, if not in the words of a refusal. -/
theorem Reliable.outcome (h : Reliable β) (r : Request) (b : β) :
    Kept.memory (ending (invocation r) b).2 = (Memory.answer r (Kept.memory b)).2 ∧
      ((∃ f f', Browser.outcome r (ending (invocation r) b).1.settlement = .error f ∧
        (Memory.answer r (Kept.memory b)).1 = .error f') ∨
      Browser.outcome r (ending (invocation r) b).1.settlement =
        (Memory.answer r (Kept.memory b)).1) := by
  cases r with
  | get k =>
    refine (h.get k).outcome (fun item v hv => ?_) b
    obtain ⟨ms, rfl, hitem⟩ := hv
    exact itemOf_object hitem
  | set k t => exact (h.set k t).outcome (fun _ _ _ => rfl) b
  | remove k => exact (h.remove k).outcome (fun _ _ _ => rfl) b
  | activeTab => exact h.tabs.outcome (fun _ _ hv => tabOf_of_shows hv) b
  | rewardsEnabled =>
    refine h.enabled.outcome (fun enabled v hv => ?_) b
    cases hv
    rfl

lemma Takes.memory {n : Notice} (h : Takes β n (noticeInvocation n)) (b : β) :
    Kept.memory (Notified.notify n b).2 = (Notified.notify n (Kept.memory b)).2 := by
  have hb := h b
  simp only [Notified.notify]
  split
  · rename_i f hp
    rw [hp] at hb
    exact hb.2
  · rename_i hp
    rw [hp] at hb
    exact hb.2

/-- **A notice does what it does to the memory.** -/
theorem Reliable.notify (h : Reliable β) (n : Notice) (b : β) :
    Kept.memory (Notified.notify n b).2 = (Notified.notify n (Kept.memory b)).2 := by
  cases n with
  | color c => exact (h.color c).memory b
  | icons i => exact (h.icons i.small i.medium i.large).memory b
  | text t => exact (h.text t).memory b
  | donate n tip =>
    obtain ⟨x, hx, -⟩ := toSigned32_ofInt n
    have hi : noticeInvocation (.donate n tip) = ⟨.donateToTwitterUser, [.number (.finite x),
        .string tip.userId, .string tip.name, .string tip.screenName, .string tip.tweetText]⟩ := by
      rw [noticeInvocation, hx]
      rfl
    have htakes := h.donate n tip x hx
    rw [← hi] at htakes
    exact htakes.memory b

end

/-! ### A reliable browser -/

/-- A browser around a memory. It answers for its storage later and for all else at once; what
should have changed the storage it refuses by throwing, what should have read by reporting. -/
structure SmallChrome where
  kept : Memory

namespace SmallChrome

/-- The global object while nothing is wrong, and while an error is reported. -/
def calm : JsValue := .object [("chrome", .object [("runtime", .object [])])]
def alarmed : JsValue := .object [("chrome", .object [("runtime", .object [("lastError",
  .object [("message", .string "out of order")])])])]

lemma lastError?_calm : lastError? calm = none := by decide +kernel

lemma lastError?_alarmed : lastError? alarmed ≠ none := by decide +kernel

def request? : Invocation → Option Request
  | ⟨.storageGet, [.array [.string k]]⟩ => some (.get k)
  | ⟨.storageSet, [.object [(k, .string t)]]⟩ => some (.set k t)
  | ⟨.storageRemove, [.array [.string k]]⟩ => some (.remove k)
  | ⟨.tabsQuery, _⟩ => some .activeTab
  | ⟨.getRewardsMainEnabled, _⟩ => some .rewardsEnabled
  | _ => none

def notice? : Invocation → Option Notice
  | ⟨.setBadgeBackgroundColor, [.object [("color", .string c)]]⟩ => some (.color c)
  | ⟨.setIcon, [.object [("path", .object [("18", .string small), ("36", .string medium),
      ("54", .string large)])]]⟩ => some (.icons ⟨small, medium, large⟩)
  | ⟨.setBadgeText, [.object [("text", .string t)]]⟩ => some (.text t)
  | ⟨.donateToTwitterUser, [.number n, .string userId, .string name, .string screenName,
      .string tweetText]⟩ => some (.donate n.toSigned32 ⟨userId, name, screenName, tweetText⟩)
  | _ => none

def tabValue (t : Tab) : JsValue :=
  .object (t.id.map fun n =>
    ("id", .number (.finite ((Binary64.ofInt? n.val).getD default)))).toList

def value : (r : Request) → r.Answer → JsValue
  | .get k, item => .object (item.map fun t => (k, .string t)).toList
  | .set _ _, () => .undefined
  | .remove _, () => .undefined
  | .activeTab, tab => .array (tab.map tabValue).toList
  | .rewardsEnabled, b => .bool b

def refusal : Request → CallEvent
  | .set _ _ => .threw (.string "out of order")
  | .remove _ => .threw (.string "out of order")
  | _ => .calledBack .undefined alarmed

def perform (i : Invocation) (b : SmallChrome) : CallEvent × SmallChrome :=
  match request? i with
  | none => (.threw .undefined, b)
  | some r =>
    let (answer, kept) := Memory.answer r b.kept
    match answer with
    | .ok a => (.calledBack (value r a) calm, ⟨kept⟩)
    | .error _ => (refusal r, ⟨kept⟩)

instance : Kept SmallChrome where
  invoke i b :=
    match i.api with
    | .storageGet | .storageSet | .storageRemove => ([], b)
    | _ =>
      let (e, b) := perform i b
      ([e], b)
  call i b :=
    match notice? i with
    | none => (.error .undefined, b)
    | some n =>
      let (taken, kept) := Notified.notify n b.kept
      (taken.mapError fun f => .string f.message, ⟨kept⟩)
  reply _ _ b := (.ok (), b)
  memory := kept
  settle := perform
  change c b := ⟨c.apply b.kept⟩

lemma ending_eq (i : Invocation) (b : SmallChrome) : ending i b = perform i b := by
  obtain ⟨api, arguments⟩ := i
  cases api <;> rfl

lemma serves {r : Request} {i : Invocation} {Shows : r.Answer → JsValue → Prop}
    (hi : request? i = some r) (hv : ∀ a, Shows a (value r a)) : Serves SmallChrome r i Shows := by
  intro b
  have hmemory (b : SmallChrome) : Kept.memory b = b.kept := rfl
  rw [ending_eq, perform, hi]
  simp only [hmemory, Memory.answer]
  cases b.kept.planned? (Memory.targets r) with
  | some f =>
    refine ⟨?_, rfl⟩
    cases r with
    | set k t => trivial
    | remove k => trivial
    | _ => exact lastError?_alarmed
  | none => exact ⟨⟨_, calm, rfl, lastError?_calm, hv _⟩, rfl⟩

lemma takes {n : Notice} {i : Invocation} (hi : notice? i = some n) : Takes SmallChrome n i := by
  intro b
  have hcall : Host.call i b =
      ((Notified.notify n b.kept).1.mapError fun f => .string f.message,
        ⟨(Notified.notify n b.kept).2⟩) := by
    simp only [Host.call, hi]
  have hmemory (b : SmallChrome) : Kept.memory b = b.kept := rfl
  rw [hcall]
  simp only [hmemory, Notified.notify]
  cases b.kept.planned? [Memory.noticeTarget n] with
  | some f => exact ⟨⟨_, rfl⟩, rfl⟩
  | none => exact ⟨rfl, rfl⟩

lemma showsTab_tabValue (tab : Option Tab) : ShowsTab tab (.array (tab.map tabValue).toList) := by
  cases tab with
  | none => rfl
  | some t =>
    obtain ⟨id⟩ := t
    cases id with
    | none => exact ⟨[], [], rfl, rfl⟩
    | some n =>
      obtain ⟨x, hx, -⟩ := toSigned32_ofInt n
      refine ⟨_, [], x, rfl, ?_, hx⟩
      simp [hx]

theorem reliable : Reliable SmallChrome where
  get k := serves rfl fun item => ⟨_, rfl, by cases item <;> simp⟩
  set k t := serves rfl fun _ => trivial
  remove k := serves rfl fun _ => trivial
  tabs := serves rfl showsTab_tabValue
  enabled := serves rfl fun _ => rfl
  color c := takes rfl
  icons small medium large := takes rfl
  text t := takes rfl
  donate n tip x hx := by
    obtain ⟨y, hy, hn⟩ := toSigned32_ofInt n
    have hxy : x = y := Option.some.inj (hx.symm.trans hy)
    exact takes (by simp only [notice?, hxy, hn])
  reply _ _ _ := rfl
  change _ _ := rfl

end SmallChrome

end Tipping.Browser
