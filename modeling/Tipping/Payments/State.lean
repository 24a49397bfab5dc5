import Tipping.Json.Codec.Tree
import Tipping.Json.Codec.Value

/-!
What the payments page keeps: whether rewards are enabled, and the contributions that wait for
their publisher. A contribution without a publisher is dropped wherever a state is loaded or
saved.
-/

namespace Tipping.Payments

structure Contribution where
  publisherKey : String
  percentage : Binary64
  verified : Bool
  excluded : Signed32
  name : String
  faviconUrl : String
  url : String
  provider : String
  amount : Binary64
  addedDate : Unsigned32
  viewingId : String
  category : Signed32
  deriving DecidableEq, Repr

open Json in
def Contribution.codec : Codec Contribution :=
  let text := some ""
  let number := some (Binary64.zero false)
  let integer := some Signed32.zero
  let date := some Unsigned32.zero
  .record "PendingContribution"
    (.cons "publisherKey" .string text
      (.cons "percentage" .double number
        (.cons "verified" .bool (some false)
          (.cons "excluded" (.integer "i32" _ _) integer
            (.cons "name" .string text
              (.cons "faviconUrl" .string text
                (.cons "url" .string text
                  (.cons "provider" .string text
                    (.cons "amount" .double number
                      (.cons "addedDate" (.integer "u32" _ _) date
                        (.cons "viewingId" .string text
                          (.cons "category" (.integer "i32" _ _) integer .nil))))))))))))
    (fun (publisherKey, percentage, verified, excluded, name, faviconUrl, url, provider, amount,
        addedDate, viewingId, category, ()) =>
      ⟨publisherKey, percentage, verified, excluded, name, faviconUrl, url, provider, amount,
        addedDate, viewingId, category⟩)
    (fun c => (c.publisherKey, c.percentage, c.verified, c.excluded, c.name, c.faviconUrl, c.url,
      c.provider, c.amount, c.addedDate, c.viewingId, c.category, ()))
    (fun _ => rfl) (fun _ => rfl)

structure State where
  rewardsEnabled : Bool
  pendingContributions : List Contribution
  deriving DecidableEq, Repr

namespace State

open Json in
def codec : Codec State :=
  .record "PaymentsState"
    (.cons "rewardsEnabled" .bool (some false)
      (.cons "pendingContributions" (.list Contribution.codec) (some []) .nil))
    (fun (rewardsEnabled, pendingContributions, ()) => ⟨rewardsEnabled, pendingContributions⟩)
    (fun s => (s.rewardsEnabled, s.pendingContributions, ()))
    (fun _ => rfl) (fun _ => rfl)

/-- Drops the contributions without a publisher. -/
def clean (s : State) : State :=
  { s with pendingContributions := s.pendingContributions.filter (!·.publisherKey.isEmpty) }

/-- The state before anything was stored. -/
def initial : State := clean ⟨false, []⟩

end State

end Tipping.Payments
