import MqStudio.Azureservicebus.Edit
import MqStudio.Googlepubsub.Edit

/-!
# Saves of what a dialog was opened with

The subscriptions of Pub/Sub and the entities and subscriptions of Service Bus are described in full
by their dialogs, which write durations as whole seconds and paths as short names.

* `Save.Unchanged`: nothing that is stored has another meaning than before.
* `untouched_save_iff`: which saves of an untouched dialog leave everything as it was.
-/

namespace MqStudio.Model.Untouched

open Azureservicebus.Edit (SavedEntity SavedSubscription)

/-- A save of what a dialog was opened with. -/
inductive Save where
  | pubsub (e : Googlepubsub.Edit.Saved)
  | entity (e : SavedEntity)
  | subscription (e : SavedSubscription)

def Save.Unchanged : Save → Prop
  | pubsub e => e.Unchanged
  | entity e => e.Unchanged
  | subscription e => e.Unchanged

def Save.Kept : Save → Prop
  | pubsub e => e.Kept
  | entity e => e.Kept
  | subscription e => e.Kept

/-- **A save of an untouched dialog changes nothing exactly if what it shows is kept.** -/
theorem untouched_save_iff (s : Save) : s.Unchanged ↔ s.Kept := by
  cases s with
  | pubsub e => exact e.unchanged_iff
  | entity e => exact e.unchanged_iff
  | subscription e => exact e.unchanged_iff

/-! ### A subscription that loses what it forwards to -/

section Forwarded

open Lib.Text Azureservicebus.Edit Model.Attributes

/-- A subscription that forwards what arrives to the queue `archive`. -/
def forwarded : Properties where
  status := some "Active"
  maxDeliveryCount := some 10
  forwardTo := some "archive"

def forwardedConn : Conn where
  live := true
  entities := fun _ => none
  subscriptions := fun _ _ => some forwarded
  beyond := fun _ => 0
  refuse := none

def submitted : SubscriptionSpec where
  topic := "orders"
  name := "audit"
  lockDurationSec := 0
  maxDeliveryCount := 10
  ttlSec := 0
  autoDeleteOnIdleSec := 0
  deadLetterOnExpiry := false
  deadLetterOnRuleError := false
  requiresSession := false
  forwardTo := ""
  forwardDeadLettersTo := ""

/-- The forwarding is gone. -/
def unforwarded : Properties where
  status := some "Active"
  maxDeliveryCount := some 10
  deadLetteringOnMessageExpiration := some false
  enableDeadLetteringOnFilterEvaluationExceptions := some false
  forwardTo := some ""
  forwardDeadLetteredMessagesTo := some ""

theorem submitSubscription_forwarded (beyond : ℚ → ℤ) :
    submitSubscription (subscriptionDraftOf "orders" "audit" (subscriptionOf beyond forwarded)) =
      .ok submitted := by
  have hname : submittableName "audit" .child = some "audit" := by decide
  have htopic : submittableName "orders" .entity = some "orders" := by decide
  have hcount : number (some (toString (10 : ℤ))) = some 10 := by decide
  have hblank : number none = none := rfl
  rw [submitSubscription, subscriptionDraftOf, hname, htopic]
  simp only [subscriptionOf, forwarded, durationOf, secondsOf, Option.map_none, Option.map_some,
    hcount, hblank]
  rfl

theorem applySubscriptionSettings_submitted :
    applySubscriptionSettings forwarded submitted.spec.2 = .ok unforwarded := by
  have hlock : boundedSeconds "lock duration" minLockDurationSec maxLockDurationSec (positive 0) =
      .ok none := rfl
  have httl (label : String) : positiveSeconds label (positive 0) = .ok none := rfl
  have hcount : deliveriesOf (positive 10) = .ok (some 10) := by
    rw [deliveriesOf, said_positive, if_pos (by decide : (0 : ℤ) < 10),
      if_neg (toString_ne_empty 10), atoi_toString (by decide)]
    rfl
  simp only [applySubscriptionSettings, submitted, SubscriptionSpec.spec, hlock, httl, hcount,
    saidFlag_formatBool]
  rfl

theorem resave_forwarded : forwardedConn.resaveSubscription "orders" "audit" forwarded =
    .ok (("orders", "audit"), unforwarded) := by
  rw [Conn.resaveSubscription, submitSubscription_forwarded]
  have hparts : Conn.subscriptionParts "orders" "audit" = .ok ("orders", "audit") := rfl
  have htrim : trimSpace "orders" = "orders" ∧ trimSpace "audit" = "audit" := by decide
  have hspec : submitted.spec.1 = ("orders", "audit") := by
    rw [SubscriptionSpec.spec, submitted, htrim.1, htrim.2]
  simp only [Conn.updateSubscription, hspec, hparts, forwardedConn,
    applySubscriptionSettings_submitted, Bool.not_true, Bool.false_eq_true, if_false]

def forwardedSave : SavedSubscription where
  c := forwardedConn
  topic := "orders"
  name := "audit"
  topicTrimmed := by decide
  trimmed := by decide
  stored := forwarded
  valid := ⟨fun n hn => by cases hn; decide, nofun⟩
  held := rfl
  target := ("orders", "audit")
  after := unforwarded
  saved := resave_forwarded

/-- An untouched save stops the forwarding of a subscription. -/
theorem forwarding_removed : ¬ ∀ s : Save, s.Unchanged := by
  intro h
  obtain ⟨-, hsettings⟩ := h (.subscription forwardedSave)
  have hforward : "" = "archive" := congrArg Settings.forwardTo hsettings
  exact absurd hforward (by decide)

end Forwarded

end MqStudio.Model.Untouched
