import MbsClient.Proofs.Session.Traffic

/-!
# Stale — sessions that do not wait for an answer

The answer to a request counts for a session if it finds that the session waits for it: with the
creation, with the body of a patch, with a subscription in flight. Where the session does not wait,
the answer leaves it as it is; where it does, the session does not wait any more after it.
-/

namespace MbsClient.Session

variable {s s' : Session} {key : SubscriptionKey}

theorem state_of_waitingFor? {w : MbsSession × Option SubscriptionKey}
    (h : s.waitingFor? = some w) : s.state = .createPending := by
  obtain ⟨hkept, hremote⟩ := remote_of_waitingFor? h
  simp [state, hkept, hremote]

theorem created_ne {body : MbsSession} {bundled : Option SubscriptionKey}
    (h : s.waitingFor? = some (body, bundled)) (answer : SessionCreated) :
    (s.created body bundled answer).1 ≠ s := by
  intro heq
  have hremote := (remote_of_waitingFor? h).2
  rw [← heq] at hremote
  cases hremote

theorem refused_ne {body : MbsSession} {bundled : Option SubscriptionKey}
    (h : s.waitingFor? = some (body, bundled)) (problem : ProblemDetails) :
    (s.refused bundled problem).1 ≠ s := by
  intro heq
  have hremote := (remote_of_waitingFor? h).2
  rw [← heq] at hremote
  cases hremote

theorem find?_awaited {subs : List Subscription} :
    (subs.find? fun sub => sub.key = key && sub.isInFlight) = none ↔ ¬ Awaited subs key := by
  rw [List.find?_eq_none]
  constructor
  · rintro h ⟨sub, hsub, hk, hin⟩
    exact h sub hsub (by simp [hk, hin])
  · intro h sub hsub hboth
    simp only [Bool.and_eq_true, decide_eq_true_eq] at hboth
    exact h ⟨sub, hsub, hboth⟩

-- The answer to the creation of a subscription counts if a registered session waits for it.
theorem subscriptionCreated?_eq_none_iff (s : Session) (key : SubscriptionKey)
    (result : Except OperationResult SubscriptionAck) :
    s.subscriptionCreated? key result = none ↔
      ¬ (s.state = .registered ∧ Awaited s.pendingNew key) := by
  constructor
  · rintro hnone ⟨hstate, hawaited⟩
    obtain ⟨hkept, r, hremote⟩ := registered_of_state hstate
    simp only [subscriptionCreated?, hkept, hremote] at hnone
    split at hnone
    · rename_i hfind
      exact find?_awaited.1 hfind hawaited
    · split at hnone <;> cases hnone
  · intro h
    unfold subscriptionCreated?
    split
    · rename_i r hkept hremote
      have hfind : ¬ Awaited s.pendingNew key :=
        fun hawaited => h ⟨by simp [state, hkept, hremote], hawaited⟩
      rw [find?_awaited.2 hfind]
    · rfl

-- When the answer has come, nobody waits for it any more.
theorem not_awaited_of_subscriptionCreated? {result : Except OperationResult SubscriptionAck}
    {calls : List Call} (h : s.subscriptionCreated? key result = some (s', calls)) :
    ¬ Awaited s'.pendingNew key := by
  unfold subscriptionCreated? at h
  split at h
  · split at h
    · cases h
    · split at h
      · obtain ⟨rfl, -⟩ := Prod.mk.inj (Option.some.inj h)
        exact not_awaited_filter_key key s.pendingNew
      · obtain ⟨rfl, -⟩ := Prod.mk.inj (Option.some.inj h)
        exact not_awaited_modifyIn (fun _ => rfl) key s.pendingNew
  · cases h

theorem values_modifySubscription (s : Session) (key : SubscriptionKey)
    (f : Subscription → Subscription) :
    (s.modifySubscription key f).active.values = modifyIn key f s.active.values := by
  unfold modifySubscription active modifyIn
  cases hremote : s.remote <;> simp [Remote.mapResource, SortedMap.values, SortedMap.map,
    SortedMap.empty]

theorem not_awaited_subscriptionUpdated (s : Session) (key : SubscriptionKey)
    (result : Except OperationResult SubscriptionAck) :
    ¬ Awaited (s.subscriptionUpdated key result).1.active.values key := by
  have hmodified : ∀ f : Subscription → Subscription, (∀ sub, (f sub).isInFlight = false) →
      ¬ Awaited (s.modifySubscription key f).active.values key := by
    intro f hflight
    rw [values_modifySubscription]
    exact not_awaited_modifyIn hflight key s.active.values
  unfold subscriptionUpdated
  split
  · rename_i hfind
    exact find?_awaited.1 hfind
  · split
    · exact hmodified _ fun _ => rfl
    · exact hmodified _ fun _ => rfl

-- The answer to the change of a subscription counts if the subscription waits for it.
theorem subscriptionUpdated_eq_self (h : ¬ Awaited s.active.values key)
    (result : Except OperationResult SubscriptionAck) :
    s.subscriptionUpdated key result = (s, []) := by
  unfold subscriptionUpdated
  rw [find?_awaited.2 h]

end MbsClient.Session
