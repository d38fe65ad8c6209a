import MbsClient.Proofs.Context.Index
import MbsClient.Proofs.Session.Stale

/-!
# Stale — answers that nobody waits for

A request leaves its mark on the session that waits: the creation, the body of the patch, the record
of the subscription in flight. An answer that does not find the mark changes no session, no index
and no counter, and the application is not told; what was created all the same is removed
(`inert_iff_unawaited`).
-/

namespace MbsClient

/-- The request that is answered or has timed out. -/
def TransportEvent.request : TransportEvent → TimeoutTarget
  | .createResult session _ => .createResource session
  | .patchResult session _ => .patchResource session
  | .subscriptionCreated sub _ => .createSubscription sub
  | .subscriptionUpdated sub _ => .updateSubscription sub
  | .timeout request => request

/-- The requests that take down what was created for nobody. -/
def TransportEvent.removal : TransportEvent → List Intent
  | .createResult session (.ok answer) =>
      .removeResource session answer.resourceId ::
        answer.subscriptionId.toList.map .deleteSubscription
  | .subscriptionCreated _ (.ok ack) => [.deleteSubscription ack.id]
  | _ => []

/-! ## 1. Answers that count -/

namespace Context

variable {c : Context} {key : SessionKey} {s : Session}

/-- A session waits for the answer to a request. -/
def Awaits (c : Context) : TimeoutTarget → Prop
  | .createResource session =>
      ∃ s, c.session? session = some s ∧ s.state = .createPending
  | .patchResource session =>
      ∃ s, c.session? session = some s ∧ s.state = .registered ∧ s.patching?.isSome = true
  | .createSubscription sub =>
      ∃ key s, c.session? key = some s ∧ s.state = .registered ∧
        Session.Awaited s.pendingNew sub
  | .updateSubscription sub =>
      ∃ key s, c.session? key = some s ∧ Session.Awaited s.active.values sub

theorem emit_nil (c : Context) : c.emit [] = c := by
  rw [emit, List.append_nil]

-- A session that is stored as it was.
theorem store_self (hk : (c.view []).Keyed) (h : c.session? key = some s) : c.store s = c := by
  have hown : s.key = key := hk.own h
  have hput := View.put_self (v := c.view []) h
  rw [← view_store hown] at hput
  have hsessions : c.sessions.insert s.key s = c.sessions := congrArg View.sessions hput
  rw [store, hsessions]

-- What only adds to the outbox stores a session as it was.
theorem eq_of_store {s' : Session} (h : c.session? key = some s) (hown : s'.key = key)
    {c' : Context} {intents : List Intent} (heq : c' = c.emit intents)
    (hstored : c'.sessions = (c.store s').sessions) : s' = s := by
  have hsame : c.sessions = (c.store s').sessions := by
    rw [← hstored, heq]
    rfl
  have hget : c.session? key = some s' := by
    rw [session?, hsame, store, hown, SortedMap.get?_insert_self]
  exact Option.some.inj (hget.symm.trans h)

/-! ### Creations -/

theorem sessionCreated_eq_iff (hk : (c.view []).Keyed)
    (result : Except ProblemDetails SessionCreated) :
    c.sessionCreated key result = (c.emit (removeOrphan key result), []) ↔
      ¬ c.Awaits (.createResource key) := by
  unfold sessionCreated
  constructor
  · rintro heq ⟨s, hs, hstate⟩
    obtain ⟨body, bundled, hwait⟩ := Session.waitingFor?_of_state hstate
    simp only [hs, hwait] at heq
    have hfirst := (Prod.mk.inj heq).1
    have hown : s.key = key := hk.own hs
    cases result with
    | ok answer =>
      exact Session.created_ne hwait answer (eq_of_store hs hown hfirst (sessions_indexTmgi _ _))
    | error problem =>
      exact Session.refused_ne hwait problem (eq_of_store hs hown hfirst (sessions_indexTmgi _ _))
  · intro h
    split
    · rfl
    · rename_i s hs
      split
      · rfl
      · rename_i body bundled hwait
        exact absurd ⟨s, hs, Session.state_of_waitingFor? hwait⟩ h

theorem creationTimedOut_eq_iff :
    c.creationTimedOut key = (c, []) ↔ ¬ c.Awaits (.createResource key) := by
  unfold creationTimedOut
  constructor
  · rintro heq ⟨s, hs, hstate⟩
    obtain ⟨body, bundled, hwait⟩ := Session.waitingFor?_of_state hstate
    simp only [hs, hwait, Option.bind_some, Option.map_some] at heq
    have hfirst : c.destroy key = c := (Prod.mk.inj heq).1
    have hgone : (c.destroy key).session? key = none := SortedMap.get?_erase_self _ _
    rw [hfirst, hs] at hgone
    cases hgone
  · intro h
    split
    · rename_i calls hcalls
      obtain ⟨s, hs, hwait⟩ := Option.bind_eq_some_iff.1 hcalls
      obtain ⟨w, hw, -⟩ := Option.map_eq_some_iff.1 hwait
      exact absurd ⟨s, hs, Session.state_of_waitingFor? hw⟩ h
    · rfl

/-! ### Patches -/

theorem sessionPatched_eq_iff (hk : (c.view []).Keyed) (result : OperationResult) :
    c.sessionPatched key result = (c, []) ↔ ¬ c.Awaits (.patchResource key) := by
  unfold sessionPatched
  constructor
  · rintro heq ⟨s, hs, hwaits⟩
    simp only [hs] at heq
    have hfirst : c.store (s.patched result).1 = c.emit [] :=
      (Prod.mk.inj heq).1.trans (emit_nil c).symm
    have hown : (s.patched result).1.key = key := (Session.patched_key s result).trans (hk.own hs)
    have hsame := eq_of_store hs hown hfirst rfl
    have hnone := Session.patching?_patched hwaits.1 result
    rw [hsame] at hnone
    simp [hnone] at hwaits
  · intro h
    split
    · rename_i s hs
      have hself := Session.patched_eq_self (fun hwaits => h ⟨s, hs, hwaits⟩) result
      simp only [hself]
      rw [store_self hk hs]
    · rfl

/-! ### Subscriptions, found through their owners -/

-- A session that waits for the answer about a subscription is found through the index.
theorem bind_owners (hI : c.Indexed) (h : c.session? key = some s) {sub : SubscriptionKey}
    (hawaited : Session.Awaited s.subscriptions sub) :
    (c.owners.get? sub).bind c.session? = some s := by
  obtain ⟨t, ht, hkey, -⟩ := hawaited
  have hmem : sub ∈ s.subscriptionKeys := List.mem_append_left _ (List.mem_map.2 ⟨t, ht, hkey⟩)
  rw [hI key sub ⟨s, h, hmem⟩]
  exact h

theorem subscriptionCreated_eq_iff (hk : (c.view []).Keyed) (hI : c.Indexed)
    (sub : SubscriptionKey) (result : Except OperationResult SubscriptionAck) :
    c.subscriptionCreated sub result =
        (c.emit (result.toOption.toList.map fun ack => .deleteSubscription ack.id), []) ↔
      ¬ c.Awaits (.createSubscription sub) := by
  unfold subscriptionCreated
  constructor
  · rintro heq ⟨key, s, hs, hstate, hawaited⟩
    have hheld : Session.Awaited s.subscriptions sub := by
      obtain ⟨t, ht, hwaits⟩ := hawaited
      exact ⟨t, List.mem_append_left _ ht, hwaits⟩
    rw [bind_owners hI hs hheld, Option.bind_some] at heq
    cases hcreated : s.subscriptionCreated? sub result with
    | none =>
      exact (Session.subscriptionCreated?_eq_none_iff s sub result).1 hcreated ⟨hstate, hawaited⟩
    | some p =>
      obtain ⟨s', calls⟩ := p
      rw [hcreated] at heq
      have hown : s'.key = key :=
        (Session.key_of_subscriptionCreated? hcreated).trans (hk.own hs)
      have hsame := eq_of_store hs hown (Prod.mk.inj heq).1 rfl
      exact Session.not_awaited_of_subscriptionCreated? hcreated (hsame ▸ hawaited)
  · intro h
    split
    · rename_i s' calls hcreated
      obtain ⟨s, hos, hcreated⟩ := Option.bind_eq_some_iff.1 hcreated
      obtain ⟨key, -, hs⟩ := get?_of_owner hos
      have hnone := (Session.subscriptionCreated?_eq_none_iff s sub result).2
        fun hwaits => h ⟨key, s, hs, hwaits⟩
      rw [hnone] at hcreated
      cases hcreated
    · cases result with
      | ok ack => rfl
      | error failure => exact congrArg (·, []) (emit_nil c).symm

theorem subscriptionUpdated_eq_iff (hk : (c.view []).Keyed) (hI : c.Indexed)
    (sub : SubscriptionKey) (result : Except OperationResult SubscriptionAck) :
    c.subscriptionUpdated sub result = (c, []) ↔ ¬ c.Awaits (.updateSubscription sub) := by
  unfold subscriptionUpdated
  constructor
  · rintro heq ⟨key, s, hs, hawaited⟩
    have hheld : Session.Awaited s.subscriptions sub := by
      obtain ⟨t, ht, hwaits⟩ := hawaited
      exact ⟨t, List.mem_append_right _ ht, hwaits⟩
    rw [bind_owners hI hs hheld] at heq
    have hfirst : c.store (s.subscriptionUpdated sub result).1 = c.emit [] :=
      (Prod.mk.inj heq).1.trans (emit_nil c).symm
    have hown : (s.subscriptionUpdated sub result).1.key = key :=
      (Session.subscriptionUpdated_key s sub result).trans (hk.own hs)
    have hsame := eq_of_store hs hown hfirst rfl
    have hgone := Session.not_awaited_subscriptionUpdated s sub result
    rw [hsame] at hgone
    exact hgone hawaited
  · intro h
    split
    · rename_i s hos
      obtain ⟨key, -, hs⟩ := get?_of_owner hos
      have hself := Session.subscriptionUpdated_eq_self (fun hawaited => h ⟨key, s, hs, hawaited⟩)
        result
      simp only [hself]
      rw [store_self hk hs]
    · rfl

/-! ### All answers -/

theorem handle_eq_iff (hk : (c.view []).Keyed) (hI : c.Indexed) (e : TransportEvent) :
    c.handle e = (c.emit e.removal, []) ↔ ¬ c.Awaits e.request := by
  cases e with
  | createResult key result =>
    have hremoval : (TransportEvent.createResult key result).removal = removeOrphan key result := by
      cases result <;> rfl
    rw [hremoval]
    exact sessionCreated_eq_iff hk result
  | patchResult key result =>
    rw [show (TransportEvent.patchResult key result).removal = [] from rfl, emit_nil]
    cases result with
    | ok u => exact sessionPatched_eq_iff hk .ok
    | error problem => exact sessionPatched_eq_iff hk (.refused problem)
  | subscriptionCreated sub result =>
    cases result with
    | ok ack => exact subscriptionCreated_eq_iff hk hI sub (.ok ack)
    | error problem => exact subscriptionCreated_eq_iff hk hI sub (.error (.refused problem))
  | subscriptionUpdated sub result =>
    rw [show (TransportEvent.subscriptionUpdated sub result).removal = [] from rfl, emit_nil]
    exact subscriptionUpdated_eq_iff hk hI sub (result.mapError .refused)
  | timeout request =>
    rw [show (TransportEvent.timeout request).removal = [] from rfl, emit_nil]
    cases request with
    | createResource key => exact creationTimedOut_eq_iff
    | patchResource key => exact sessionPatched_eq_iff hk .timedOut
    | createSubscription sub =>
      have hiff := subscriptionCreated_eq_iff hk hI sub (.error .timedOut)
      rw [Except.toOption, Option.toList_none, List.map_nil, emit_nil] at hiff
      exact hiff
    | updateSubscription sub => exact subscriptionUpdated_eq_iff hk hI sub (.error .timedOut)

end Context

/-! ## 2. Along a run -/

/-- **Stale answers are inert.** After any run, an event changes no session, no subscription, no
index and no counter, and tells the application nothing, exactly if no session waits for it: the
requests that take down what was created are then all that is added to the outbox. -/
theorem World.inert_iff_unawaited (config : ClientConfig) (actions : List Action)
    (e : TransportEvent) :
    (run config actions).context.handle e =
        ((run config actions).context.emit e.removal, []) ↔
      ¬ (run config actions).context.Awaits e.request :=
  Context.handle_eq_iff (keyed_context config actions) (indexed_run config actions) e

end MbsClient
