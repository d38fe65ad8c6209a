import MbsClient.Proofs.Session.Body
import MbsClient.Proofs.Session.Spared

/-!
# Outstanding — a session waits before it asks again

A session sends requests for its creation, for its record, and about its subscriptions. For each of
these targets it has a mark that it waits for an answer. A push sends one request for a target at
most (`targets_push`), which leaves the mark (`busy_of_sent`); where the mark is, no push sends
another (`not_sent_of_busy`); and nothing takes the mark away but what the request has to come to
(`busy_push`, `busy_moved`).
-/

namespace MbsClient

/-- What a request is for. -/
inductive Target where
  | creation (session : SessionKey)
  | patch (session : SessionKey)
  | subscription (key : SubscriptionKey)

namespace Intent

/-- What a request is for. A creation may take a subscription along. -/
def targets : Intent → List Target
  | .createResource session _ bundled =>
      .creation session :: bundled.toList.map fun b => .subscription b.key
  | .patchResource session _ _ => [.patch session]
  | .createSubscription _ key _ _ => [.subscription key]
  | .updateSubscription key _ _ => [.subscription key]
  | .removeResource _ _ => []
  | .deleteSubscription _ => []

/-- The session that a request creates. -/
def creates? : Intent → Option SessionKey
  | .createResource session _ _ => some session
  | _ => none

end Intent

namespace Session

/-- What a session sends requests for. -/
def targets (s : Session) : List Target :=
  .creation s.key :: .patch s.key :: s.wantedKeys.map .subscription

/-- The next push removes the session and creates it anew (`push_of_recreates`). -/
def Recreates (s : Session) : Prop := s.state = .registered ∧ s.identityChanged = true

/-- If the target is one of the session, the session waits for the answer to a request for it. If
the request created the session, a subscription may ride on it. -/
def Busy (i : Intent) (s : Session) : Target → Prop
  | .creation key => s.key = key → ∃ body bundled, s.remote = .creating body bundled
  | .patch key => s.key = key → s.patching?.isSome = true
  | .subscription k => ∀ sub ∈ s.subscriptions, sub.key = k → sub.isInFlight = true ∧
      ∀ body, s.remote = .creating body (some k) → i.creates? = some s.key

variable {s s' : Session} {i : Intent} {t : Target} {k : SubscriptionKey} {config : ClientConfig}

theorem push_of_recreates (h : s.Recreates) (config : ClientConfig) :
    s.push config =
      (some (s.requeue.create config).1, s.release ++ [(s.requeue.create config).2]) := by
  obtain ⟨hstate, hchanged⟩ := h
  obtain ⟨hkept, r, hremote⟩ := registered_of_state hstate
  simp only [push, hkept, hremote, hchanged, Bool.false_eq_true, if_false, if_true]

variable {key : SessionKey}

theorem creation_mem_targets : .creation key ∈ s.targets ↔ s.key = key := by
  simp [targets, eq_comm]

theorem patch_mem_targets : .patch key ∈ s.targets ↔ s.key = key := by
  simp [targets, eq_comm]

theorem subscription_mem_targets : .subscription k ∈ s.targets ↔ k ∈ s.wantedKeys := by
  simp [targets]

theorem busy_of_not_mem_targets (h : t ∉ s.targets) : s.Busy i t := by
  cases t with
  | creation key => exact fun hkey => absurd (creation_mem_targets.2 hkey) h
  | patch key => exact fun hkey => absurd (patch_mem_targets.2 hkey) h
  | subscription k =>
    rintro sub hsub rfl
    exact absurd (subscription_mem_targets.2 (List.mem_map_of_mem hsub)) h

-- Nothing rides on the creation of a registered session.
theorem busy_of_registered {r : Resource} (hremote : s.remote = .registered r)
    (h : ∀ sub ∈ s.subscriptions, sub.key = k → sub.isInFlight = true) :
    s.Busy i (.subscription k) := by
  intro sub hsub hk
  refine ⟨h sub hsub hk, fun body hcreating => ?_⟩
  rw [hremote] at hcreating
  cases hcreating

-- A session has no target twice if it has no subscription twice.
theorem nodup_targets (hn : s.subscriptionKeys.Nodup) : s.targets.Nodup := by
  have hwanted : (s.wantedKeys.map Target.subscription).Nodup :=
    (List.nodup_append.1 hn).1.map fun a b h => Target.subscription.inj h
  simp [targets, hwanted]

/-! ## 1. What is sent about subscriptions -/

theorem flatMap_sublist_map {α β : Type} {f : α → List β} {g : α → β} {l : List α}
    (h : ∀ a ∈ l, (f a).Sublist [g a]) : (l.flatMap f).Sublist (l.map g) := by
  induction l with
  | nil => exact List.Sublist.refl _
  | cons a l ih =>
    rw [List.flatMap_cons, List.map_cons]
    exact (h a List.mem_cons_self).append (ih fun b hb => h b (List.mem_cons_of_mem a hb))

/-- A subscription after a push: nothing is sent for it, or it was free and waits now. -/
structure SubscriptionPushed (sub : Subscription) (p : Subscription × List Intent) : Prop where
  key : p.1.key = sub.key
  flight : sub.isInFlight = true → p.1.isInFlight = true
  sent : p.2 = [] ∨ (∃ i, p.2 = [i] ∧ i.targets = [.subscription sub.key]) ∧
    sub.isInFlight = false ∧ p.1.isInFlight = true

theorem free_of_isDue {sub : Subscription} (h : sub.isDue = true) : sub.isInFlight = false := by
  simpa [Subscription.isDue] using (Bool.and_eq_true_iff.1 h).2

theorem pushed_pushNew (config : ClientConfig) (s : Session) (r : Resource) (sub : Subscription) :
    SubscriptionPushed sub (s.pushNew config r sub) := by
  unfold pushNew
  split
  · rename_i hdue
    exact ⟨rfl, fun _ => rfl, .inr ⟨⟨_, rfl, rfl⟩, free_of_isDue hdue, rfl⟩⟩
  · exact ⟨rfl, id, .inl rfl⟩

theorem pushed_pushActive (id : String) (sub : Subscription) :
    SubscriptionPushed sub (pushActive id sub) := by
  unfold pushActive
  split
  · rename_i hdue
    split
    · exact ⟨rfl, fun h => h, .inl rfl⟩
    · exact ⟨rfl, fun _ => rfl, .inr ⟨⟨_, rfl, rfl⟩, free_of_isDue hdue, rfl⟩⟩
  · exact ⟨rfl, fun h => h, .inl rfl⟩

/-- What a push asks about the subscriptions of a session: each request is about one that is free
before and waits after it, and none that waits becomes free. -/
structure Asks (s s' : Session) (sent : List Intent) : Prop where
  flight : ∀ sub' ∈ s'.subscriptions, ∃ sub ∈ s.subscriptions, sub.key = sub'.key ∧
    (sub.isInFlight = true → sub'.isInFlight = true)
  free : ∀ i ∈ sent, ∀ k, .subscription k ∈ i.targets →
    ∃ sub ∈ s.subscriptions, sub.key = k ∧ sub.isInFlight = false
  waits : ∀ i ∈ sent, ∀ k, .subscription k ∈ i.targets → Awaited s'.subscriptions k

/-! ### Creations -/

theorem free_of_bundleFirst {sessionId : MbsSessionId} {servers : List NotificationServer}
    {subs : List Subscription} {b : BundledSubscription}
    (h : (bundleFirst sessionId servers subs).1 = some b) :
    ∃ sub ∈ subs, sub.key = b.key ∧ sub.isInFlight = false := by
  induction subs with
  | nil => cases h
  | cons sub rest ih =>
    unfold bundleFirst at h
    split at h
    · rename_i hdue
      rw [← Option.some.inj h]
      exact ⟨sub, List.mem_cons_self, rfl, free_of_isDue hdue⟩
    · obtain ⟨found, hfound, hfree⟩ := ih h
      exact ⟨found, List.mem_cons_of_mem _ hfound, hfree⟩

theorem sublist_bundleFirst (sessionId : MbsSessionId) (servers : List NotificationServer)
    (subs : List Subscription) :
    ((bundleFirst sessionId servers subs).1.toList.map BundledSubscription.key).Sublist
      (subs.map Subscription.key) := by
  induction subs with
  | nil => exact List.Sublist.refl _
  | cons sub rest ih =>
    unfold bundleFirst
    split
    · exact (List.nil_sublist _).cons_cons _
    · exact ih.cons _

theorem subscriptions_create (config : ClientConfig) (s : Session) :
    (s.create config).1.subscriptions =
      (bundleFirst s.data.mbsSessionId config.notificationServers s.pendingNew).2 :=
  List.append_nil _

theorem targets_create (config : ClientConfig) (s : Session) :
    (s.create config).2.targets = .creation s.key ::
      ((bundleFirst s.data.mbsSessionId config.notificationServers
        s.pendingNew).1.toList.map BundledSubscription.key).map .subscription := by
  rw [List.map_map]
  rfl

theorem asks_create (config : ClientConfig) (s : Session) :
    Asks s (s.create config).1 [(s.create config).2] := by
  have hbundled : ∀ i ∈ [(s.create config).2], ∀ k, .subscription k ∈ i.targets →
      ∃ b, (bundleFirst s.data.mbsSessionId config.notificationServers s.pendingNew).1 = some b ∧
        b.key = k := by
    intro i hi k hk
    rw [List.mem_singleton.1 hi, targets_create] at hk
    simpa using hk
  refine ⟨fun sub' hsub' => ?_, fun i hi k hk => ?_, fun i hi k hk => ?_⟩
  · rw [subscriptions_create] at hsub'
    rcases mem_bundleFirst hsub' with hsub | ⟨sub, hsub, rfl⟩
    · exact ⟨sub', List.mem_append_left _ hsub, rfl, id⟩
    · exact ⟨sub, List.mem_append_left _ hsub, rfl, fun _ => rfl⟩
  · obtain ⟨b, hb, rfl⟩ := hbundled i hi k hk
    obtain ⟨sub, hsub, hfree⟩ := free_of_bundleFirst hb
    exact ⟨sub, List.mem_append_left _ hsub, hfree⟩
  · obtain ⟨b, hb, rfl⟩ := hbundled i hi k hk
    rw [subscriptions_create]
    exact awaited_of_bundleFirst _ _ hb

/-! ### Reconciliations -/

/-- The subscriptions of a resource, each with what is sent for it. -/
def pushedSubscriptions (config : ClientConfig) (s : Session) (r : Resource) :
    List (Subscription × Subscription × List Intent) :=
  s.pendingNew.map (fun sub => (sub, s.pushNew config r sub)) ++
    r.active.entries.map fun e => (e.2, pushActive e.1 e.2)

theorem pushed_of_mem {r : Resource} {p : Subscription × Subscription × List Intent}
    (h : p ∈ s.pushedSubscriptions config r) : SubscriptionPushed p.1 p.2 := by
  rcases List.mem_append.1 h with h | h
  · obtain ⟨sub, -, rfl⟩ := List.mem_map.1 h
    exact pushed_pushNew config s r sub
  · obtain ⟨e, -, rfl⟩ := List.mem_map.1 h
    exact pushed_pushActive e.1 e.2

theorem map_fst_pushedSubscriptions (config : ClientConfig) (s : Session) (r : Resource) :
    (s.pushedSubscriptions config r).map Prod.fst = s.pendingNew ++ r.active.values := by
  simp only [pushedSubscriptions, List.map_append, List.map_map]
  exact congrArg (· ++ r.active.values) (List.map_id s.pendingNew)

theorem subscriptions_pushSubscriptions (config : ClientConfig) (s : Session) (r : Resource) :
    (s.pushSubscriptions config r).1.subscriptions =
      (s.pushedSubscriptions config r).map fun p => p.2.1 := by
  simp only [pushedSubscriptions, List.map_append, List.map_map, subscriptions, pushSubscriptions,
    active, SortedMap.values, SortedMap.map]
  rfl

theorem intents_of_pushSubscriptions (config : ClientConfig) (s : Session) (r : Resource) :
    (s.pushSubscriptions config r).2 =
      (s.pushedSubscriptions config r).flatMap (fun p => p.2.2) ++
        r.pendingDelete.map fun e => .deleteSubscription e.1 := by
  simp only [pushedSubscriptions, List.flatMap_append, List.flatMap_map, pushSubscriptions,
    SortedMap.values, SortedMap.map]

theorem sublist_pushSubscriptions (config : ClientConfig) (s : Session) (r : Resource) :
    ((s.pushSubscriptions config r).2.flatMap Intent.targets).Sublist
      ((s.pendingNew ++ r.active.values).map fun sub => .subscription sub.key) := by
  have hdeleted : (r.pendingDelete.map fun e => Intent.deleteSubscription e.1).flatMap
      Intent.targets = [] := by
    simp [List.flatMap_map, Intent.targets]
  rw [intents_of_pushSubscriptions, List.flatMap_append, hdeleted, List.append_nil,
    List.flatMap_assoc, ← map_fst_pushedSubscriptions config, List.map_map]
  refine flatMap_sublist_map fun p hp => ?_
  rcases (pushed_of_mem hp).sent with hnone | ⟨⟨i, hone, htargets⟩, -, -⟩
  · rw [hnone]
    exact List.nil_sublist _
  · rw [hone, List.flatMap_singleton, htargets]
    exact List.Sublist.refl _

theorem asks_pushSubscriptions {r r' : Resource} (hr : s.remote = .registered r) {u : Session}
    (hnew : u.pendingNew = s.pendingNew) (hactive : r'.active = r.active)
    (config : ClientConfig) :
    Asks s (u.pushSubscriptions config r').1 (u.pushSubscriptions config r').2 := by
  have hfrom : ∀ p ∈ u.pushedSubscriptions config r', p.1 ∈ s.subscriptions := by
    intro p hp
    have hmem := List.mem_map_of_mem (f := Prod.fst) hp
    rw [map_fst_pushedSubscriptions, hnew, hactive, ← active_of_registered hr] at hmem
    exact hmem
  -- a request about a subscription belongs to one that has been pushed
  have hsent : ∀ i ∈ (u.pushSubscriptions config r').2, ∀ k, .subscription k ∈ i.targets →
      ∃ p ∈ u.pushedSubscriptions config r', p.1.key = k ∧ p.1.isInFlight = false ∧
        p.2.1.isInFlight = true := by
    intro i hi k hk
    rw [intents_of_pushSubscriptions] at hi
    rcases List.mem_append.1 hi with hi | hi
    · obtain ⟨p, hp, hip⟩ := List.mem_flatMap.1 hi
      rcases (pushed_of_mem hp).sent with hnone | ⟨⟨j, hone, htargets⟩, hfree, hflight⟩
      · rw [hnone] at hip
        cases hip
      · rw [hone, List.mem_singleton] at hip
        rw [hip, htargets, List.mem_singleton] at hk
        exact ⟨p, hp, (Target.subscription.inj hk).symm, hfree, hflight⟩
    · obtain ⟨e, -, rfl⟩ := List.mem_map.1 hi
      cases hk
  refine ⟨fun sub' hsub' => ?_, fun i hi k hk => ?_, fun i hi k hk => ?_⟩
  · rw [subscriptions_pushSubscriptions] at hsub'
    obtain ⟨p, hp, rfl⟩ := List.mem_map.1 hsub'
    have hpushed := pushed_of_mem hp
    exact ⟨p.1, hfrom p hp, hpushed.key.symm, hpushed.flight⟩
  · obtain ⟨p, hp, hkey, hfree, -⟩ := hsent i hi k hk
    exact ⟨p.1, hfrom p hp, hkey, hfree⟩
  · obtain ⟨p, hp, hkey, -, hflight⟩ := hsent i hi k hk
    rw [subscriptions_pushSubscriptions]
    exact ⟨p.2.1, List.mem_map_of_mem hp, (pushed_of_mem hp).key.trans hkey, hflight⟩

/-! ## 2. What is sent about the record -/

/-- Of the record, nothing is sent and the patch that is waited for stays, or a patch is sent and
waited for where none was. -/
def BodyAsked (s : Session) (r r' : Resource) (sent : List Intent) : Prop :=
  (r'.patching = r.patching ∧ sent = []) ∨
    (r.patching = none ∧ r'.patching.isSome = true ∧ ∃ ops, sent = [.patchResource s.key r.id ops])

theorem bodyAsked_pushBody (s : Session) (r : Resource) :
    BodyAsked s r (s.pushBody r).2.1 (s.pushBody r).2.2 := by
  unfold pushBody
  split
  · exact .inl ⟨rfl, rfl⟩
  · rename_i hnone
    split
    · exact .inl ⟨rfl, rfl⟩
    · exact .inr ⟨hnone, rfl, _, rfl⟩

-- A reconciliation asks about the body, then about the subscriptions.
theorem reconcile_asks (config : ClientConfig) (s : Session) (r : Resource) :
    ∃ p, BodyPushed s r p ∧ BodyAsked s r p.2.1 p.2.2 ∧ s.reconcile config r =
      ((p.1.pushSubscriptions config p.2.1).1,
        p.2.2 ++ (p.1.pushSubscriptions config p.2.1).2) := by
  refine ⟨if config.sessionBodyPatch then pushBody { s with dirty := false } r
    else ({ s with dirty := false }, r, []), ?_, ?_, rfl⟩
  · split
    · have hpushed := bodyPushed_pushBody { s with dirty := false } r
      exact ⟨hpushed.key, hpushed.data, hpushed.pendingNew, hpushed.id, hpushed.active,
        hpushed.pendingDelete, hpushed.patches⟩
    · exact ⟨rfl, rfl, rfl, rfl, rfl, rfl, by simp⟩
  · split
    · exact bodyAsked_pushBody { s with dirty := false } r
    · exact .inl ⟨rfl, rfl⟩

/-! ## 3. Pushes -/

theorem targets_release (s : Session) : s.release.flatMap Intent.targets = [] := by
  unfold release
  split <;> rfl

theorem sublist_create (config : ClientConfig) (s : Session) :
    [(s.create config).2].flatMap Intent.targets |>.Sublist
      (.creation s.key :: s.newKeys.map .subscription) := by
  rw [List.flatMap_singleton, targets_create]
  exact ((sublist_bundleFirst _ _ _).map _).cons_cons _

/-- **A push sends one request for a target at most**, and for targets of its session only. -/
theorem targets_push (config : ClientConfig) (s : Session) :
    ((s.push config).2.flatMap Intent.targets).Sublist s.targets := by
  have hcreation : ∀ keys : List SubscriptionKey, keys.Sublist s.wantedKeys →
      (Target.creation s.key :: keys.map .subscription).Sublist s.targets :=
    fun keys hkeys => ((hkeys.map _).cons _).cons_cons _
  have hpushes := s.pushes config
  generalize s.push config = q at hpushes
  cases hpushes with
  | removed =>
    rw [targets_release]
    exact List.nil_sublist _
  | created =>
    refine (sublist_create config s).trans (hcreation s.newKeys ?_)
    rw [wantedKeys_eq]
    exact List.sublist_append_left _ _
  | recreated =>
    simp only [List.flatMap_append, targets_release, List.nil_append]
    have hrequeued := sublist_create config s.requeue
    rw [newKeys_requeue] at hrequeued
    exact hrequeued.trans (hcreation _ (List.Sublist.refl _))
  | @reconciled r hkept hremote =>
    obtain ⟨p, hbody, hasked, heq⟩ := reconcile_asks config s r
    have hbodySent : (p.2.2.flatMap Intent.targets).Sublist [.patch s.key] := by
      rcases hasked with ⟨-, hnone⟩ | ⟨-, -, ops, hone⟩
      · rw [hnone]
        exact List.nil_sublist _
      · rw [hone]
        exact List.Sublist.refl _
    have hsubs := sublist_pushSubscriptions config p.1 p.2.1
    rw [hbody.pendingNew, hbody.active, ← active_of_registered hremote] at hsubs
    have hwanted : s.wantedKeys.map Target.subscription =
        s.subscriptions.map fun sub => .subscription sub.key := List.map_map
    rw [heq]
    simp only [List.flatMap_append, targets, hwanted]
    exact (hbodySent.append hsubs).cons _
  | idle => exact List.nil_sublist _

-- The targets of a session that is not removed stay the same.
theorem targets_of_push (h : (s.push config).1 = some s') : s'.targets = s.targets := by
  cases hdeleted : s.deleted with
  | true => simp [push, hdeleted] at h
  | false =>
    obtain ⟨t, ht, -, hwanted⟩ := wantedKeys_push config hdeleted
    obtain rfl : s' = t := Option.some.inj (h.symm.trans ht)
    rw [targets, targets, key_of_push h, hwanted]

theorem mem_targets_of_sent (hi : i ∈ (s.push config).2) (ht : t ∈ i.targets) : t ∈ s.targets :=
  (targets_push config s).subset (List.mem_flatMap.2 ⟨i, hi, ht⟩)

-- A subscription that waits is the only one with its key.
theorem inFlight_of_awaited (hn : s.subscriptionKeys.Nodup) (h : Awaited s.subscriptions k) :
    ∀ sub ∈ s.subscriptions, sub.key = k → sub.isInFlight = true := by
  obtain ⟨found, hfound, hkey, hflight⟩ := h
  intro sub hsub hk
  rwa [eq_of_key hn hsub hfound (hk.trans hkey.symm)]

theorem nodup_push (hn : s.subscriptionKeys.Nodup) (h : (s.push config).1 = some s') :
    s'.subscriptionKeys.Nodup := by
  rw [List.nodup_iff_count_le_one] at hn ⊢
  exact fun k => Nat.le_trans (count_subscriptionKeys_push h k) (hn k)

theorem busy_of_create (hn : (s.create config).1.subscriptionKeys.Nodup)
    (ht : t ∈ (s.create config).2.targets) :
    (s.create config).1.Busy (s.create config).2 t := by
  cases t with
  | creation key => exact fun _ => ⟨_, _, rfl⟩
  | patch key =>
    rw [targets_create] at ht
    simp at ht
  | subscription k =>
    have hawaited := (asks_create config s).waits _ (List.mem_singleton_self _) k ht
    exact fun sub hsub hk => ⟨inFlight_of_awaited hn hawaited sub hsub hk, fun _ _ => rfl⟩

/-- **A request leaves its mark.** -/
theorem busy_of_sent (hn : s.subscriptionKeys.Nodup) (hi : i ∈ (s.push config).2)
    (ht : t ∈ i.targets) (hs' : (s.push config).1 = some s') : s'.Busy i t := by
  have hn' := nodup_push hn hs'
  have hpushes := s.pushes config
  generalize s.push config = q at hpushes hi hs'
  cases hpushes with
  | removed => cases hs'
  | created =>
    rw [← Option.some.inj hs'] at hn' ⊢
    rw [List.mem_singleton.1 hi] at ht ⊢
    exact busy_of_create hn' ht
  | recreated =>
    rw [← Option.some.inj hs'] at hn' ⊢
    rcases List.mem_append.1 hi with hi | hi
    · have hmem : t ∈ s.release.flatMap Intent.targets := List.mem_flatMap.2 ⟨i, hi, ht⟩
      rw [targets_release] at hmem
      cases hmem
    · rw [List.mem_singleton.1 hi] at ht ⊢
      exact busy_of_create hn' ht
  | @reconciled r hkept hremote =>
    rw [← Option.some.inj hs'] at hn' ⊢
    obtain ⟨p, hbody, hasked, heq⟩ := reconcile_asks config s r
    rw [heq] at hn' hi ⊢
    rcases List.mem_append.1 hi with hi | hi
    · rcases hasked with ⟨-, hnone⟩ | ⟨-, hsome, ops, hone⟩
      · rw [hnone] at hi
        cases hi
      · rw [hone, List.mem_singleton] at hi
        rw [hi] at ht
        rw [List.mem_singleton.1 ht]
        exact fun _ => hsome
    · have hsub := (sublist_pushSubscriptions config p.1 p.2.1).subset
        (List.mem_flatMap.2 ⟨i, hi, ht⟩)
      obtain ⟨sub, -, rfl⟩ := List.mem_map.1 hsub
      have hasks := asks_pushSubscriptions hremote hbody.pendingNew hbody.active config
      exact busy_of_registered rfl (inFlight_of_awaited hn' (hasks.waits i hi _ ht))
  | idle => cases hi

-- Where a subscription waits, none with its key is free.
theorem Busy.not_free (h : s.Busy i (.subscription k)) :
    ¬ ∃ sub ∈ s.subscriptions, sub.key = k ∧ sub.isInFlight = false := by
  rintro ⟨sub, hsub, hk, hfree⟩
  rw [(h sub hsub hk).1] at hfree
  cases hfree

theorem Busy.not_absent (h : s.Busy i t) (ht : t ∈ s.targets) (hremote : s.remote = .absent) :
    ∃ k, t = .subscription k := by
  cases t with
  | creation key =>
    obtain ⟨body, bundled, hcreating⟩ := h (creation_mem_targets.1 ht)
    rw [hremote] at hcreating
    cases hcreating
  | patch key =>
    have hsome : s.patching?.isSome = true := h (patch_mem_targets.1 ht)
    simp [patching?, resource?, hremote, Remote.resource?] at hsome
  | subscription k => exact ⟨k, rfl⟩

/-- **Where the mark is, no push asks again**, unless it creates the session anew. -/
theorem not_sent_of_busy (h : s.Busy i t) (hkeeps : ¬ (s.Recreates ∧ t ∈ s.targets)) :
    ∀ j ∈ (s.push config).2, t ∉ j.targets := by
  intro j hj htj
  have ht := mem_targets_of_sent hj htj
  have hpushes := s.pushes config
  generalize s.push config = q at hpushes hj
  cases hpushes with
  | removed =>
    have hmem : t ∈ s.release.flatMap Intent.targets := List.mem_flatMap.2 ⟨j, hj, htj⟩
    rw [targets_release] at hmem
    cases hmem
  | created hkept hremote =>
    obtain ⟨k, rfl⟩ := h.not_absent ht hremote
    exact h.not_free ((asks_create config s).free j hj k htj)
  | recreated hkept hremote hchanged =>
    exact hkeeps ⟨⟨by simp [state, hkept, hremote], hchanged⟩, ht⟩
  | @reconciled r hkept hremote =>
    obtain ⟨p, hbody, hasked, heq⟩ := reconcile_asks config s r
    rw [heq] at hj
    rcases List.mem_append.1 hj with hj | hj
    · rcases hasked with ⟨-, hnone⟩ | ⟨hnone, -, ops, hone⟩
      · rw [hnone] at hj
        cases hj
      · -- no patch is sent while another is waited for
        rw [hone, List.mem_singleton] at hj
        rw [hj, Intent.targets, List.mem_singleton] at htj
        subst htj
        have hsome : s.patching?.isSome = true := h rfl
        rw [patching?_of_registered hremote, hnone] at hsome
        cases hsome
    · have hsub := (sublist_pushSubscriptions config p.1 p.2.1).subset
        (List.mem_flatMap.2 ⟨j, hj, htj⟩)
      obtain ⟨sub, -, rfl⟩ := List.mem_map.1 hsub
      have hasks := asks_pushSubscriptions hremote hbody.pendingNew hbody.active config
      exact h.not_free (hasks.free j hj _ htj)
  | idle => cases hj

/-- **A push leaves the mark**, unless it creates the session anew. -/
theorem busy_push (h : s.Busy i t) (hkeeps : ¬ (s.Recreates ∧ t ∈ s.targets))
    (hs' : (s.push config).1 = some s') : s'.Busy i t := by
  by_cases ht : t ∈ s.targets
  · have hpushes := s.pushes config
    generalize s.push config = q at hpushes hs'
    cases hpushes with
    | removed => cases hs'
    | created hkept hremote =>
      rw [← Option.some.inj hs']
      obtain ⟨k, rfl⟩ := h.not_absent ht hremote
      have hasks := asks_create config s
      intro sub' hsub' hk
      obtain ⟨sub, hsub, hkey, hflight⟩ := hasks.flight sub' hsub'
      refine ⟨hflight (h sub hsub (hkey.trans hk)).1, fun body hcreating => ?_⟩
      -- what waits does not ride on the creation that is sent now
      have hrides : Target.subscription k ∈ (s.create config).2.targets := by
        obtain ⟨b, hb, hkb⟩ := Option.map_eq_some_iff.1 (Remote.creating.inj hcreating).2
        rw [targets_create, hb]
        simp [hkb]
      exact absurd (hasks.free _ (List.mem_singleton_self _) k hrides) h.not_free
    | recreated hkept hremote hchanged =>
      exact absurd ⟨⟨by simp [state, hkept, hremote], hchanged⟩, ht⟩ hkeeps
    | @reconciled r hkept hremote =>
      rw [← Option.some.inj hs']
      obtain ⟨p, hbody, hasked, heq⟩ := reconcile_asks config s r
      rw [heq]
      cases t with
      | creation key =>
        obtain ⟨body, bundled, hcreating⟩ := h (creation_mem_targets.1 ht)
        rw [hremote] at hcreating
        cases hcreating
      | patch key =>
        have hsome : s.patching?.isSome = true := h (patch_mem_targets.1 ht)
        rw [patching?_of_registered hremote] at hsome
        intro _
        rcases hasked with ⟨hsame, -⟩ | ⟨-, hwaits, -⟩
        · rwa [← hsame] at hsome
        · exact hwaits
      | subscription k =>
        have hasks := asks_pushSubscriptions hremote hbody.pendingNew hbody.active config
        refine busy_of_registered rfl fun sub' hsub' hk => ?_
        obtain ⟨sub, hsub, hkey, hflight⟩ := hasks.flight sub' hsub'
        exact hflight (h sub hsub (hkey.trans hk)).1
    | idle => rwa [← Option.some.inj hs']
  · rw [← targets_of_push hs'] at ht
    exact busy_of_not_mem_targets ht

end Session

end MbsClient
