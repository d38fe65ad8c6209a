import MbsClient.Proofs.Session.Awaiting
import MbsClient.Proofs.Session.Labels

/-!
# Origins — where the subscriptions of a session come from

A move leaves most subscriptions as they are. What it can do to the others is said here once,
bucket by bucket (`origins_moved`), so that a property of subscriptions has to be looked at origin
by origin and not move by move.
-/

namespace MbsClient

/-- A wanted subscription after some changes. -/
def Subscription.changed (changes : List SubscriptionChange) (sub : Subscription) :
    Subscription :=
  { changes.foldl Subscription.change sub with dirty := true }

namespace Session

/-! ## 1. Subscriptions by their keys -/

section

variable {s : Session} (hn : s.subscriptionKeys.Nodup)
include hn

theorem eq_of_key {sub sub' : Subscription} (h : sub ∈ s.subscriptions)
    (h' : sub' ∈ s.subscriptions) (hkey : sub.key = sub'.key) : sub = sub' :=
  List.inj_on_of_nodup_map (List.nodup_append.1 hn).1 h h' hkey

-- A new subscription is not registered as well.
theorem key_ne_of_new {sub sub' : Subscription} (h : sub ∈ s.pendingNew)
    (h' : sub' ∈ s.active.values) : sub.key ≠ sub'.key := by
  have hwanted := (List.nodup_append.1 hn).1
  rw [subscriptions, List.map_append] at hwanted
  exact (List.nodup_append.1 hwanted).2.2 _ (List.mem_map_of_mem h) _ (List.mem_map_of_mem h')

end

theorem mem_subscriptions {s : Session} {sub : Subscription} :
    sub ∈ s.subscriptions ↔ sub ∈ s.pendingNew ∨ ∃ id, s.active.get? id = some sub := by
  rw [subscriptions, List.mem_append, SortedMap.mem_values]

-- What is let go was wanted.
theorem mem_of_detach? {s s' : Session} {key : SubscriptionKey} {sub : Subscription}
    (h : s.detach? key = some (sub, s')) : sub ∈ s.subscriptions ∧ sub.key = key := by
  unfold detach? at h
  split at h
  · rename_i found hfound
    obtain ⟨rfl, -⟩ := Prod.mk.inj (Option.some.inj h)
    exact ⟨List.mem_append_left _ (List.mem_of_find?_eq_some hfound),
      by simpa using List.find?_some hfound⟩
  · obtain ⟨⟨id, found⟩, hfound, he⟩ := Option.map_eq_some_iff.1 h
    obtain ⟨rfl, -⟩ := Prod.mk.inj he
    have hget := SortedMap.mem_entries.1 (List.mem_of_find?_eq_some hfound)
    exact ⟨mem_subscriptions.2 (.inr ⟨id, hget⟩), by simpa using List.find?_some hfound⟩

/-! ## 2. The subscription that rides on a creation -/

/-- The subscription that rides on the outstanding creation is there and waits. -/
def Rides (s : Session) : Prop :=
  ∀ body key, s.remote = .creating body (some key) → Awaited s.pendingNew key

theorem rides_new (key : SessionKey) : Rides { key } := by
  intro body k h
  simp at h

-- Sessions that wait for no creation have no rider.
theorem rides_of_not_creating {s : Session} (h : ∀ body key, s.remote ≠ .creating body (some key)) :
    s.Rides :=
  fun body key hr => absurd hr (h body key)

theorem awaited_append {subs subs' : List Subscription} {key : SubscriptionKey}
    (h : Awaited subs key) : Awaited (subs ++ subs') key := by
  obtain ⟨sub, hsub, hk⟩ := h
  exact ⟨sub, List.mem_append_left _ hsub, hk⟩

theorem awaited_modifyIn_of_inFlight {f : Subscription → Subscription}
    (hkey : ∀ sub, (f sub).key = sub.key) (hflight : ∀ sub, (f sub).inFlight = sub.inFlight)
    (changed : SubscriptionKey) {subs : List Subscription} {key : SubscriptionKey}
    (h : Awaited subs key) : Awaited (modifyIn changed f subs) key := by
  obtain ⟨sub, hsub, hk, hin⟩ := h
  refine ⟨_, List.mem_map_of_mem hsub, ?_⟩
  split
  · exact ⟨(hkey sub).trans hk, by rw [Subscription.isInFlight, hflight]; exact hin⟩
  · exact ⟨hk, hin⟩

-- The first subscription that is due is the one that is sent.
theorem awaited_of_bundleFirst (sessionId : MbsSessionId) (servers : List NotificationServer)
    {subs : List Subscription} {b : BundledSubscription}
    (h : (bundleFirst sessionId servers subs).1 = some b) :
    Awaited (bundleFirst sessionId servers subs).2 b.key := by
  induction subs with
  | nil => simp [bundleFirst] at h
  | cons sub rest ih =>
    unfold bundleFirst at h ⊢
    split at h
    · rename_i hdue
      rw [if_pos hdue, ← Option.some.inj h]
      exact ⟨_, List.mem_cons_self, rfl, rfl⟩
    · rename_i hdue
      rw [if_neg hdue]
      obtain ⟨t, ht, hk⟩ := ih h
      exact ⟨t, List.mem_cons_of_mem _ ht, hk⟩

theorem rides_create (config : ClientConfig) (s : Session) : (s.create config).1.Rides := by
  intro body key h
  obtain ⟨-, hbundled⟩ := Remote.creating.inj h
  obtain ⟨b, hb, rfl⟩ := Option.map_eq_some_iff.1 hbundled
  exact awaited_of_bundleFirst _ _ hb

theorem rides_detach? {s s' : Session} (h : s.Rides) {key : SubscriptionKey} {sub : Subscription}
    (hd : s.detach? key = some (sub, s')) : s'.Rides := by
  unfold detach? at hd
  split at hd
  · obtain ⟨-, rfl⟩ := Prod.mk.inj (Option.some.inj hd)
    intro body k hr
    cases hremote : s.remote with
    | absent => simp [hremote, Remote.unbundle] at hr
    | registered r => simp [hremote, Remote.unbundle] at hr
    | creating body' bundled =>
      -- the rider has stayed, so it is not the one that is let go
      simp only [hremote, Remote.unbundle, Remote.creating.injEq, Option.filter_eq_some_iff] at hr
      obtain ⟨t, ht, hk, hin⟩ := h body' k (by rw [hremote, hr.2.1])
      exact ⟨t, List.mem_filter.2 ⟨ht, by rw [hk]; exact hr.2.2⟩, hk, hin⟩
  · obtain ⟨e, -, he⟩ := Option.map_eq_some_iff.1 hd
    obtain ⟨-, rfl⟩ := Prod.mk.inj he
    intro body k hr
    cases hremote : s.remote with
    | absent => simp [hremote, Remote.mapResource] at hr
    | registered r => simp [hremote, Remote.mapResource] at hr
    | creating body' bundled =>
      simp only [hremote, Remote.mapResource] at hr
      exact h body k (hremote.trans hr)

theorem not_creating_mapResource {s : Session} {f : Resource → Resource} {body : MbsSession}
    {bundled : Option SubscriptionKey} (h : s.remote.mapResource f = .creating body bundled) :
    s.remote = .creating body bundled := by
  cases hremote : s.remote with
  | absent => simp [hremote, Remote.mapResource] at h
  | registered r => simp [hremote, Remote.mapResource] at h
  | creating body' bundled' => simpa [hremote, Remote.mapResource] using h

theorem rides_push {s s' : Session} (h : s.Rides) {config : ClientConfig}
    (hs' : (s.push config).1 = some s') : s'.Rides := by
  have hpushes := s.pushes config
  generalize s.push config = q at hpushes hs'
  cases hpushes with
  | removed => cases hs'
  | created =>
    rw [← Option.some.inj hs']
    exact rides_create config s
  | recreated =>
    rw [← Option.some.inj hs']
    exact rides_create config s.requeue
  | reconciled =>
    rw [← Option.some.inj hs']
    exact rides_of_not_creating (fun _ _ => Remote.noConfusion)
  | idle => rwa [← Option.some.inj hs']

/-- **A rider rides** as long as the creation is outstanding. -/
theorem rides_moved {s s' : Session} (h : s.Rides) {m : Move} (hs' : (s.moved m).1 = some s') :
    s'.Rides := by
  cases m <;> simp only [moved] at hs'
  case watch =>
    rw [← Option.some.inj hs']
    exact h
  case change c =>
    rw [← Option.some.inj hs']
    cases hc : s.change c with
    | error e => exact h
    | ok t =>
      obtain ⟨data, dirty, rfl⟩ := eq_of_change hc
      exact h
  case markDeleted =>
    rw [← Option.some.inj hs']
    exact h
  case takeOver sub =>
    rw [← Option.some.inj hs']
    exact fun body key hr => awaited_append (h body key hr)
  case letGo key =>
    split at hs'
    · rename_i sub t hdetach
      rw [← Option.some.inj hs']
      exact rides_detach? h hdetach
    · rwa [← Option.some.inj hs']
  case withdraw key =>
    rw [← Option.some.inj hs']
    cases hr : s.removeSubscription key with
    | error e => exact h
    | ok t =>
      unfold removeSubscription at hr
      split at hr
      · simp at hr
      · rename_i sub u hdetach
        have hu := rides_detach? h hdetach
        split at hr <;> rw [← Except.ok.inj hr]
        · exact fun body k hremote => hu body k (not_creating_mapResource hremote)
        · exact hu
  case modify key changes =>
    split at hs' <;> rw [← Option.some.inj hs']
    · exact h
    · intro body k hremote
      exact awaited_modifyIn_of_inFlight (f := Subscription.changed changes)
        (fun sub => foldl_change_key changes sub) (fun sub => foldl_change_inFlight changes sub) key
        (h body k (not_creating_mapResource hremote))
  case push config => exact rides_push h hs'
  case release => simp at hs'
  case created answer =>
    split at hs' <;> rw [← Option.some.inj hs']
    · exact rides_of_not_creating (fun _ _ => Remote.noConfusion)
    · exact h
  case refused problem =>
    split at hs' <;> rw [← Option.some.inj hs']
    · exact rides_of_not_creating (fun _ _ => Remote.noConfusion)
    · exact h
  case timedOut =>
    split at hs'
    · simp at hs'
    · rwa [← Option.some.inj hs']
  case patched result =>
    rw [← Option.some.inj hs']
    unfold patched
    split
    · split
      · exact rides_of_not_creating (fun _ _ => Remote.noConfusion)
      · exact h
    · exact h
  case subscriptionCreated key result =>
    split at hs'
    · rename_i t calls hcreated
      rw [← Option.some.inj hs']
      unfold subscriptionCreated? at hcreated
      split at hcreated
      · rename_i r _ hr
        have hregistered : ∀ body k, s.remote ≠ .creating body k := by simp [hr]
        split at hcreated
        · simp at hcreated
        · split at hcreated
          · obtain ⟨rfl, -⟩ := Prod.mk.inj (Option.some.inj hcreated)
            exact rides_of_not_creating (fun _ _ => Remote.noConfusion)
          · obtain ⟨rfl, -⟩ := Prod.mk.inj (Option.some.inj hcreated)
            exact rides_of_not_creating fun body k => hregistered body k
      · simp at hcreated
    · rwa [← Option.some.inj hs']
  case subscriptionUpdated key result =>
    rw [← Option.some.inj hs']
    unfold subscriptionUpdated
    split
    · exact h
    · rename_i sub hfound
      -- only a registered session has subscriptions to change
      have hregistered : ∀ body k, s.remote ≠ .creating body k := by
        intro body k hr
        simp [active, hr, SortedMap.values, SortedMap.empty] at hfound
      split <;>
        exact rides_of_not_creating fun body k hr =>
          hregistered body (some k) (not_creating_mapResource hr)

/-! ## 3. Origins -/

/-- Where a new subscription comes from after a move. -/
inductive NewFrom (s : Session) : Move → Subscription → Prop
  | kept {m sub} (h : sub ∈ s.pendingNew) : NewFrom s m sub
  | takenOver {sub} : NewFrom s (.takeOver sub) { sub.forgetRemote with session := s.key }
  | changed {key changes sub} (h : sub ∈ s.pendingNew) :
      NewFrom s (.modify key changes) (sub.changed changes)
  | sent {config sub} (h : sub ∈ s.pendingNew) :
      NewFrom s (.push config) (sub.sendCreate s.data.mbsSessionId config.notificationServers)
  | requeued {config sub} (h : sub ∈ s.subscriptions) : NewFrom s (.push config) sub.forgetRemote
  /-- A new creation of the session takes the first one along. -/
  | resent {config sub} (h : sub ∈ s.subscriptions) : NewFrom s (.push config)
      (sub.forgetRemote.sendCreate s.data.mbsSessionId config.notificationServers)
  | failed {m sub} (h : sub ∈ s.pendingNew) : NewFrom s m sub.fail

/-- Where a registered subscription comes from after a move. -/
inductive ActiveFrom (s : Session) : Move → String → Subscription → Prop
  | kept {m id sub} (h : s.active.get? id = some sub) : ActiveFrom s m id sub
  | changed {key changes id sub} (h : s.active.get? id = some sub) :
      ActiveFrom s (.modify key changes) id (sub.changed changes)
  /-- Nothing differs from what is acknowledged, so nothing is sent. -/
  | unchanged {config id sub} (h : s.active.get? id = some sub) (hdue : sub.isDue = true)
      (hsame : sub.pendingOps = []) : ActiveFrom s (.push config) id { sub with dirty := false }
  | sent {config id sub} (h : s.active.get? id = some sub) :
      ActiveFrom s (.push config) id sub.sendUpdate
  | confirmed {m id sub expiry} (h : s.active.get? id = some sub) (hin : sub.isInFlight = true) :
      ActiveFrom s m id (sub.confirm expiry)
  | failed {m id sub} (h : s.active.get? id = some sub) : ActiveFrom s m id sub.fail
  /-- It was new, and what was sent of it has been answered. -/
  | created {m id sub expiry} (h : sub ∈ s.pendingNew) (hin : sub.isInFlight = true) :
      ActiveFrom s m id (sub.confirmCreate id expiry)

/-- Where a subscription that is to be deleted comes from after a move. -/
inductive LeavingFrom (s : Session) : Subscription → Prop
  | kept (id) {sub} (h : (id, sub) ∈ s.pendingDelete) : LeavingFrom s sub
  | withdrawn {sub} (h : sub ∈ s.subscriptions) : LeavingFrom s sub.forgetRemote

/-- Where the subscriptions of a session come from that has made a move. -/
structure Origins (s : Session) (m : Move) (s' : Session) : Prop where
  new : ∀ sub ∈ s'.pendingNew, NewFrom s m sub
  active : ∀ id sub, s'.active.get? id = some sub → ActiveFrom s m id sub
  leaving : ∀ id sub, (id, sub) ∈ s'.pendingDelete → LeavingFrom s sub

theorem active_eq (s : Session) : s.active = (s.resource?.map Resource.active).getD .empty := by
  cases hr : s.remote <;> simp [active, resource?, hr, Remote.resource?]

theorem pendingDelete_eq (s : Session) :
    s.pendingDelete = (s.resource?.map Resource.pendingDelete).getD [] := by
  cases hr : s.remote <;> simp [pendingDelete, resource?, hr, Remote.resource?]

-- A move that leaves the resource alone concerns new subscriptions only.
theorem origins_of_resource? {s s' : Session} {m : Move}
    (hnew : ∀ sub ∈ s'.pendingNew, NewFrom s m sub) (hresource : s'.resource? = s.resource?) :
    Origins s m s' where
  new := hnew
  active id sub h := by
    rw [active_eq, hresource, ← active_eq] at h
    exact .kept h
  leaving id sub h := by
    rw [pendingDelete_eq, hresource, ← pendingDelete_eq] at h
    exact .kept id h

theorem origins_refl (s : Session) (m : Move) : Origins s m s :=
  origins_of_resource? (fun _ h => .kept h) rfl

theorem origins_of_resource?_none {s s' : Session} {m : Move}
    (hnew : ∀ sub ∈ s'.pendingNew, NewFrom s m sub) (hnone : s'.resource? = none) :
    Origins s m s' where
  new := hnew
  active _ _ h := by simp [active_eq, hnone] at h
  leaving _ _ h := by simp [pendingDelete_eq, hnone] at h

theorem pendingDelete_of_registered {s : Session} {r : Resource} (h : s.remote = .registered r) :
    s.pendingDelete = r.pendingDelete := by
  simp [pendingDelete, h]

theorem resource?_of_registered {s : Session} {r : Resource} (h : s.remote = .registered r) :
    s.resource? = some r := by
  simp [resource?, h, Remote.resource?]

theorem resource?_unbundle (key : SubscriptionKey) (remote : Remote) :
    (remote.unbundle key).resource? = remote.resource? := by
  cases remote <;> rfl

theorem resource?_mapResource (f : Resource → Resource) (remote : Remote) :
    (remote.mapResource f).resource? = remote.resource?.map f := by
  cases remote <;> rfl

/-! ### Changes in place -/

theorem mem_modifyIn {key : SubscriptionKey} {f : Subscription → Subscription}
    {subs : List Subscription} {sub : Subscription} (h : sub ∈ modifyIn key f subs) :
    sub ∈ subs ∨ ∃ t ∈ subs, t.key = key ∧ sub = f t := by
  obtain ⟨t, ht, rfl⟩ := List.mem_map.1 h
  split
  · rename_i hkey
    exact .inr ⟨t, ht, hkey, rfl⟩
  · exact .inl ht

theorem get?_modifySubscription {s : Session} {key : SubscriptionKey}
    {f : Subscription → Subscription} {id : String} {sub : Subscription}
    (h : (s.modifySubscription key f).active.get? id = some sub) :
    s.active.get? id = some sub ∨ ∃ t, s.active.get? id = some t ∧ t.key = key ∧ sub = f t := by
  cases hr : s.remote with
  | absent => simp [active, modifySubscription, hr, Remote.mapResource] at h
  | creating body bundled => simp [active, modifySubscription, hr, Remote.mapResource] at h
  | registered r =>
    simp only [active, modifySubscription, hr, Remote.mapResource] at h ⊢
    obtain ⟨t, ht, rfl⟩ := get?_map_eq_some h
    split
    · rename_i hkey
      exact .inr ⟨t, ht, hkey, rfl⟩
    · exact .inl ht

theorem pendingDelete_modifySubscription (s : Session) (key : SubscriptionKey)
    (f : Subscription → Subscription) :
    (s.modifySubscription key f).pendingDelete = s.pendingDelete := by
  cases hr : s.remote <;> simp [pendingDelete, modifySubscription, hr, Remote.mapResource]

-- A change of the subscriptions with a key leaves the others.
theorem origins_modifySubscription {s s' : Session} {m : Move} (key : SubscriptionKey)
    {f : Subscription → Subscription}
    (hnew : ∀ sub ∈ s.pendingNew, sub.key = key → NewFrom s m (f sub))
    (hactive : ∀ id sub, s.active.get? id = some sub → sub.key = key → ActiveFrom s m id (f sub))
    (hs' : s'.pendingNew = (s.modifySubscription key f).pendingNew)
    (hremote : s'.remote = (s.modifySubscription key f).remote) : Origins s m s' where
  new sub h := by
    rw [hs'] at h
    rcases mem_modifyIn h with h | ⟨t, ht, hkey, rfl⟩
    · exact .kept h
    · exact hnew t ht hkey
  active id sub h := by
    have hsame : s'.active = (s.modifySubscription key f).active := by
      simp only [active, hremote]
    rw [hsame] at h
    rcases get?_modifySubscription h with h | ⟨t, ht, hkey, rfl⟩
    · exact .kept h
    · exact hactive id t ht hkey
  leaving id sub h := by
    have hsame : s'.pendingDelete = (s.modifySubscription key f).pendingDelete := by
      simp only [pendingDelete, hremote]
    rw [hsame, pendingDelete_modifySubscription] at h
    exact .kept id h

/-! ### Subscriptions that leave -/

-- A subscription that is let go leaves the others where they are.
theorem kept_detach? {s s' : Session} {key : SubscriptionKey} {sub : Subscription}
    (h : s.detach? key = some (sub, s')) :
    (∀ t ∈ s'.pendingNew, t ∈ s.pendingNew) ∧
      (∀ id t, s'.active.get? id = some t → s.active.get? id = some t) ∧
      s'.resource?.map Resource.pendingDelete = s.resource?.map Resource.pendingDelete := by
  unfold detach? at h
  split at h
  · obtain ⟨-, rfl⟩ := Prod.mk.inj (Option.some.inj h)
    have hresource : (s.remote.unbundle key).resource? = s.resource? :=
      resource?_unbundle key s.remote
    refine ⟨fun t ht => List.mem_of_mem_filter ht, fun id t ht => ?_, ?_⟩
    · rwa [active_eq, resource?, hresource, ← active_eq] at ht
    · rw [resource?, hresource]
  · obtain ⟨e, -, he⟩ := Option.map_eq_some_iff.1 h
    obtain ⟨-, rfl⟩ := Prod.mk.inj he
    refine ⟨fun t ht => ht, fun id t ht => ?_, ?_⟩
    · rw [active_eq, resource?, resource?_mapResource] at ht
      rw [active_eq, resource?]
      cases hr : s.remote.resource? with
      | none => simp [hr] at ht
      | some r =>
        simp only [hr, Option.map_some, Option.getD_some] at ht ⊢
        by_cases hid : id = e.1
        · simp [hid] at ht
        · rwa [SortedMap.get?_erase_of_ne _ hid] at ht
    · rw [resource?, resource?_mapResource, Option.map_map]
      rfl

theorem origins_detach? {s s' : Session} {key : SubscriptionKey} {sub : Subscription}
    (h : s.detach? key = some (sub, s')) (m : Move) : Origins s m s' := by
  obtain ⟨hnew, hactive, hleaving⟩ := kept_detach? h
  refine ⟨fun t ht => .kept (hnew t ht), fun id t ht => .kept (hactive id t ht),
    fun id t ht => .kept id ?_⟩
  rwa [pendingDelete_eq, hleaving, ← pendingDelete_eq] at ht

theorem origins_removeSubscription {s s' : Session} {key : SubscriptionKey}
    (h : s.removeSubscription key = .ok s') (m : Move) : Origins s m s' := by
  unfold removeSubscription at h
  split at h
  · simp at h
  · rename_i sub t hdetach
    have ht := origins_detach? hdetach m
    split at h <;> rw [← Except.ok.inj h]
    · rename_i id hid
      refine ⟨ht.new, fun id' u hu => ht.active id' u ?_, fun id' u hu => ?_⟩
      · rw [active_eq, resource?, resource?_mapResource, Option.map_map] at hu
        rwa [active_eq]
      · rw [pendingDelete_eq, resource?, resource?_mapResource] at hu
        cases hr : t.remote.resource? with
        | none => simp [hr] at hu
        | some r =>
          simp only [hr, Option.map_some, Option.getD_some, List.mem_append,
            List.mem_singleton] at hu
          rcases hu with hu | hu
          · refine ht.leaving id' u ?_
            rw [pendingDelete_eq, resource?, hr]
            exact hu
          · rw [(Prod.mk.inj hu).2]
            exact .withdrawn (mem_of_detach? hdetach).1
    · exact ht

/-! ### Pushing -/

theorem mem_bundleFirst {sessionId : MbsSessionId} {servers : List NotificationServer}
    {subs : List Subscription} {sub : Subscription}
    (h : sub ∈ (bundleFirst sessionId servers subs).2) :
    sub ∈ subs ∨ ∃ t ∈ subs, sub = t.sendCreate sessionId servers := by
  induction subs with
  | nil => simp [bundleFirst] at h
  | cons t rest ih =>
    unfold bundleFirst at h
    split at h
    · rcases List.mem_cons.1 h with rfl | h
      · exact .inr ⟨t, List.mem_cons_self, rfl⟩
      · exact .inl (List.mem_cons_of_mem _ h)
    · rcases List.mem_cons.1 h with rfl | h
      · exact .inl List.mem_cons_self
      · rcases ih h with h | ⟨u, hu, rfl⟩
        · exact .inl (List.mem_cons_of_mem _ h)
        · exact .inr ⟨u, List.mem_cons_of_mem _ hu, rfl⟩

theorem origins_pushSubscriptions {s t : Session} {r r' : Resource} (hr : s.remote = .registered r)
    (hnew : t.pendingNew = s.pendingNew) (hdata : t.data = s.data) (hactive : r'.active = r.active)
    (config : ClientConfig) : Origins s (.push config) (t.pushSubscriptions config r').1 where
  new sub h := by
    simp only [pushSubscriptions, List.map_map, hnew] at h
    obtain ⟨u, hu, rfl⟩ := List.mem_map.1 h
    simp only [Function.comp_apply, pushNew]
    split
    · rw [hdata]
      exact .sent hu
    · exact .kept hu
  active id sub h := by
    simp only [pushSubscriptions, active, hactive] at h
    obtain ⟨p, hp, rfl⟩ := get?_map_eq_some h
    obtain ⟨u, hu, rfl⟩ := get?_map_eq_some hp
    rw [← active_of_registered hr] at hu
    unfold pushActive
    split
    · rename_i hdue
      split
      · rename_i hsame
        exact .unchanged hu hdue hsame
      · exact .sent hu
    · exact .kept hu
  leaving _ _ h := by simp [pushSubscriptions, pendingDelete] at h

theorem origins_reconcile {s : Session} {r : Resource} (hr : s.remote = .registered r)
    (config : ClientConfig) : Origins s (.push config) (s.reconcile config r).1 := by
  obtain ⟨p, hbody, heq⟩ := reconcile_eq config s r
  rw [heq]
  exact origins_pushSubscriptions hr hbody.pendingNew hbody.data hbody.active config

theorem origins_push {s s' : Session} {config : ClientConfig} (h : (s.push config).1 = some s') :
    Origins s (.push config) s' := by
  have hpushes := s.pushes config
  generalize s.push config = q at hpushes h
  cases hpushes with
  | removed => cases h
  | created =>
    rw [← Option.some.inj h]
    refine origins_of_resource?_none (fun sub hsub => ?_) rfl
    rcases mem_bundleFirst hsub with hsub | ⟨t, ht, rfl⟩
    · exact .kept hsub
    · exact .sent ht
  | recreated =>
    rw [← Option.some.inj h]
    refine origins_of_resource?_none (fun sub hsub => ?_) rfl
    rcases mem_bundleFirst hsub with hsub | ⟨t, ht, rfl⟩
    · obtain ⟨t, ht, rfl⟩ := List.mem_map.1 hsub
      exact .requeued ht
    · obtain ⟨u, hu, rfl⟩ := List.mem_map.1 ht
      exact .resent hu
  | reconciled _ hremote =>
    rw [← Option.some.inj h]
    exact origins_reconcile hremote config
  | idle =>
    rw [← Option.some.inj h]
    exact origins_refl s _

/-! ### Answers -/

-- The rider is the subscription that waits.
theorem isInFlight_of_rider? {s : Session} (hn : s.subscriptionKeys.Nodup) (h : s.Rides)
    {w : MbsSession × Option SubscriptionKey} (hw : s.waitingFor? = some w) {sub : Subscription}
    (hsub : s.rider? w.2 = some sub) : sub ∈ s.pendingNew ∧ sub.isInFlight = true := by
  obtain ⟨key, hkey, hfound⟩ := Option.bind_eq_some_iff.1 hsub
  have hmem := List.mem_of_find?_eq_some hfound
  have hremote : s.remote = .creating w.1 (some key) := by
    rw [(remote_of_waitingFor? hw).2, Option.mem_def.1 hkey]
  obtain ⟨t, ht, hk, hin⟩ := h w.1 key hremote
  have hsame : sub = t := by
    apply eq_of_key hn (mem_subscriptions.2 (.inl hmem)) (mem_subscriptions.2 (.inl ht))
    rw [hk]
    simpa using List.find?_some hfound
  exact ⟨hmem, by rw [hsame]; exact hin⟩

theorem origins_created {s : Session} (hn : s.subscriptionKeys.Nodup) (hrides : s.Rides)
    {w : MbsSession × Option SubscriptionKey} (hw : s.waitingFor? = some w)
    (answer : SessionCreated) (m : Move) : Origins s m (s.created w.1 w.2 answer).1 := by
  rcases created_cases s w.1 w.2 answer with
    ⟨sub, id, r, hsub, -, hnew, hr, -, hactive, hleaving⟩ | ⟨r, hnew, hr, -, hactive, hleaving⟩
  · obtain ⟨hmem, hin⟩ := isInFlight_of_rider? hn hrides hw hsub
    refine ⟨fun t ht => ?_, fun id' t ht => ?_, fun id' t ht => ?_⟩
    · rw [hnew] at ht
      exact .kept (List.mem_of_mem_filter ht)
    · rw [active_of_registered hr, hactive] at ht
      by_cases hid : id' = id
      · rw [hid, SortedMap.get?_insert_self] at ht
        rw [hid, ← Option.some.inj ht]
        exact .created hmem hin
      · rw [SortedMap.get?_insert_of_ne _ hid] at ht
        simp at ht
    · rw [pendingDelete_of_registered hr, hleaving] at ht
      simp at ht
  · refine ⟨fun t ht => ?_, fun id' t ht => ?_, fun id' t ht => ?_⟩
    · rcases hnew with ⟨-, hnew⟩ | ⟨sub, -, -, hnew⟩
      · rw [hnew] at ht
        exact .kept ht
      · rw [hnew] at ht
        rcases mem_modifyIn ht with ht | ⟨u, hu, -, rfl⟩
        · exact .kept ht
        · exact .failed hu
    · rw [active_of_registered hr, hactive] at ht
      simp at ht
    · rw [pendingDelete_of_registered hr, hleaving] at ht
      simp at ht

theorem origins_refused (s : Session) (bundled : Option SubscriptionKey)
    (problem : ProblemDetails) (m : Move) : Origins s m (s.refused bundled problem).1 := by
  refine origins_of_resource?_none (fun sub hsub => ?_) rfl
  simp only [refused, failBundled] at hsub
  split at hsub
  · rcases mem_modifyIn hsub with hsub | ⟨t, ht, -, rfl⟩
    · exact .kept hsub
    · exact .failed ht
  · exact .kept hsub

theorem origins_patched (s : Session) (result : OperationResult) (m : Move) :
    Origins s m (s.patched result).1 := by
  unfold patched
  split
  · rename_i r _ hr
    split
    · refine ⟨fun _ h => .kept h, fun id sub h => .kept ?_, fun id sub h => .kept id ?_⟩
      · rwa [active_of_registered hr]
      · rwa [pendingDelete_of_registered hr]
    · exact origins_refl s m
  · exact origins_refl s m

theorem origins_subscriptionCreated? {s s' : Session} {key : SubscriptionKey}
    {result : Except OperationResult SubscriptionAck} {calls : List Call}
    (h : s.subscriptionCreated? key result = some (s', calls)) (m : Move) : Origins s m s' := by
  unfold subscriptionCreated? at h
  split at h
  · rename_i r _ hr
    split at h
    · simp at h
    · rename_i sub hfound
      have hsub := List.find?_some hfound
      simp only [Bool.and_eq_true, decide_eq_true_eq] at hsub
      split at h
      · rename_i ack
        obtain ⟨rfl, -⟩ := Prod.mk.inj (Option.some.inj h)
        refine ⟨fun t ht => .kept (List.mem_of_mem_filter ht), fun id t ht => ?_,
          fun id t ht => .kept id ?_⟩
        · simp only [active] at ht
          by_cases hid : id = ack.id
          · rw [hid, SortedMap.get?_insert_self] at ht
            rw [hid, ← Option.some.inj ht]
            exact .created (List.mem_of_find?_eq_some hfound) hsub.2
          · rw [SortedMap.get?_insert_of_ne _ hid, ← active_of_registered hr] at ht
            exact .kept ht
        · rwa [pendingDelete_of_registered hr]
      · obtain ⟨rfl, -⟩ := Prod.mk.inj (Option.some.inj h)
        refine origins_of_resource? (fun t ht => ?_) rfl
        rcases mem_modifyIn ht with ht | ⟨u, hu, -, rfl⟩
        · exact .kept ht
        · exact .failed hu
  · simp at h

theorem origins_subscriptionUpdated {s : Session} (hn : s.subscriptionKeys.Nodup)
    (key : SubscriptionKey) (result : Except OperationResult SubscriptionAck) (m : Move) :
    Origins s m (s.subscriptionUpdated key result).1 := by
  unfold subscriptionUpdated
  split
  · exact origins_refl s m
  · rename_i sub hfound
    have hmem := List.mem_of_find?_eq_some hfound
    have hsub := List.find?_some hfound
    simp only [Bool.and_eq_true, decide_eq_true_eq] at hsub
    split
    · rename_i ack
      refine origins_modifySubscription key (f := Subscription.confirm ack.expiryTime)
        (fun t ht hk => ?_) (fun id t ht hk => ?_) rfl rfl
      · exact absurd (hk.trans hsub.1.symm) (key_ne_of_new hn ht hmem)
      · have hsame : t = sub :=
          eq_of_key hn (mem_subscriptions.2 (.inr ⟨id, ht⟩)) (List.mem_append_right _ hmem)
            (hk.trans hsub.1.symm)
        exact .confirmed ht (by rw [hsame]; exact hsub.2)
    · exact origins_modifySubscription key (f := Subscription.fail)
        (fun t ht _ => .failed ht) (fun id t ht _ => .failed ht) rfl rfl

/-! ### Moves -/

/-- **Where the subscriptions of a session come from** after a move. -/
theorem origins_moved {s s' : Session} (hn : s.subscriptionKeys.Nodup) (hrides : s.Rides)
    {m : Move} (h : (s.moved m).1 = some s') : Origins s m s' := by
  cases m <;> simp only [moved] at h
  case watch =>
    rw [← Option.some.inj h]
    exact origins_of_resource? (fun _ h => .kept h) rfl
  case change c =>
    rw [← Option.some.inj h]
    cases hc : s.change c with
    | error e => exact origins_refl s _
    | ok t =>
      obtain ⟨data, dirty, rfl⟩ := eq_of_change hc
      exact origins_of_resource? (fun _ h => .kept h) rfl
  case markDeleted =>
    rw [← Option.some.inj h]
    exact origins_of_resource? (fun _ h => .kept h) rfl
  case takeOver sub =>
    rw [← Option.some.inj h]
    refine origins_of_resource? (fun t ht => ?_) rfl
    rcases List.mem_append.1 ht with ht | ht
    · exact .kept ht
    · rw [List.mem_singleton.1 ht]
      exact .takenOver
  case letGo key =>
    split at h
    · rename_i sub t hdetach
      rw [← Option.some.inj h]
      exact origins_detach? hdetach _
    · rw [← Option.some.inj h]
      exact origins_refl s _
  case withdraw key =>
    rw [← Option.some.inj h]
    cases hr : s.removeSubscription key with
    | error e => exact origins_refl s _
    | ok t => exact origins_removeSubscription hr _
  case modify key changes =>
    split at h <;> rw [← Option.some.inj h]
    · exact origins_refl s _
    · exact origins_modifySubscription key (f := Subscription.changed changes)
        (fun t ht _ => .changed ht) (fun id t ht _ => .changed ht) rfl rfl
  case push config => exact origins_push h
  case release => simp at h
  case created answer =>
    split at h <;> rw [← Option.some.inj h]
    · rename_i hw
      exact origins_created hn hrides hw answer _
    · exact origins_refl s _
  case refused problem =>
    split at h <;> rw [← Option.some.inj h]
    · exact origins_refused s _ problem _
    · exact origins_refl s _
  case timedOut =>
    split at h
    · simp at h
    · rw [← Option.some.inj h]
      exact origins_refl s _
  case patched result =>
    rw [← Option.some.inj h]
    exact origins_patched s result _
  case subscriptionCreated key result =>
    split at h
    · rename_i t calls hcreated
      rw [← Option.some.inj h]
      exact origins_subscriptionCreated? hcreated _
    · rw [← Option.some.inj h]
      exact origins_refl s _
  case subscriptionUpdated key result =>
    rw [← Option.some.inj h]
    exact origins_subscriptionUpdated hn key result _

end Session

end MbsClient
