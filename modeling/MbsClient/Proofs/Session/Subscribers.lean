import Mathlib.Data.Nat.Basic
import MbsClient.Proofs.Data.SortedMap
import MbsClient.Proofs.Session.Move

/-!
# Subscribers — which subscriptions a session has, whatever happens to it

Only a take-over brings a subscription in (`count_subscriptionKeys_moved`), and none is had twice
because of any other move. What is let go is gone (`count_subscriptionKeys_detach?`).
-/

namespace MbsClient

/-- The keys of the subscriptions that go with a resource. -/
def Resource.subscriptionKeys (r : Resource) : List SubscriptionKey :=
  r.active.values.map Subscription.key ++ r.pendingDelete.map fun entry => entry.2.key

namespace Session

/-- The keys of the new subscriptions. -/
def newKeys (s : Session) : List SubscriptionKey := s.pendingNew.map Subscription.key

theorem subscriptionKeys_eq (s : Session) :
    s.subscriptionKeys =
      s.newKeys ++ (s.resource?.map Resource.subscriptionKeys).getD [] := by
  cases hr : s.remote <;>
    simp [subscriptionKeys, subscriptions, newKeys, Resource.subscriptionKeys, active,
      pendingDelete, resource?, hr, Remote.resource?, SortedMap.values, SortedMap.empty]

theorem subscriptionKeys_of_registered {s : Session} {r : Resource}
    (h : s.remote = .registered r) : s.subscriptionKeys = s.newKeys ++ r.subscriptionKeys := by
  rw [subscriptionKeys_eq, resource?, h]
  rfl

theorem subscriptionKeys_of_resource?_none {s : Session} (h : s.resource? = none) :
    s.subscriptionKeys = s.newKeys := by
  rw [subscriptionKeys_eq, h]
  exact List.append_nil _

theorem mem_subscriptionKeys_of_new {s : Session} {key : SubscriptionKey} (h : key ∈ s.newKeys) :
    key ∈ s.subscriptionKeys := by
  rw [subscriptionKeys_eq]
  exact List.mem_append_left _ h

-- Nothing else decides which subscriptions a session has.
theorem subscriptionKeys_congr {s s' : Session} (hnew : s'.newKeys = s.newKeys)
    (hresource : s'.resource?.map Resource.subscriptionKeys =
      s.resource?.map Resource.subscriptionKeys) :
    s'.subscriptionKeys = s.subscriptionKeys := by
  rw [subscriptionKeys_eq, subscriptionKeys_eq, hnew, hresource]

/-! ## Changes in place -/

theorem map_key_modifyIn {f : Subscription → Subscription} (hf : ∀ sub, (f sub).key = sub.key)
    (key : SubscriptionKey) (subs : List Subscription) :
    (modifyIn key f subs).map Subscription.key = subs.map Subscription.key := by
  rw [modifyIn, List.map_map]
  apply List.map_congr_left
  intro sub _
  simp only [Function.comp_apply]
  split
  · exact hf sub
  · rfl

theorem map_key_map {active : SortedMap String Subscription}
    {f : String → Subscription → Subscription} (hf : ∀ id sub, (f id sub).key = sub.key) :
    (active.map f).values.map Subscription.key = active.values.map Subscription.key := by
  simp only [SortedMap.values, SortedMap.map, List.map_map]
  exact List.map_congr_left fun e _ => hf e.1 e.2

theorem subscriptionKeys_modifySubscription (s : Session) (key : SubscriptionKey)
    {f : Subscription → Subscription} (hf : ∀ sub, (f sub).key = sub.key) :
    (s.modifySubscription key f).subscriptionKeys = s.subscriptionKeys := by
  refine subscriptionKeys_congr (map_key_modifyIn hf key _) ?_
  cases hr : s.remote with
  | absent => simp [resource?, modifySubscription, hr, Remote.mapResource]
  | creating body bundled => simp [resource?, modifySubscription, hr, Remote.mapResource]
  | registered r =>
    have hactive : ∀ (id : String) (sub : Subscription),
        (if sub.key = key then f sub else sub).key = sub.key := by
      intro id sub
      split
      · exact hf sub
      · rfl
    simp [resource?, modifySubscription, hr, Remote.mapResource, Remote.resource?,
      Resource.subscriptionKeys, map_key_map hactive]

theorem foldl_change_key (changes : List SubscriptionChange) (sub : Subscription) :
    (changes.foldl Subscription.change sub).key = sub.key :=
  foldl_change (f := Subscription.key) (fun _ c => by cases c <;> rfl) changes sub

theorem subscriptionKeys_change {s s' : Session} {c : SessionChange} (h : s.change c = .ok s') :
    s'.subscriptionKeys = s.subscriptionKeys := by
  obtain ⟨data, dirty, rfl⟩ := eq_of_change h
  rfl

theorem count_subscriptionKeys_attach (s : Session) (sub : Subscription) (k : SubscriptionKey) :
    (s.attach sub).subscriptionKeys.count k = s.subscriptionKeys.count k + [sub.key].count k := by
  have hnew : (s.attach sub).newKeys = s.newKeys ++ [sub.key] := List.map_append
  have hresource : (s.attach sub).resource? = s.resource? := rfl
  rw [subscriptionKeys_eq, subscriptionKeys_eq, hnew, hresource]
  simp only [List.count_append]
  omega

theorem mem_subscriptionKeys_attach {s : Session} {sub : Subscription} {k : SubscriptionKey} :
    k ∈ (s.attach sub).subscriptionKeys ↔ k ∈ s.subscriptionKeys ∨ k = sub.key := by
  rw [← List.count_pos_iff, count_subscriptionKeys_attach, Nat.add_pos_iff_pos_or_pos,
    List.count_pos_iff, List.count_pos_iff, List.mem_singleton]

/-! ## Subscriptions that leave -/

-- Dropping a key from some subscriptions takes at least one occurrence off.
theorem count_filter_key {subs : List Subscription} {sub : Subscription} (hsub : sub ∈ subs)
    (k : SubscriptionKey) :
    ((subs.filter fun other => other.key != sub.key).map Subscription.key).count k +
        [sub.key].count k ≤ (subs.map Subscription.key).count k := by
  by_cases hk : sub.key = k
  · have hnone : k ∉ (subs.filter fun other => other.key != sub.key).map Subscription.key := by
      intro hmem
      obtain ⟨t, ht, htk⟩ := List.mem_map.1 hmem
      have hne := (List.mem_filter.1 ht).2
      rw [htk, hk, bne_self_eq_false] at hne
      simp at hne
    have hpos : 0 < (subs.map Subscription.key).count k := by
      rw [← hk]
      exact List.count_pos_iff.2 (List.mem_map_of_mem hsub)
    rw [List.count_eq_zero.2 hnone, hk, List.count_singleton_self]
    omega
  · have hsub : (subs.filter fun other => other.key != sub.key).Sublist subs :=
      List.filter_sublist
    have hle := (hsub.map Subscription.key).count_le k
    rw [List.count_singleton, if_neg (by simpa using hk)]
    exact hle

-- What comes under an id and what was there before, by their keys.
theorem count_insert_key (active : SortedMap String Subscription) (id : String)
    (sub : Subscription) (k : SubscriptionKey) :
    ((active.insert id sub).values.map Subscription.key).count k ≤
      (active.values.map Subscription.key).count k + [sub.key].count k := by
  have hinsert := active.count_insert (fun t => [t.key]) k id sub
  rw [← List.map_eq_flatMap, ← List.map_eq_flatMap] at hinsert
  omega

-- What is let go is gone.
theorem count_subscriptionKeys_detach? {s s' : Session} {key : SubscriptionKey}
    {sub : Subscription} (h : s.detach? key = some (sub, s')) (k : SubscriptionKey) :
    s'.subscriptionKeys.count k + [sub.key].count k ≤ s.subscriptionKeys.count k := by
  unfold detach? at h
  split at h
  · rename_i found hfound
    obtain ⟨rfl, rfl⟩ := Prod.mk.inj (Option.some.inj h)
    have hkey : found.key = key := by simpa using List.find?_some hfound
    have hfilter := count_filter_key (List.mem_of_find?_eq_some hfound) k
    rw [hkey] at hfilter ⊢
    -- only a creation has to do with new subscriptions
    have hresource : ({ s with
        pendingNew := s.pendingNew.filter fun sub => sub.key != key
        remote := s.remote.unbundle key }).resource? = s.resource? := by
      cases hr : s.remote <;> simp [resource?, hr, Remote.unbundle, Remote.resource?]
    rw [subscriptionKeys_eq, subscriptionKeys_eq, hresource, List.count_append, List.count_append]
    simp only [newKeys]
    omega
  · obtain ⟨⟨id, found⟩, hfound, he⟩ := Option.map_eq_some_iff.1 h
    obtain ⟨rfl, rfl⟩ := Prod.mk.inj he
    have hget : s.active.get? id = some found :=
      SortedMap.mem_entries.1 (List.mem_of_find?_eq_some hfound)
    cases hr : s.remote with
    | absent => simp [active, hr] at hget
    | creating body bundled => simp [active, hr] at hget
    | registered r =>
      simp only [active, hr] at hget
      have herase := r.active.count_erase (fun t => [t.key]) k id
      rw [← List.map_eq_flatMap, ← List.map_eq_flatMap, hget] at herase
      rw [subscriptionKeys_of_registered hr,
        subscriptionKeys_of_registered (r := { r with active := r.active.erase id }) rfl]
      simp only [newKeys, Resource.subscriptionKeys, List.count_append, Option.map_some,
        Option.getD_some] at herase ⊢
      omega

theorem count_subscriptionKeys_removeSubscription {s s' : Session} {key : SubscriptionKey}
    (h : s.removeSubscription key = .ok s') (k : SubscriptionKey) :
    s'.subscriptionKeys.count k ≤ s.subscriptionKeys.count k := by
  unfold removeSubscription at h
  split at h
  · simp at h
  · rename_i sub t hdetach
    have ht := count_subscriptionKeys_detach? hdetach k
    split at h
    · rw [← Except.ok.inj h]
      -- the subscription comes back among those that are to leave
      refine Nat.le_trans ?_ ht
      cases hr : t.remote with
      | absent => simp [subscriptionKeys_eq, newKeys, resource?, hr, Remote.mapResource]
      | creating body bundled =>
        simp [subscriptionKeys_eq, newKeys, resource?, hr, Remote.mapResource]
      | registered r =>
        simp only [subscriptionKeys_eq, newKeys, resource?, hr, Remote.mapResource,
          Remote.resource?, Option.map_some, Option.getD_some, Resource.subscriptionKeys,
          List.map_append, List.map_cons, List.map_nil, List.count_append]
        exact Nat.le_of_eq (by simp only [Subscription.forgetRemote]; omega)
    · rw [← Except.ok.inj h]
      omega

/-! ## Pushing -/

theorem map_key_bundleFirst (sessionId : MbsSessionId) (servers : List NotificationServer)
    (subs : List Subscription) :
    (bundleFirst sessionId servers subs).2.map Subscription.key = subs.map Subscription.key := by
  induction subs with
  | nil => rfl
  | cons sub rest ih =>
    unfold bundleFirst
    split
    · rfl
    · exact congrArg (sub.key :: ·) ih

theorem subscriptionKeys_create (config : ClientConfig) (s : Session) :
    (s.create config).1.subscriptionKeys = s.newKeys := by
  rw [subscriptionKeys_of_resource?_none rfl]
  exact map_key_bundleFirst _ _ _

theorem newKeys_requeue (s : Session) :
    s.requeue.newKeys = s.subscriptions.map Subscription.key := by
  simp only [newKeys, requeue, List.map_map]
  rfl

theorem pushNew_key (config : ClientConfig) (s : Session) (r : Resource) (sub : Subscription) :
    (s.pushNew config r sub).1.key = sub.key := by
  unfold pushNew
  split <;> rfl

theorem pushActive_key (id : String) (sub : Subscription) :
    (pushActive id sub).1.key = sub.key := by
  unfold pushActive
  split
  · split <;> rfl
  · rfl

-- All that a reconciliation takes off are the subscriptions that were to leave.
theorem subscriptionKeys_pushSubscriptions (config : ClientConfig) (s : Session) (r : Resource) :
    (s.pushSubscriptions config r).1.subscriptionKeys =
      s.newKeys ++ r.active.values.map Subscription.key := by
  rw [subscriptionKeys_of_registered rfl]
  have hactive : ((r.active.map pushActive).map fun _ pushed => pushed.1).values.map
      Subscription.key = r.active.values.map Subscription.key := by
    simp only [SortedMap.values, SortedMap.map, List.map_map]
    exact List.map_congr_left fun e _ => pushActive_key e.1 e.2
  simp only [newKeys, pushSubscriptions, Resource.subscriptionKeys, List.map_map, hactive,
    List.map_nil, List.append_nil]
  congr 1
  exact List.map_congr_left fun sub _ => pushNew_key config s r sub

theorem count_subscriptionKeys_reconcile {s : Session} {r : Resource}
    (hr : s.remote = .registered r) (config : ClientConfig) (k : SubscriptionKey) :
    (s.reconcile config r).1.subscriptionKeys.count k ≤ s.subscriptionKeys.count k := by
  obtain ⟨p, hbody, heq⟩ := reconcile_eq config s r
  rw [heq]
  simp only [subscriptionKeys_pushSubscriptions, newKeys, hbody.pendingNew, hbody.active,
    subscriptionKeys_of_registered hr, Resource.subscriptionKeys, List.count_append]
  omega

theorem count_subscriptionKeys_push {s s' : Session} {config : ClientConfig}
    (h : (s.push config).1 = some s') (k : SubscriptionKey) :
    s'.subscriptionKeys.count k ≤ s.subscriptionKeys.count k := by
  have hpushes := s.pushes config
  generalize s.push config = q at hpushes h
  cases hpushes with
  | removed => cases h
  | created _ hremote =>
    have hnone : s.resource? = none := by simp [resource?, hremote, Remote.resource?]
    rw [← Option.some.inj h, subscriptionKeys_create, subscriptionKeys_of_resource?_none hnone]
  | recreated =>
    rw [← Option.some.inj h, subscriptionKeys_create, newKeys_requeue, subscriptionKeys,
      List.count_append]
    omega
  | reconciled _ hremote =>
    rw [← Option.some.inj h]
    exact count_subscriptionKeys_reconcile hremote config k
  | idle => rw [← Option.some.inj h]

/-! ## Answers -/

theorem count_subscriptionKeys_created {s : Session} {w : MbsSession × Option SubscriptionKey}
    (hw : s.waitingFor? = some w) (answer : SessionCreated) (k : SubscriptionKey) :
    (s.created w.1 w.2 answer).1.subscriptionKeys.count k ≤ s.subscriptionKeys.count k := by
  rw [subscriptionKeys_of_resource?_none (resource?_of_waitingFor? hw)]
  rcases created_cases s w.1 w.2 answer with
    ⟨sub, id, r, hsub, -, hnew, hr, -, hactive, hleaving⟩ | ⟨r, hnew, hr, -, hactive, hleaving⟩
  · obtain ⟨key, -, hfound⟩ := Option.bind_eq_some_iff.1 hsub
    have hfilter := count_filter_key (List.mem_of_find?_eq_some hfound) k
    rw [subscriptionKeys_of_registered hr, newKeys, hnew, Resource.subscriptionKeys, hactive,
      hleaving, List.count_append]
    exact hfilter
  · have hkeys : (s.created w.1 w.2 answer).1.newKeys = s.newKeys := by
      rcases hnew with ⟨-, hnew⟩ | ⟨sub, -, -, hnew⟩
      · rw [newKeys, hnew, newKeys]
      · rw [newKeys, hnew, newKeys]
        exact map_key_modifyIn (f := Subscription.fail) (fun _ => rfl) _ _
    rw [subscriptionKeys_of_registered hr, hkeys, Resource.subscriptionKeys, hactive, hleaving,
      List.count_append]
    exact Nat.le_refl _

theorem count_subscriptionKeys_subscriptionCreated? {s s' : Session} {key : SubscriptionKey}
    {result : Except OperationResult SubscriptionAck} {calls : List Call}
    (h : s.subscriptionCreated? key result = some (s', calls)) (k : SubscriptionKey) :
    s'.subscriptionKeys.count k ≤ s.subscriptionKeys.count k := by
  unfold subscriptionCreated? at h
  split at h
  · rename_i r _ hr
    split at h
    · simp at h
    · rename_i sub hfound
      have hkey : sub.key = key := by
        have hp := List.find?_some hfound
        simp only [Bool.and_eq_true, decide_eq_true_eq] at hp
        exact hp.1
      split at h
      · rename_i ack
        obtain ⟨rfl, -⟩ := Prod.mk.inj (Option.some.inj h)
        have hfilter := count_filter_key (List.mem_of_find?_eq_some hfound) k
        have hinsert := count_insert_key r.active ack.id
          (sub.confirmCreate ack.id ack.expiryTime) k
        rw [subscriptionKeys_of_registered rfl, subscriptionKeys_of_registered hr]
        simp only [newKeys, Resource.subscriptionKeys, List.count_append, hkey] at hfilter hinsert ⊢
        have hsame : (sub.confirmCreate ack.id ack.expiryTime).key = key := hkey
        rw [hsame] at hinsert
        omega
      · obtain ⟨rfl, -⟩ := Prod.mk.inj (Option.some.inj h)
        apply Nat.le_of_eq
        congr 1
        exact subscriptionKeys_congr
          (map_key_modifyIn (f := Subscription.fail) (fun _ => rfl) key _) rfl
  · simp at h

theorem subscriptionKeys_refused {s : Session} {w : MbsSession × Option SubscriptionKey}
    (hw : s.waitingFor? = some w) (problem : ProblemDetails) :
    (s.refused w.2 problem).1.subscriptionKeys = s.subscriptionKeys := by
  refine subscriptionKeys_congr ?_ ?_
  · simp only [newKeys, refused, failBundled]
    split
    · exact map_key_modifyIn (f := Subscription.fail) (fun _ => rfl) _ _
    · rfl
  · rw [resource?_of_waitingFor? hw]
    rfl

theorem subscriptionKeys_patched (s : Session) (result : OperationResult) :
    (s.patched result).1.subscriptionKeys = s.subscriptionKeys := by
  unfold patched
  split
  · rename_i r _ hr
    split
    · rw [subscriptionKeys_of_registered rfl, subscriptionKeys_of_registered hr]
      rfl
    · rfl
  · rfl

theorem subscriptionKeys_subscriptionUpdated (s : Session) (key : SubscriptionKey)
    (result : Except OperationResult SubscriptionAck) :
    (s.subscriptionUpdated key result).1.subscriptionKeys = s.subscriptionKeys := by
  unfold subscriptionUpdated
  split
  · rfl
  · split
    · exact subscriptionKeys_modifySubscription s key fun _ => rfl
    · exact subscriptionKeys_modifySubscription s key fun _ => rfl

/-! ## Moves -/

/-- The subscriptions that a move brings in. -/
def Move.incoming : Move → List SubscriptionKey
  | .takeOver sub => [sub.key]
  | _ => []

/-- **Only a take-over brings a subscription in.** -/
theorem count_subscriptionKeys_moved {s s' : Session} {m : Move} (h : (s.moved m).1 = some s')
    (k : SubscriptionKey) :
    s'.subscriptionKeys.count k ≤ s.subscriptionKeys.count k + m.incoming.count k := by
  cases m <;> simp only [moved] at h
  case watch => rw [← Option.some.inj h]; exact Nat.le_add_right _ _
  case change c =>
    rw [← Option.some.inj h]
    refine Nat.le_trans (Nat.le_of_eq ?_) (Nat.le_add_right _ _)
    cases hc : s.change c with
    | error e => rfl
    | ok t =>
      congr 1
      exact subscriptionKeys_change hc
  case markDeleted => rw [← Option.some.inj h]; exact Nat.le_add_right _ _
  case takeOver sub =>
    rw [← Option.some.inj h]
    exact Nat.le_of_eq (count_subscriptionKeys_attach s sub.forgetRemote k)
  case letGo key =>
    refine Nat.le_trans ?_ (Nat.le_add_right _ _)
    split at h
    · rename_i sub t hdetach
      rw [← Option.some.inj h]
      have hgone := count_subscriptionKeys_detach? hdetach k
      omega
    · rw [← Option.some.inj h]
  case withdraw key =>
    refine Nat.le_trans ?_ (Nat.le_add_right _ _)
    rw [← Option.some.inj h]
    cases hr : s.removeSubscription key with
    | error e => exact Nat.le_refl _
    | ok t => exact count_subscriptionKeys_removeSubscription hr k
  case modify key changes =>
    refine Nat.le_trans (Nat.le_of_eq ?_) (Nat.le_add_right _ _)
    split at h <;> rw [← Option.some.inj h]
    congr 1
    exact subscriptionKeys_modifySubscription s key fun sub => foldl_change_key changes sub
  case push config => exact Nat.le_trans (count_subscriptionKeys_push h k) (Nat.le_add_right _ _)
  case release => simp at h
  case created answer =>
    refine Nat.le_trans ?_ (Nat.le_add_right _ _)
    split at h
    · rename_i hw
      rw [← Option.some.inj h]
      exact count_subscriptionKeys_created hw answer k
    · rw [← Option.some.inj h]
  case refused problem =>
    refine Nat.le_trans (Nat.le_of_eq ?_) (Nat.le_add_right _ _)
    split at h <;> rw [← Option.some.inj h]
    rename_i hw
    congr 1
    exact subscriptionKeys_refused hw problem
  case timedOut =>
    split at h
    · simp at h
    · rw [← Option.some.inj h]
      exact Nat.le_add_right _ _
  case patched result =>
    rw [← Option.some.inj h, subscriptionKeys_patched]
    exact Nat.le_add_right _ _
  case subscriptionCreated key result =>
    refine Nat.le_trans ?_ (Nat.le_add_right _ _)
    split at h
    · rename_i t calls hcreated
      rw [← Option.some.inj h]
      exact count_subscriptionKeys_subscriptionCreated? hcreated k
    · rw [← Option.some.inj h]
  case subscriptionUpdated key result =>
    rw [← Option.some.inj h, subscriptionKeys_subscriptionUpdated]
    exact Nat.le_add_right _ _

end Session

end MbsClient
