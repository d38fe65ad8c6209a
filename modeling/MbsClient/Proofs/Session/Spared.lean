import MbsClient.Proofs.Session.Origins

/-!
# Spared — subscriptions that a move leaves to the session

The move of a session spares a subscription unless it lets go of it or withdraws it, pushes a
deleted session, or takes the whole session away (`spared_moved`, `spared_push`). A confirmation
spares all subscriptions but the one that has the same id already
(`spared_subscriptionCreated?`).
-/

namespace MbsClient.Session

/-- The keys of the subscriptions that are wanted. -/
def wantedKeys (s : Session) : List SubscriptionKey := s.subscriptions.map Subscription.key

/-- The keys of the subscriptions that the next push deletes. -/
def leavingKeys (s : Session) : List SubscriptionKey := s.pendingDelete.map fun e => e.2.key

/-- A subscription is still wanted if it was, and still to be deleted if it was. -/
structure Spared (k : SubscriptionKey) (s s' : Session) : Prop where
  wanted : k ∈ s.wantedKeys → k ∈ s'.wantedKeys
  leaving : k ∈ s.leavingKeys → k ∈ s'.leavingKeys

variable {s s' : Session} {k : SubscriptionKey}

theorem mem_subscriptionKeys : k ∈ s.subscriptionKeys ↔ k ∈ s.wantedKeys ∨ k ∈ s.leavingKeys :=
  List.mem_append

theorem wantedKeys_eq (s : Session) :
    s.wantedKeys = s.newKeys ++ s.active.values.map Subscription.key :=
  List.map_append

theorem mem_wantedKeys : k ∈ s.wantedKeys ↔ k ∈ s.newKeys ∨
    ∃ id sub, s.active.get? id = some sub ∧ sub.key = k := by
  rw [wantedKeys_eq, List.mem_append, List.mem_map]
  refine or_congr Iff.rfl ⟨?_, ?_⟩
  · rintro ⟨sub, hsub, hkey⟩
    obtain ⟨id, hid⟩ := SortedMap.mem_values.1 hsub
    exact ⟨id, sub, hid, hkey⟩
  · rintro ⟨id, sub, hid, hkey⟩
    exact ⟨sub, SortedMap.mem_values.2 ⟨id, hid⟩, hkey⟩

theorem Spared.held (h : Spared k s s') (hk : k ∈ s.subscriptionKeys) : k ∈ s'.subscriptionKeys :=
  mem_subscriptionKeys.2 ((mem_subscriptionKeys.1 hk).imp h.wanted h.leaving)

theorem Spared.refl (k : SubscriptionKey) (s : Session) : Spared k s s := ⟨id, id⟩

theorem spared_of_eq (hnew : s'.newKeys = s.newKeys)
    (hactive : s'.active.values.map Subscription.key = s.active.values.map Subscription.key)
    (hleaving : s'.leavingKeys = s.leavingKeys) : Spared k s s' where
  wanted h := by rwa [wantedKeys_eq, hnew, hactive, ← wantedKeys_eq]
  leaving h := by rwa [hleaving]

-- A move that leaves the resource alone concerns new subscriptions only.
theorem spared_of_resource? (hnew : k ∈ s.newKeys → k ∈ s'.newKeys)
    (hresource : s'.resource? = s.resource?) : Spared k s s' where
  wanted h := by
    rw [mem_wantedKeys, active_eq, hresource, ← active_eq]
    exact (mem_wantedKeys.1 h).imp_left hnew
  leaving h := by rwa [leavingKeys, pendingDelete_eq, hresource, ← pendingDelete_eq]

-- A session without a resource has only new subscriptions.
theorem wantedKeys_of_resource?_none (h : s.resource? = none) : s.wantedKeys = s.newKeys := by
  rw [wantedKeys_eq, active_eq, h]
  exact List.append_nil _

theorem leavingKeys_of_resource?_none (h : s.resource? = none) : s.leavingKeys = [] := by
  rw [leavingKeys, pendingDelete_eq, h]
  rfl

/-! ## Changes in place -/

theorem spared_modifySubscription (key : SubscriptionKey) {f : Subscription → Subscription}
    (hf : ∀ sub, (f sub).key = sub.key) : Spared k s (s.modifySubscription key f) := by
  refine spared_of_eq (map_key_modifyIn hf key _) ?_ ?_
  · cases hr : s.remote with
    | absent => simp [active, modifySubscription, hr, Remote.mapResource]
    | creating body bundled => simp [active, modifySubscription, hr, Remote.mapResource]
    | registered r =>
      simp only [active, modifySubscription, hr, Remote.mapResource]
      refine map_key_map fun id sub => ?_
      split
      · exact hf sub
      · rfl
  · rw [leavingKeys, pendingDelete_modifySubscription, leavingKeys]

theorem spared_patched (result : OperationResult) : Spared k s (s.patched result).1 := by
  unfold patched
  split
  · rename_i r _ hr
    split
    · refine spared_of_eq rfl ?_ ?_
      · rw [active_of_registered rfl, active_of_registered hr]
      · rw [leavingKeys, leavingKeys, pendingDelete_of_registered rfl,
          pendingDelete_of_registered hr]
    · exact .refl k s
  · exact .refl k s

theorem spared_subscriptionUpdated (key : SubscriptionKey)
    (result : Except OperationResult SubscriptionAck) :
    Spared k s (s.subscriptionUpdated key result).1 := by
  have hmodified : ∀ (f : Subscription → Subscription) (dirty : Bool),
      (∀ sub, (f sub).key = sub.key) →
        Spared k s { s.modifySubscription key f with dirty := dirty } := by
    intro f dirty hf
    have h := spared_modifySubscription (k := k) (s := s) key hf
    exact ⟨h.wanted, h.leaving⟩
  unfold subscriptionUpdated
  split
  · exact .refl k s
  · split
    · exact hmodified _ _ fun _ => rfl
    · exact hmodified _ _ fun _ => rfl

/-! ## Subscriptions that leave -/

-- The keys of some subscriptions when those of one key have been dropped.
theorem mem_map_filter_key {subs : List Subscription} {key : SubscriptionKey} (hk : k ≠ key)
    (h : k ∈ subs.map Subscription.key) :
    k ∈ (subs.filter fun sub => sub.key != key).map Subscription.key := by
  obtain ⟨sub, hsub, rfl⟩ := List.mem_map.1 h
  exact List.mem_map_of_mem (List.mem_filter.2 ⟨hsub, bne_iff_ne.2 hk⟩)

theorem spared_detach? {key : SubscriptionKey} {sub : Subscription}
    (h : s.detach? key = some (sub, s')) (hk : k ≠ key) : Spared k s s' := by
  have hsub := (mem_of_detach? h).2
  obtain ⟨-, -, hleaving⟩ := kept_detach? h
  have hleave : s'.leavingKeys = s.leavingKeys := by
    rw [leavingKeys, pendingDelete_eq, hleaving, ← pendingDelete_eq, leavingKeys]
  unfold detach? at h
  split at h
  · obtain ⟨-, rfl⟩ := Prod.mk.inj (Option.some.inj h)
    exact spared_of_resource? (mem_map_filter_key hk) (resource?_unbundle key s.remote)
  · obtain ⟨⟨id, found⟩, hfound, he⟩ := Option.map_eq_some_iff.1 h
    obtain ⟨rfl, rfl⟩ := Prod.mk.inj he
    refine ⟨fun hmem => ?_, fun hmem => hleave ▸ hmem⟩
    rw [mem_wantedKeys] at hmem ⊢
    refine hmem.imp_right ?_
    rintro ⟨id', sub', hid', rfl⟩
    refine ⟨id', sub', ?_, rfl⟩
    -- what lies under the id has the key that is let go
    have hfound := SortedMap.mem_entries.1 (List.mem_of_find?_eq_some hfound)
    have hne : id' ≠ id := by
      rintro rfl
      rw [hfound] at hid'
      rw [← Option.some.inj hid'] at hk
      exact hk hsub
    cases hr : s.remote with
    | absent => simp [active, hr] at hid'
    | creating body bundled => simp [active, hr] at hid'
    | registered r =>
      rw [active_of_registered hr] at hid'
      simp only [active, Remote.mapResource]
      rwa [SortedMap.get?_erase_of_ne _ hne]

theorem spared_removeSubscription {key : SubscriptionKey} (h : s.removeSubscription key = .ok s')
    (hk : k ≠ key) : Spared k s s' := by
  unfold removeSubscription at h
  split at h
  · simp at h
  · rename_i sub t hdetach
    have ht := spared_detach? hdetach hk
    split at h
    · rename_i id hid
      rw [← Except.ok.inj h]
      -- another one may wait to be deleted now
      refine ⟨fun hmem => ?_, fun hmem => ?_⟩
      · have hactive : Session.active { t with
            remote := t.remote.mapResource fun r =>
              { r with pendingDelete := r.pendingDelete ++ [(id, sub.forgetRemote)] }
            dirty := true } = t.active := by
          cases hr : t.remote <;> simp [active, hr, Remote.mapResource]
        have hwanted := ht.wanted hmem
        rw [wantedKeys_eq] at hwanted ⊢
        rw [hactive]
        exact hwanted
      · have hleaving := ht.leaving hmem
        rw [leavingKeys] at hleaving ⊢
        cases hr : t.remote with
        | absent => simp [pendingDelete, hr] at hleaving
        | creating body bundled => simp [pendingDelete, hr] at hleaving
        | registered r =>
          rw [pendingDelete_of_registered hr] at hleaving
          simp only [pendingDelete, Remote.mapResource, List.map_append]
          exact List.mem_append_left _ hleaving
    · rwa [← Except.ok.inj h]

/-! ## Pushing -/

theorem wantedKeys_create (config : ClientConfig) (s : Session) :
    (s.create config).1.wantedKeys = s.newKeys := by
  rw [wantedKeys_of_resource?_none rfl]
  exact map_key_bundleFirst _ _ _

-- Nothing is left to be deleted, so all that the session still has is wanted.
theorem wantedKeys_reconcile {r : Resource} (hr : s.remote = .registered r)
    (config : ClientConfig) : (s.reconcile config r).1.wantedKeys = s.wantedKeys := by
  obtain ⟨p, hbody, heq⟩ := reconcile_eq config s r
  have hkeys := subscriptionKeys_pushSubscriptions config p.1 p.2.1
  have hnone : (p.1.pushSubscriptions config p.2.1).1.leavingKeys = [] := rfl
  rw [heq, wantedKeys_eq s, active_of_registered hr, ← hbody.active]
  have hsame : p.1.newKeys = s.newKeys := by rw [newKeys, hbody.pendingNew, newKeys]
  rw [← hsame, ← hkeys]
  show _ = Session.wantedKeys _ ++ Session.leavingKeys _
  rw [hnone, List.append_nil]

theorem deleted_reconcile (config : ClientConfig) (s : Session) (r : Resource) :
    (s.reconcile config r).1.deleted = s.deleted := by
  have hbody : ∀ t : Session, (t.pushBody r).1.deleted = t.deleted := by
    intro t
    unfold pushBody
    split
    · rfl
    · split <;> rfl
  simp only [reconcile, pushSubscriptions]
  split
  · exact hbody _
  · rfl

/-- **A push takes no subscription that is wanted** unless it takes the session down. -/
theorem wantedKeys_push (config : ClientConfig) (h : s.deleted = false) :
    ∃ s', (s.push config).1 = some s' ∧ s'.deleted = false ∧ s'.wantedKeys = s.wantedKeys := by
  have hpushes := s.pushes config
  generalize s.push config = q at hpushes
  cases hpushes with
  | removed hdeleted => rw [h] at hdeleted; cases hdeleted
  | created hkept hremote =>
    refine ⟨_, rfl, hkept, ?_⟩
    rw [wantedKeys_create, wantedKeys_of_resource?_none]
    rw [resource?, hremote]
    rfl
  | recreated hkept =>
    refine ⟨_, rfl, hkept, ?_⟩
    rw [wantedKeys_create, newKeys_requeue, wantedKeys]
  | reconciled hkept hremote =>
    exact ⟨_, rfl, (deleted_reconcile config s _).trans hkept, wantedKeys_reconcile hremote config⟩
  | idle => exact ⟨s, rfl, h, rfl⟩

/-! ## Answers -/

theorem spared_created {w : MbsSession × Option SubscriptionKey} (hw : s.waitingFor? = some w)
    (answer : SessionCreated) : Spared k s (s.created w.1 w.2 answer).1 := by
  have hnone := resource?_of_waitingFor? hw
  refine ⟨fun h => ?_, fun h => ?_⟩
  · rw [wantedKeys_of_resource?_none hnone] at h
    rw [mem_wantedKeys]
    rcases created_cases s w.1 w.2 answer with
      ⟨sub, id, r, hsub, -, hnew, hr, -, hactive, -⟩ | ⟨r, hnew, hr, -, hactive, -⟩
    · -- the rider is registered now
      by_cases hk : k = sub.key
      · refine .inr ⟨id, sub.confirmCreate id none, ?_, hk.symm⟩
        rw [active_of_registered hr, hactive]
        exact SortedMap.get?_insert_self _ _ _
      · refine .inl ?_
        rw [newKeys, hnew]
        exact mem_map_filter_key hk h
    · refine .inl ?_
      rcases hnew with ⟨-, hnew⟩ | ⟨sub, -, -, hnew⟩
      · rwa [newKeys, hnew]
      · rw [newKeys, hnew]
        rwa [map_key_modifyIn (f := Subscription.fail) (fun _ => rfl)]
  · rw [leavingKeys_of_resource?_none hnone] at h
    cases h

theorem spared_refused {w : MbsSession × Option SubscriptionKey} (hw : s.waitingFor? = some w)
    (problem : ProblemDetails) : Spared k s (s.refused w.2 problem).1 := by
  refine spared_of_resource? (fun h => ?_) ?_
  · simp only [newKeys, refused, failBundled]
    split
    · rwa [map_key_modifyIn (f := Subscription.fail) (fun _ => rfl)]
    · exact h
  · rw [resource?_of_waitingFor? hw]
    rfl

/-- The keys of the subscriptions that are registered under an id. -/
def registeredKeys (s : Session) (id : String) : List SubscriptionKey :=
  (s.active.get? id).toList.map Subscription.key

-- The confirmed subscription takes the place of what lies under the id.
theorem spared_confirmed {key : SubscriptionKey} {ack : SubscriptionAck} {calls : List Call}
    (h : s.subscriptionCreated? key (.ok ack) = some (s', calls))
    (hk : k ∉ s.registeredKeys ack.id) : Spared k s s' := by
  unfold subscriptionCreated? at h
  split at h
  · rename_i r _ hr
    split at h
    · simp at h
    · rename_i sub hfound
      obtain ⟨rfl, -⟩ := Prod.mk.inj (Option.some.inj h)
      have hsub := List.find?_some hfound
      simp only [Bool.and_eq_true, decide_eq_true_eq] at hsub
      refine ⟨fun hmem => ?_, fun hmem => ?_⟩
      · rw [mem_wantedKeys] at hmem ⊢
        by_cases hkey : k = key
        · refine .inr ⟨ack.id, sub.confirmCreate ack.id ack.expiryTime, ?_, hsub.1.trans hkey.symm⟩
          exact SortedMap.get?_insert_self _ _ _
        · refine hmem.imp (mem_map_filter_key hkey) ?_
          rintro ⟨id, other, hid, rfl⟩
          refine ⟨id, other, ?_, rfl⟩
          have hne : id ≠ ack.id := by
            rintro rfl
            exact hk (by simp [registeredKeys, hid])
          rw [active_of_registered hr] at hid
          exact (SortedMap.get?_insert_of_ne _ hne _).trans hid
      · rwa [leavingKeys, pendingDelete_of_registered rfl, ← pendingDelete_of_registered hr,
          ← leavingKeys]
  · simp at h

-- What lay under the id is gone.
theorem not_mem_of_confirmed (hn : s.subscriptionKeys.Nodup) {key : SubscriptionKey}
    {ack : SubscriptionAck} {calls : List Call}
    (h : s.subscriptionCreated? key (.ok ack) = some (s', calls))
    (hk : k ∈ s.registeredKeys ack.id) : k ∉ s'.subscriptionKeys := by
  obtain ⟨sub, hget, rfl⟩ := List.mem_map.1 hk
  have hget := Option.mem_toList.1 hget
  unfold subscriptionCreated? at h
  split at h
  · rename_i r _ hr
    split at h
    · simp at h
    · rename_i found hfound
      obtain ⟨rfl, -⟩ := Prod.mk.inj (Option.some.inj h)
      have hfoundKey := List.find?_some hfound
      simp only [Bool.and_eq_true, decide_eq_true_eq] at hfoundKey
      rw [active_of_registered hr] at hget
      have hinsert := r.active.count_insert (fun t => [t.key]) sub.key ack.id
        (found.confirmCreate ack.id ack.expiryTime)
      rw [hget, ← List.map_eq_flatMap, ← List.map_eq_flatMap] at hinsert
      have hfilter := count_filter_key (List.mem_of_find?_eq_some hfound) sub.key
      have honce := List.nodup_iff_count_le_one.1 hn sub.key
      rw [subscriptionKeys_of_registered hr] at honce
      have hconfirmed : (found.confirmCreate ack.id ack.expiryTime).key = found.key := rfl
      rw [← List.count_eq_zero, subscriptionKeys_of_registered rfl]
      simp only [newKeys, Resource.subscriptionKeys, List.count_append, Option.map_some,
        Option.getD_some, List.count_singleton_self, hconfirmed, hfoundKey.1]
        at hinsert hfilter honce ⊢
      omega
  · simp at h

theorem spared_subscriptionCreated?_error {key : SubscriptionKey} {failure : OperationResult}
    {calls : List Call} (h : s.subscriptionCreated? key (.error failure) = some (s', calls)) :
    Spared k s s' := by
  unfold subscriptionCreated? at h
  split at h
  · split at h
    · simp at h
    · obtain ⟨rfl, -⟩ := Prod.mk.inj (Option.some.inj h)
      refine spared_of_resource? (fun hnew => ?_) rfl
      show k ∈ (modifyIn key Subscription.fail s.pendingNew).map Subscription.key
      rwa [map_key_modifyIn (f := Subscription.fail) (fun _ => rfl)]
  · simp at h

/-! ## Moves -/

/-- A move that is no push and no confirmation, and takes neither the subscription nor the whole
session away. -/
def Move.Spares (k : SubscriptionKey) : Move → Prop
  | .letGo key => k ≠ key
  | .withdraw key => k ≠ key
  | .push _ => False
  | .release => False
  | .timedOut => False
  | .subscriptionCreated _ (.ok _) => False
  | _ => True

/-- **Such a move leaves the subscription to the session.** -/
theorem spared_moved (s : Session) {m : Move} (hm : m.Spares k) :
    ∃ s', (s.moved m).1 = some s' ∧ Spared k s s' := by
  cases m <;> simp only [moved]
  case push config => exact hm.elim
  case release => exact hm.elim
  case timedOut => exact hm.elim
  case watch => exact ⟨_, rfl, spared_of_resource? id rfl⟩
  case change c =>
    refine ⟨_, rfl, ?_⟩
    cases hc : s.change c with
    | error e => exact .refl k s
    | ok t =>
      obtain ⟨data, dirty, rfl⟩ := eq_of_change hc
      exact spared_of_resource? id rfl
  case markDeleted => exact ⟨_, rfl, spared_of_resource? id rfl⟩
  case takeOver sub =>
    refine ⟨_, rfl, spared_of_resource? (fun h => ?_) rfl⟩
    simp only [newKeys, attach, List.map_append]
    exact List.mem_append_left _ h
  case letGo key =>
    split
    · rename_i sub t hdetach
      exact ⟨t, rfl, spared_detach? hdetach hm⟩
    · exact ⟨s, rfl, .refl k s⟩
  case withdraw key =>
    refine ⟨_, rfl, ?_⟩
    cases hr : s.removeSubscription key with
    | error e => exact .refl k s
    | ok t => exact spared_removeSubscription hr hm
  case modify key changes =>
    split
    · exact ⟨s, rfl, .refl k s⟩
    · have h := spared_modifySubscription (k := k) (s := s) key
        (f := Subscription.changed changes) fun sub => foldl_change_key changes sub
      exact ⟨_, rfl, h.wanted, h.leaving⟩
  case created answer =>
    split
    · rename_i body bundled hw
      exact ⟨_, rfl, spared_created hw answer⟩
    · exact ⟨s, rfl, .refl k s⟩
  case refused problem =>
    split
    · rename_i body bundled hw
      exact ⟨_, rfl, spared_refused hw problem⟩
    · exact ⟨s, rfl, .refl k s⟩
  case patched result => exact ⟨_, rfl, spared_patched result⟩
  case subscriptionCreated key result =>
    cases result with
    | ok ack => exact hm.elim
    | error failure =>
      split
      · rename_i t calls hcreated
        exact ⟨t, rfl, spared_subscriptionCreated?_error hcreated⟩
      · exact ⟨s, rfl, .refl k s⟩
  case subscriptionUpdated key result => exact ⟨_, rfl, spared_subscriptionUpdated key result⟩

end MbsClient.Session
