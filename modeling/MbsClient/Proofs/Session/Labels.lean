import MbsClient.Proofs.Data.SortedMap
import MbsClient.Proofs.Session.Move

/-!
# Labels — subscriptions carry the ids they are registered under

Whatever happens to a session, its new subscriptions have no id, and its active ones have the id
that they are kept under.
-/

namespace MbsClient

namespace Session

structure Labelled (s : Session) : Prop where
  new : ∀ sub ∈ s.pendingNew, sub.id = none
  active : ∀ id sub, s.active.get? id = some sub → sub.id = some id

theorem labelled_new (key : SessionKey) : Labelled { key } where
  new := by simp
  active id sub h := by simp [active] at h

theorem labelled_of_eq {s s' : Session} (hl : s.Labelled) (hnew : s'.pendingNew = s.pendingNew)
    (hactive : s'.active = s.active) : s'.Labelled :=
  ⟨by rw [hnew]; exact hl.new, by rw [hactive]; exact hl.active⟩

theorem active_of_registered {s : Session} {r : Resource} (h : s.remote = .registered r) :
    s.active = r.active := by
  simp [active, h]

/-! ## Changes of subscriptions in place -/

theorem new_modifyIn {subs : List Subscription} (h : ∀ sub ∈ subs, sub.id = none)
    (key : SubscriptionKey) {f : Subscription → Subscription} (hf : ∀ sub, (f sub).id = sub.id) :
    ∀ sub ∈ modifyIn key f subs, sub.id = none := by
  intro sub hsub
  obtain ⟨t, ht, rfl⟩ := List.mem_map.1 hsub
  split
  · rw [hf, h t ht]
  · exact h t ht

theorem get?_map_eq_some {κ ν μ : Type} [KeyOrder κ] {m : SortedMap κ ν} {f : κ → ν → μ} {k : κ}
    {v : μ} (h : (m.map f).get? k = some v) : ∃ u, m.get? k = some u ∧ f k u = v := by
  rw [SortedMap.get?, SortedMap.map, Entries.get?_map] at h
  exact Option.map_eq_some_iff.1 h

theorem labelled_modifySubscription {s : Session} (hl : s.Labelled) (key : SubscriptionKey)
    {f : Subscription → Subscription} (hf : ∀ sub, (f sub).id = sub.id) :
    (s.modifySubscription key f).Labelled where
  new := new_modifyIn hl.new key hf
  active id sub h := by
    cases hr : s.remote with
    | absent => simp [active, modifySubscription, hr, Remote.mapResource] at h
    | creating body bundled => simp [active, modifySubscription, hr, Remote.mapResource] at h
    | registered r =>
      have hactive := hl.active id
      rw [active_of_registered hr] at hactive
      simp only [active, modifySubscription, hr, Remote.mapResource] at h
      obtain ⟨t, ht, rfl⟩ := get?_map_eq_some h
      split
      · rw [hf, hactive t ht]
      · exact hactive t ht

theorem labelled_change {s s' : Session} (hl : s.Labelled) {c : SessionChange}
    (h : s.change c = .ok s') : s'.Labelled := by
  obtain ⟨data, dirty, rfl⟩ := eq_of_change h
  exact labelled_of_eq hl rfl rfl

theorem foldl_change_id (changes : List SubscriptionChange) (sub : Subscription) :
    (changes.foldl Subscription.change sub).id = sub.id :=
  foldl_change (f := Subscription.id) (fun _ c => by cases c <;> rfl) changes sub

/-! ## Subscriptions that go -/

theorem labelled_detach? {s s' : Session} (hl : s.Labelled) {key : SubscriptionKey}
    {sub : Subscription} (h : s.detach? key = some (sub, s')) : s'.Labelled := by
  unfold detach? at h
  split at h
  · obtain ⟨-, rfl⟩ := Prod.mk.inj (Option.some.inj h)
    refine ⟨fun t ht => hl.new t (List.mem_of_mem_filter ht), fun id t ht => ?_⟩
    have hactive := hl.active id t
    cases hr : s.remote <;> simp [active, hr, Remote.unbundle] at ht hactive
    exact hactive ht
  · obtain ⟨e, -, he⟩ := Option.map_eq_some_iff.1 h
    obtain ⟨-, rfl⟩ := Prod.mk.inj he
    refine ⟨hl.new, fun id t ht => ?_⟩
    have hactive := hl.active id t
    cases hr : s.remote <;> simp only [active, hr, Remote.mapResource] at ht hactive
    · simp at ht
    · simp at ht
    · by_cases hid : id = e.1
      · rw [hid] at ht
        simp at ht
      · rw [SortedMap.get?_erase_of_ne _ hid] at ht
        exact hactive ht

theorem labelled_removeSubscription {s s' : Session} (hl : s.Labelled) {key : SubscriptionKey}
    (h : s.removeSubscription key = .ok s') : s'.Labelled := by
  unfold removeSubscription at h
  split at h
  · simp at h
  · rename_i sub t hdetach
    have ht := labelled_detach? hl hdetach
    split at h
    · rw [← Except.ok.inj h]
      refine labelled_of_eq ht rfl ?_
      cases hr : t.remote <;> simp [active, hr, Remote.mapResource]
    · rw [← Except.ok.inj h]
      exact ht

/-! ## Pushing -/

theorem new_bundleFirst (sessionId : MbsSessionId) (servers : List NotificationServer)
    {subs : List Subscription} (h : ∀ sub ∈ subs, sub.id = none) :
    ∀ sub ∈ (bundleFirst sessionId servers subs).2, sub.id = none := by
  induction subs with
  | nil => simp [bundleFirst]
  | cons t rest ih =>
    have hrest := ih fun sub hsub => h sub (List.mem_cons_of_mem _ hsub)
    unfold bundleFirst
    split
    · intro sub hsub
      rcases List.mem_cons.1 hsub with rfl | hsub
      · exact h t List.mem_cons_self
      · exact h sub (List.mem_cons_of_mem _ hsub)
    · intro sub hsub
      rcases List.mem_cons.1 hsub with rfl | hsub
      · exact h _ List.mem_cons_self
      · exact hrest sub hsub

theorem labelled_create {s : Session} (hnew : ∀ sub ∈ s.pendingNew, sub.id = none)
    (config : ClientConfig) : (s.create config).1.Labelled where
  new := new_bundleFirst _ _ hnew
  active id sub h := by simp [create, active] at h

theorem pushNew_id (config : ClientConfig) (s : Session) (r : Resource) (sub : Subscription) :
    (s.pushNew config r sub).1.id = sub.id := by
  unfold pushNew
  split <;> rfl

theorem pushActive_id (id : String) (sub : Subscription) : (pushActive id sub).1.id = sub.id := by
  unfold pushActive
  split
  · split <;> rfl
  · rfl

theorem labelled_pushSubscriptions {s : Session} {r : Resource}
    (hnew : ∀ sub ∈ s.pendingNew, sub.id = none)
    (hactive : ∀ id sub, r.active.get? id = some sub → sub.id = some id) (config : ClientConfig) :
    (s.pushSubscriptions config r).1.Labelled where
  new sub hsub := by
    simp only [pushSubscriptions, List.map_map] at hsub
    obtain ⟨t, ht, rfl⟩ := List.mem_map.1 hsub
    exact (pushNew_id config s r t).trans (hnew t ht)
  active id sub h := by
    simp only [pushSubscriptions, active] at h
    obtain ⟨p, hp, rfl⟩ := get?_map_eq_some h
    obtain ⟨t, ht, rfl⟩ := get?_map_eq_some hp
    exact (pushActive_id id t).trans (hactive id t ht)

theorem labelled_reconcile {s : Session} (hl : s.Labelled) {r : Resource}
    (hr : s.remote = .registered r) (config : ClientConfig) :
    (s.reconcile config r).1.Labelled := by
  obtain ⟨p, hbody, heq⟩ := reconcile_eq config s r
  rw [heq]
  apply labelled_pushSubscriptions
  · rw [hbody.pendingNew]
    exact hl.new
  · rw [hbody.active, ← active_of_registered hr]
    exact hl.active

theorem labelled_push {s s' : Session} (hl : s.Labelled) {config : ClientConfig}
    (h : (s.push config).1 = some s') : s'.Labelled := by
  have hpushes := s.pushes config
  generalize s.push config = q at hpushes h
  cases hpushes with
  | removed => cases h
  | created =>
    rw [← Option.some.inj h]
    exact labelled_create hl.new config
  | recreated =>
    rw [← Option.some.inj h]
    apply labelled_create
    intro sub hsub
    obtain ⟨t, -, rfl⟩ := List.mem_map.1 hsub
    rfl
  | reconciled _ hremote =>
    rw [← Option.some.inj h]
    exact labelled_reconcile hl hremote config
  | idle => rwa [← Option.some.inj h]

/-! ## Answers -/

theorem labelled_insert {active : SortedMap String Subscription}
    (hactive : ∀ id sub, active.get? id = some sub → sub.id = some id) {id : String}
    {sub : Subscription} (hsub : sub.id = some id) {id' : String} {sub' : Subscription}
    (h : (active.insert id sub).get? id' = some sub') : sub'.id = some id' := by
  by_cases hid : id' = id
  · rw [hid, SortedMap.get?_insert_self] at h
    rw [← Option.some.inj h, hsub, hid]
  · rw [SortedMap.get?_insert_of_ne _ hid] at h
    exact hactive _ _ h

theorem labelled_created {s : Session} (hl : s.Labelled) (body : MbsSession)
    (bundled : Option SubscriptionKey) (answer : SessionCreated) :
    (s.created body bundled answer).1.Labelled := by
  rcases created_cases s body bundled answer with
    ⟨sub, id, r, -, -, hnew, hr, -, hactive, -⟩ | ⟨r, hnew, hr, -, hactive, -⟩
  · refine ⟨?_, fun id' sub' h => ?_⟩
    · rw [hnew]
      exact fun t ht => hl.new t (List.mem_of_mem_filter ht)
    · rw [active_of_registered hr, hactive] at h
      exact labelled_insert (by simp) rfl h
  · refine ⟨?_, fun id' sub' h => ?_⟩
    · rcases hnew with ⟨-, hnew⟩ | ⟨sub, -, -, hnew⟩
      · rw [hnew]
        exact hl.new
      · rw [hnew]
        exact new_modifyIn hl.new _ fun _ => rfl
    · rw [active_of_registered hr, hactive] at h
      simp at h

theorem labelled_subscriptionCreated? {s s' : Session} (hl : s.Labelled) {key : SubscriptionKey}
    {result : Except OperationResult SubscriptionAck} {calls : List Call}
    (h : s.subscriptionCreated? key result = some (s', calls)) : s'.Labelled := by
  unfold subscriptionCreated? at h
  split at h
  · rename_i r _ hr
    have hactive : ∀ id sub, r.active.get? id = some sub → sub.id = some id := by
      rw [← active_of_registered hr]
      exact hl.active
    split at h
    · simp at h
    · split at h
      · obtain ⟨rfl, -⟩ := Prod.mk.inj (Option.some.inj h)
        refine ⟨fun sub hsub => hl.new sub (List.mem_of_mem_filter hsub), fun id sub h => ?_⟩
        exact labelled_insert hactive rfl h
      · obtain ⟨rfl, -⟩ := Prod.mk.inj (Option.some.inj h)
        refine ⟨new_modifyIn hl.new key fun _ => rfl, fun id sub h => hactive id sub ?_⟩
        have hsame : s.active.get? id = some sub := h
        rwa [active_of_registered hr] at hsame
  · simp at h

theorem labelled_refused {s : Session} (hl : s.Labelled) (bundled : Option SubscriptionKey)
    (problem : ProblemDetails) : (s.refused bundled problem).1.Labelled where
  new := by
    simp only [refused, failBundled]
    split
    · exact new_modifyIn hl.new _ fun _ => rfl
    · exact hl.new
  active id sub h := by simp [refused, active] at h

theorem labelled_patched {s : Session} (hl : s.Labelled) (result : OperationResult) :
    (s.patched result).1.Labelled := by
  unfold patched
  split
  · rename_i r _ hr
    split
    · refine labelled_of_eq hl rfl ?_
      rw [active_of_registered hr]
      rfl
    · exact hl
  · exact hl

theorem labelled_subscriptionUpdated {s : Session} (hl : s.Labelled) (key : SubscriptionKey)
    (result : Except OperationResult SubscriptionAck) :
    (s.subscriptionUpdated key result).1.Labelled := by
  unfold subscriptionUpdated
  split
  · exact hl
  · split
    · rename_i ack
      have hconfirmed := labelled_modifySubscription hl key
        (f := Subscription.confirm ack.expiryTime) fun _ => rfl
      exact labelled_of_eq hconfirmed rfl rfl
    · have hfailed := labelled_modifySubscription hl key (f := Subscription.fail) fun _ => rfl
      exact labelled_of_eq hfailed rfl rfl

theorem labelled_moved {s s' : Session} (hl : s.Labelled) {m : Move}
    (h : (s.moved m).1 = some s') : s'.Labelled := by
  cases m <;> simp only [moved] at h
  case watch => rw [← Option.some.inj h]; exact labelled_of_eq hl rfl rfl
  case change c =>
    rw [← Option.some.inj h]
    cases hc : s.change c with
    | error e => exact hl
    | ok t => exact labelled_change hl hc
  case markDeleted => rw [← Option.some.inj h]; exact labelled_of_eq hl rfl rfl
  case takeOver sub =>
    rw [← Option.some.inj h]
    refine ⟨fun t ht => ?_, hl.active⟩
    rcases List.mem_append.1 ht with ht | ht
    · exact hl.new t ht
    · rw [List.mem_singleton.1 ht]
      rfl
  case letGo key =>
    split at h
    · rename_i sub t hdetach
      rw [← Option.some.inj h]
      exact labelled_detach? hl hdetach
    · rwa [← Option.some.inj h]
  case withdraw key =>
    rw [← Option.some.inj h]
    cases hr : s.removeSubscription key with
    | error e => exact hl
    | ok t => exact labelled_removeSubscription hl hr
  case modify key changes =>
    split at h <;> rw [← Option.some.inj h]
    · exact hl
    · have hchanged := labelled_modifySubscription hl key
        (f := fun sub => { changes.foldl Subscription.change sub with dirty := true })
        (foldl_change_id changes)
      exact labelled_of_eq hchanged rfl rfl
  case push config => exact labelled_push hl h
  case release => simp at h
  case created answer =>
    split at h <;> rw [← Option.some.inj h]
    · exact labelled_created hl _ _ answer
    · exact hl
  case refused problem =>
    split at h <;> rw [← Option.some.inj h]
    · exact labelled_refused hl _ problem
    · exact hl
  case timedOut =>
    split at h
    · simp at h
    · rwa [← Option.some.inj h]
  case patched result => rw [← Option.some.inj h]; exact labelled_patched hl result
  case subscriptionCreated key result =>
    split at h
    · rename_i t calls hcreated
      rw [← Option.some.inj h]
      exact labelled_subscriptionCreated? hl hcreated
    · rwa [← Option.some.inj h]
  case subscriptionUpdated key result =>
    rw [← Option.some.inj h]
    exact labelled_subscriptionUpdated hl key result

end Session

end MbsClient
