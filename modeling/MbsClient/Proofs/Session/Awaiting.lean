import MbsClient.Proofs.Session.Subscribers

/-!
# Awaiting — which request a new subscription waits for

An answer names the subscription alone. A new subscription that waits for one waits for the request
that was sent last: for the creation that it rides on, or, under a registered session, for a request
that this session sent for the resource it has (`onTrack_moved`).
-/

namespace MbsClient

namespace Intent

/-- The session and the resource that the creation of a subscription is for. -/
def aim? (key : SubscriptionKey) : Intent → Option (SessionKey × String)
  | .createSubscription session sub resource _ =>
      if sub = key then some (session, resource) else none
  | _ => none

/-- What the creation of a subscription was last sent for. -/
def lastAim? (key : SubscriptionKey) (intents : List Intent) : Option (SessionKey × String) :=
  (intents.filterMap (aim? key)).getLast?

theorem lastAim?_append (key : SubscriptionKey) (before after : List Intent) :
    lastAim? key (before ++ after) = (lastAim? key after).or (lastAim? key before) := by
  rw [lastAim?, List.filterMap_append, List.getLast?_append]
  rfl

-- Requests that create something else leave it as it is.
theorem lastAim?_append_of_none {key : SubscriptionKey} {before after : List Intent}
    (h : ∀ i ∈ after, i.aim? key = none) :
    lastAim? key (before ++ after) = lastAim? key before := by
  have hnone : after.filterMap (aim? key) = [] := List.filterMap_eq_nil_iff.2 h
  rw [lastAim?_append, lastAim?, hnone]
  rfl

-- Requests that all create it for the same.
theorem lastAim?_append_of_all {key : SubscriptionKey} {before after : List Intent}
    {aim : SessionKey × String} (h : ∀ i ∈ after, ∀ a, i.aim? key = some a → a = aim)
    (hbefore : lastAim? key before = some aim ∨ ∃ i ∈ after, i.aim? key = some aim) :
    lastAim? key (before ++ after) = some aim := by
  rw [lastAim?_append]
  cases hlast : lastAim? key after with
  | some a =>
    obtain ⟨i, hi, ha⟩ := List.mem_filterMap.1 (List.mem_of_getLast? hlast)
    rw [h i hi a ha]
    rfl
  | none =>
    have hempty : after.filterMap (aim? key) = [] := List.getLast?_eq_none_iff.1 hlast
    rcases hbefore with hbefore | ⟨i, hi, ha⟩
    · rw [hbefore]
      rfl
    · have hmem := List.mem_filterMap.2 ⟨i, hi, ha⟩
      rw [hempty] at hmem
      simp at hmem

end Intent

namespace Session

open Intent

/-- Of some subscriptions, one with the key waits for an answer. -/
def Awaited (subs : List Subscription) (key : SubscriptionKey) : Prop :=
  ∃ sub ∈ subs, sub.key = key ∧ sub.isInFlight = true

/-- What a new subscription can wait for. -/
def Expects (s : Session) (log : List Intent) (key : SubscriptionKey) : Prop :=
  match s.remote with
  | .absent => False
  | .creating _ bundled => bundled = some key
  | .registered r => lastAim? key log = some (s.key, r.id)

/-- The new subscriptions wait for what they can wait for. -/
def OnTrack (s : Session) (log : List Intent) : Prop :=
  ∀ key, Awaited s.pendingNew key → s.Expects log key

theorem onTrack_new (key : SessionKey) (log : List Intent) : OnTrack { key } log := by
  rintro k ⟨sub, hsub, -⟩
  simp at hsub

theorem mem_newKeys_of_awaited {s : Session} {key : SubscriptionKey}
    (h : Awaited s.pendingNew key) : key ∈ s.newKeys := by
  obtain ⟨sub, hsub, hk, -⟩ := h
  exact List.mem_map.2 ⟨sub, hsub, hk⟩

theorem expects_of_registered {s : Session} {r : Resource} (h : s.remote = .registered r)
    (log : List Intent) (key : SubscriptionKey) :
    s.Expects log key ↔ lastAim? key log = some (s.key, r.id) := by
  rw [Expects, h]

-- A session stays on track if no more of its subscriptions wait.
theorem OnTrack.of_awaited {s s' : Session} {log : List Intent} (h : s.OnTrack log)
    (hawaited : ∀ key, Awaited s'.pendingNew key → Awaited s.pendingNew key)
    (hexpects : ∀ key, Awaited s'.pendingNew key → s.Expects log key → s'.Expects log key) :
    s'.OnTrack log :=
  fun key hkey => hexpects key hkey (h key (hawaited key hkey))

-- What was last sent for the subscription is all that counts of a log.
theorem expects_of_log {s : Session} {log log' : List Intent} {key : SubscriptionKey}
    (hlog : lastAim? key log' = lastAim? key log) (h : s.Expects log key) : s.Expects log' key := by
  unfold Expects at h ⊢
  rw [hlog]
  exact h

theorem OnTrack.of_none {s : Session} {log : List Intent}
    (h : ∀ key, ¬ Awaited s.pendingNew key) : s.OnTrack log :=
  fun key hkey => absurd hkey (h key)

/-! ## Changes in place -/

theorem awaited_modifyIn {f : Subscription → Subscription} (hkey : ∀ sub, (f sub).key = sub.key)
    (hflight : ∀ sub, (f sub).isInFlight = true → sub.isInFlight = true)
    {changed key : SubscriptionKey} {subs : List Subscription}
    (h : Awaited (modifyIn changed f subs) key) : Awaited subs key := by
  obtain ⟨sub, hsub, rfl, hin⟩ := h
  obtain ⟨t, ht, rfl⟩ := List.mem_map.1 hsub
  split at hin
  · rename_i heq
    rw [if_pos heq, hkey]
    exact ⟨t, ht, rfl, hflight t hin⟩
  · rename_i heq
    rw [if_neg heq]
    exact ⟨t, ht, rfl, hin⟩

-- What is not in flight after the change is not waited for.
theorem not_awaited_modifyIn {f : Subscription → Subscription}
    (hflight : ∀ sub, (f sub).isInFlight = false) (key : SubscriptionKey)
    (subs : List Subscription) : ¬ Awaited (modifyIn key f subs) key := by
  rintro ⟨sub, hsub, hk, hin⟩
  obtain ⟨t, ht, rfl⟩ := List.mem_map.1 hsub
  split at hin
  · simp [hflight] at hin
  · rename_i hne
    rw [if_neg hne] at hk
    exact hne hk

theorem awaited_of_fail {changed key : SubscriptionKey} {subs : List Subscription}
    (h : Awaited (modifyIn changed Subscription.fail subs) key) : Awaited subs key :=
  awaited_modifyIn (f := Subscription.fail) (fun _ => rfl)
    (fun t ht => by simp [Subscription.fail, Subscription.isInFlight] at ht) h

theorem awaited_filter {p : Subscription → Bool} {subs : List Subscription} {key : SubscriptionKey}
    (h : Awaited (subs.filter p) key) : Awaited subs key := by
  obtain ⟨sub, hsub, hk⟩ := h
  exact ⟨sub, List.mem_of_mem_filter hsub, hk⟩

theorem not_awaited_filter_key (key : SubscriptionKey) (subs : List Subscription) :
    ¬ Awaited (subs.filter fun sub => sub.key != key) key := by
  rintro ⟨sub, hsub, rfl, -⟩
  have hne := (List.mem_filter.1 hsub).2
  simp at hne

theorem expects_mapResource {s s' : Session} {log : List Intent} {key : SubscriptionKey}
    (h : s.Expects log key) {f : Resource → Resource} (hkey : s'.key = s.key)
    (hremote : s'.remote = s.remote.mapResource f) (hf : ∀ r, (f r).id = r.id) :
    s'.Expects log key := by
  unfold Expects at h ⊢
  rw [hremote]
  cases hr : s.remote with
  | absent => rwa [hr] at h
  | creating body bundled => rwa [hr] at h
  | registered r =>
    rw [hr] at h
    simp only [Remote.mapResource]
    rw [hf, hkey]
    exact h

theorem onTrack_modifySubscription {s : Session} {log : List Intent} (h : s.OnTrack log)
    (key : SubscriptionKey) {f : Subscription → Subscription} (hkey : ∀ sub, (f sub).key = sub.key)
    (hflight : ∀ sub, (f sub).isInFlight = true → sub.isInFlight = true) :
    (s.modifySubscription key f).OnTrack log :=
  h.of_awaited (fun _ => awaited_modifyIn hkey hflight)
    fun _ _ hk => expects_mapResource hk rfl rfl fun _ => rfl

theorem foldl_change_inFlight (changes : List SubscriptionChange) (sub : Subscription) :
    (changes.foldl Subscription.change sub).inFlight = sub.inFlight :=
  foldl_change (f := Subscription.inFlight) (fun _ c => by cases c <;> rfl) changes sub

/-! ## Subscriptions that leave -/

theorem onTrack_detach? {s s' : Session} {log : List Intent} (h : s.OnTrack log)
    {key : SubscriptionKey} {sub : Subscription} (hd : s.detach? key = some (sub, s')) :
    s'.OnTrack log := by
  unfold detach? at hd
  split at hd
  · obtain ⟨-, rfl⟩ := Prod.mk.inj (Option.some.inj hd)
    refine h.of_awaited (fun _ => awaited_filter) fun k hk hexpects => ?_
    -- the one that has left is the only one whose creation is touched
    have hne : k ≠ key := by
      rintro rfl
      exact not_awaited_filter_key k s.pendingNew hk
    unfold Expects at hexpects ⊢
    cases hr : s.remote with
    | absent => simp [hr] at hexpects
    | creating body bundled =>
      simp only [hr, Remote.unbundle] at hexpects ⊢
      simp [hexpects, hne]
    | registered r =>
      simp only [hr, Remote.unbundle] at hexpects ⊢
      exact hexpects
  · obtain ⟨e, -, he⟩ := Option.map_eq_some_iff.1 hd
    obtain ⟨-, rfl⟩ := Prod.mk.inj he
    exact h.of_awaited (fun _ => id) fun _ _ hk => expects_mapResource hk rfl rfl fun _ => rfl

theorem onTrack_removeSubscription {s s' : Session} {log : List Intent} (h : s.OnTrack log)
    {key : SubscriptionKey} (hr : s.removeSubscription key = .ok s') : s'.OnTrack log := by
  unfold removeSubscription at hr
  split at hr
  · simp at hr
  · rename_i sub t hdetach
    have ht := onTrack_detach? h hdetach
    split at hr
    · rw [← Except.ok.inj hr]
      exact ht.of_awaited (fun _ => id) fun _ _ hk => expects_mapResource hk rfl rfl fun _ => rfl
    · rw [← Except.ok.inj hr]
      exact ht

/-! ## Pushing -/

-- Of subscriptions that wait for nothing, the first that is due waits once it is sent.
theorem awaited_bundleFirst {sessionId : MbsSessionId} {servers : List NotificationServer}
    {subs : List Subscription} (h : ∀ key, ¬ Awaited subs key) {key : SubscriptionKey}
    (hkey : Awaited (bundleFirst sessionId servers subs).2 key) :
    (bundleFirst sessionId servers subs).1.map BundledSubscription.key = some key := by
  induction subs with
  | nil =>
    obtain ⟨sub, hsub, -⟩ := hkey
    simp [bundleFirst] at hsub
  | cons sub rest ih =>
    have hrest : ∀ key, ¬ Awaited rest key := by
      rintro k ⟨t, ht, hk⟩
      exact h k ⟨t, List.mem_cons_of_mem _ ht, hk⟩
    unfold bundleFirst at hkey ⊢
    split at hkey
    · rename_i hdue
      obtain ⟨t, ht, hk, hin⟩ := hkey
      rw [if_pos hdue]
      rcases List.mem_cons.1 ht with rfl | ht
      · exact congrArg some hk
      · exact absurd ⟨t, ht, hk, hin⟩ (hrest key)
    · rename_i hdue
      obtain ⟨t, ht, hk, hin⟩ := hkey
      rw [if_neg hdue]
      rcases List.mem_cons.1 ht with rfl | ht
      · exact absurd ⟨t, List.mem_cons_self, hk, hin⟩ (h key)
      · exact ih hrest ⟨t, ht, hk, hin⟩

theorem onTrack_create {s : Session} (h : ∀ key, ¬ Awaited s.pendingNew key)
    (config : ClientConfig) (log : List Intent) : (s.create config).1.OnTrack log :=
  fun _ hkey => awaited_bundleFirst h hkey

theorem not_awaited_requeue (s : Session) (key : SubscriptionKey) :
    ¬ Awaited s.requeue.pendingNew key := by
  rintro ⟨sub, hsub, -, hin⟩
  obtain ⟨t, -, rfl⟩ := List.mem_map.1 hsub
  simp [Subscription.forgetRemote, Subscription.isInFlight] at hin

-- A request of a push that creates a subscription is for the resource of the session.
theorem aim?_of_mem_pushSubscriptions {s : Session} {config : ClientConfig} {r : Resource}
    {i : Intent} (hi : i ∈ (s.pushSubscriptions config r).2) {key : SubscriptionKey}
    {aim : SessionKey × String} (ha : i.aim? key = some aim) :
    aim = (s.key, r.id) ∧ key ∈ s.newKeys := by
  cases subscriptionRequest_of_mem hi with
  | created hsub =>
    rw [aim?] at ha
    split at ha
    · rename_i hkey
      exact ⟨(Option.some.inj ha).symm, List.mem_map.2 ⟨_, hsub, hkey⟩⟩
    · cases ha
  | changed => cases ha
  | deleted => cases ha

-- A new subscription that waits after a push waited before, or its creation has been sent.
theorem awaited_pushSubscriptions {s : Session} {config : ClientConfig} {r : Resource}
    {key : SubscriptionKey}
    (h : Awaited (s.pushSubscriptions config r).1.pendingNew key) :
    Awaited s.pendingNew key ∨
      ∃ i ∈ (s.pushSubscriptions config r).2, i.aim? key = some (s.key, r.id) := by
  obtain ⟨sub, hsub, hk, hin⟩ := h
  simp only [pushSubscriptions, List.map_map] at hsub
  obtain ⟨t, ht, rfl⟩ := List.mem_map.1 hsub
  simp only [Function.comp_apply] at hk hin
  by_cases hdue : t.isDue = true
  · have hsent : .createSubscription s.key t.key r.id
        (t.sendCreate s.data.mbsSessionId config.notificationServers).data ∈
          (s.pushSubscriptions config r).2 := by
      apply List.mem_append_left
      apply List.mem_append_left
      refine List.mem_flatMap.2 ⟨s.pushNew config r t, List.mem_map_of_mem ht, ?_⟩
      rw [pushNew, if_pos hdue]
      exact List.mem_singleton_self _
    refine .inr ⟨_, hsent, ?_⟩
    rw [aim?, if_pos]
    rw [← hk, pushNew_key]
  · rw [pushNew, if_neg hdue] at hk hin
    exact .inl ⟨t, ht, hk, hin⟩

theorem aim?_of_mem_patches {s : Session} {r : Resource} {p : Session × Resource × List Intent}
    (hbody : BodyPushed s r p) (key : SubscriptionKey) : ∀ i ∈ p.2.2, i.aim? key = none := by
  intro i hi
  obtain ⟨ops, rfl⟩ := hbody.patches i hi
  rfl

theorem onTrack_reconcile {s : Session} {log : List Intent} (h : s.OnTrack log) {r : Resource}
    (hr : s.remote = .registered r) (config : ClientConfig) :
    (s.reconcile config r).1.OnTrack (log ++ (s.reconcile config r).2) := by
  obtain ⟨p, hbody, heq⟩ := reconcile_eq config s r
  rw [heq]
  intro key hawaited
  show lastAim? key (log ++ (p.2.2 ++ (p.1.pushSubscriptions config p.2.1).2)) =
    some (p.1.key, p.2.1.id)
  rw [← List.append_assoc]
  -- every creation sent is for this resource, and so was the last one if none is sent
  apply lastAim?_append_of_all
  · exact fun i hi a ha => (aim?_of_mem_pushSubscriptions hi ha).1
  · rcases awaited_pushSubscriptions hawaited with hbefore | hsent
    · rw [hbody.pendingNew] at hbefore
      rw [lastAim?_append_of_none (aim?_of_mem_patches hbody key), hbody.key, hbody.id]
      exact .inl ((expects_of_registered hr log key).1 (h key hbefore))
    · exact .inr hsent

theorem onTrack_push {s s' : Session} {log : List Intent} (h : s.OnTrack log)
    {config : ClientConfig} (hs' : (s.push config).1 = some s') :
    s'.OnTrack (log ++ (s.push config).2) := by
  have hpushes := s.pushes config
  generalize s.push config = q at hpushes hs'
  cases hpushes with
  | removed => cases hs'
  | created _ hremote =>
    -- nothing can wait in a session that the MB-SMF does not know
    have hnone : ∀ key, ¬ Awaited s.pendingNew key := by
      intro key hkey
      have habsent := h key hkey
      rwa [Expects, hremote] at habsent
    rw [← Option.some.inj hs']
    exact onTrack_create hnone config _
  | recreated =>
    rw [← Option.some.inj hs']
    exact onTrack_create (not_awaited_requeue s) config _
  | reconciled _ hremote =>
    rw [← Option.some.inj hs']
    exact onTrack_reconcile h hremote config
  | idle => rwa [← Option.some.inj hs', List.append_nil]

/-! ## Answers -/

-- The key of a subscription that waits while its session does is that of the rider.
theorem rider?_of_awaited {s : Session} {log : List Intent} (h : s.OnTrack log)
    {w : MbsSession × Option SubscriptionKey} (hw : s.waitingFor? = some w) {key : SubscriptionKey}
    (hkey : Awaited s.pendingNew key) : w.2 = some key ∧ (s.rider? w.2).isSome = true := by
  have hbundled : w.2 = some key := by
    have hexpects := h key hkey
    rwa [Expects, (remote_of_waitingFor? hw).2] at hexpects
  obtain ⟨sub, hsub, hk, -⟩ := hkey
  refine ⟨hbundled, ?_⟩
  rw [rider?, hbundled, Option.bind_some, List.find?_isSome]
  exact ⟨sub, hsub, by simpa using hk⟩

-- Once a creation has succeeded nothing is waited for.
theorem onTrack_created {s : Session} {log : List Intent} (h : s.OnTrack log)
    {w : MbsSession × Option SubscriptionKey} (hw : s.waitingFor? = some w)
    (answer : SessionCreated) (log' : List Intent) : (s.created w.1 w.2 answer).1.OnTrack log' := by
  -- only the rider can have waited, and it has been settled, has failed or has gone
  apply OnTrack.of_none
  intro key hkey
  have hrider : ∀ sub, s.rider? w.2 = some sub → w.2 = some key → sub.key = key := by
    intro sub hsub hbundled
    rw [rider?, hbundled, Option.bind_some] at hsub
    simpa using List.find?_some hsub
  rcases created_cases s w.1 w.2 answer with
    ⟨sub, id, r, hsub, -, hnew, -⟩ | ⟨r, ⟨hsub, hnew⟩ | ⟨sub, hsub, -, hnew⟩, -⟩
  · rw [hnew] at hkey
    obtain ⟨hbundled, -⟩ := rider?_of_awaited h hw (awaited_filter hkey)
    rw [hrider sub hsub hbundled] at hkey
    exact not_awaited_filter_key key _ hkey
  · rw [hnew] at hkey
    obtain ⟨-, hsome⟩ := rider?_of_awaited h hw hkey
    simp [hsub] at hsome
  · rw [hnew] at hkey
    obtain ⟨hbundled, -⟩ := rider?_of_awaited h hw (awaited_of_fail hkey)
    rw [hrider sub hsub hbundled] at hkey
    exact not_awaited_modifyIn (fun _ => rfl) key _ hkey

-- Nor once it has been refused.
theorem onTrack_refused {s : Session} {log : List Intent} (h : s.OnTrack log)
    {w : MbsSession × Option SubscriptionKey} (hw : s.waitingFor? = some w)
    (problem : ProblemDetails) : (s.refused w.2 problem).1.OnTrack log := by
  apply OnTrack.of_none
  intro key hkey
  simp only [refused, failBundled] at hkey
  cases hbundled : w.2 with
  | none =>
    rw [hbundled] at hkey
    obtain ⟨hsame, -⟩ := rider?_of_awaited h hw hkey
    simp [hbundled] at hsame
  | some k =>
    rw [hbundled] at hkey
    obtain ⟨hsame, -⟩ := rider?_of_awaited h hw (awaited_of_fail hkey)
    rw [hbundled] at hsame
    rw [Option.some.inj hsame] at hkey
    exact not_awaited_modifyIn (fun _ => rfl) key _ hkey

theorem onTrack_patched {s : Session} {log : List Intent} (h : s.OnTrack log)
    (result : OperationResult) : (s.patched result).1.OnTrack log := by
  unfold patched
  split
  · rename_i r _ hr
    split
    · refine h.of_awaited (fun _ => id) fun key _ hexpects => ?_
      show lastAim? key log = some (s.key, r.id)
      exact (expects_of_registered hr log key).1 hexpects
    · exact h
  · exact h

theorem onTrack_subscriptionCreated? {s s' : Session} {log : List Intent} (h : s.OnTrack log)
    {key : SubscriptionKey} {result : Except OperationResult SubscriptionAck} {calls : List Call}
    (hc : s.subscriptionCreated? key result = some (s', calls)) : s'.OnTrack log := by
  unfold subscriptionCreated? at hc
  split at hc
  · rename_i r _ hr
    split at hc
    · simp at hc
    · split at hc
      · obtain ⟨rfl, -⟩ := Prod.mk.inj (Option.some.inj hc)
        refine h.of_awaited (fun _ => awaited_filter) fun k _ hexpects => ?_
        show lastAim? k log = some (s.key, r.id)
        exact (expects_of_registered hr log k).1 hexpects
      · obtain ⟨rfl, -⟩ := Prod.mk.inj (Option.some.inj hc)
        exact h.of_awaited (fun _ => awaited_of_fail) fun _ _ => id
  · simp at hc

theorem onTrack_subscriptionUpdated {s : Session} {log : List Intent} (h : s.OnTrack log)
    (key : SubscriptionKey) (result : Except OperationResult SubscriptionAck) :
    (s.subscriptionUpdated key result).1.OnTrack log := by
  unfold subscriptionUpdated
  split
  · exact h
  · split
    · exact onTrack_modifySubscription h key (f := Subscription.confirm _) (fun _ => rfl)
        fun t ht => by simp [Subscription.confirm, Subscription.isInFlight] at ht
    · exact onTrack_modifySubscription h key (f := Subscription.fail) (fun _ => rfl)
        fun t ht => by simp [Subscription.fail, Subscription.isInFlight] at ht

/-! ## Moves -/

theorem aim?_of_mem_release {s : Session} {i : Intent} (hi : i ∈ s.release)
    (key : SubscriptionKey) : i.aim? key = none := by
  obtain ⟨id, -, rfl⟩ := exists_of_mem_release hi
  rfl

theorem mem_newKeys_of_mem_push {s : Session} {config : ClientConfig} {i : Intent}
    (hi : i ∈ (s.push config).2) {key : SubscriptionKey} {aim : SessionKey × String}
    (ha : i.aim? key = some aim) : key ∈ s.newKeys := by
  have hpushes := s.pushes config
  generalize s.push config = q at hpushes hi
  cases hpushes with
  | removed => simp [aim?_of_mem_release hi key] at ha
  | created =>
    rw [List.mem_singleton.1 hi] at ha
    simp [create, aim?] at ha
  | recreated =>
    rcases List.mem_append.1 hi with hi | hi
    · simp [aim?_of_mem_release hi key] at ha
    · rw [List.mem_singleton.1 hi] at ha
      simp [create, aim?] at ha
  | @reconciled r =>
    obtain ⟨p, hbody, heq⟩ := reconcile_eq config s r
    rw [heq] at hi
    rcases List.mem_append.1 hi with hi | hi
    · simp [aim?_of_mem_patches hbody key i hi] at ha
    · have hnew := (aim?_of_mem_pushSubscriptions hi ha).2
      rwa [newKeys, hbody.pendingNew] at hnew
  | idle => cases hi

theorem aim?_of_mem_letGo {s : Session} {k : SubscriptionKey} {i : Intent}
    (hi : i ∈ (s.moved (.letGo k)).2) (key : SubscriptionKey) : i.aim? key = none := by
  cases sends_of_mem hi
  rfl

-- A creation that is sent by a move is of a new subscription.
theorem mem_newKeys_of_mem_moved {s : Session} {m : Move} {i : Intent} (hi : i ∈ (s.moved m).2)
    {key : SubscriptionKey} {aim : SessionKey × String} (ha : i.aim? key = some aim) :
    key ∈ s.newKeys := by
  cases sends_of_mem hi with
  | letGo => cases ha
  | pushed hi => exact mem_newKeys_of_mem_push hi ha
  | released => cases ha

-- A session that sends nothing stays on track.
theorem onTrack_silent {s s' : Session} {log : List Intent} (h : s.OnTrack log) {m : Move}
    (hm : m.Silent) (hs' : (s.moved m).1 = some s') : s'.OnTrack log := by
  cases m <;> simp only [moved] at hs'
  case watch =>
    rw [← Option.some.inj hs']
    exact h
  case change c =>
    rw [← Option.some.inj hs']
    cases hc : s.change c with
    | error e => exact h
    | ok t =>
      obtain ⟨data, dirty, rfl⟩ := eq_of_change hc
      exact h
  case markDeleted =>
    rw [← Option.some.inj hs']
    exact h
  case takeOver sub =>
    rw [← Option.some.inj hs']
    refine h.of_awaited ?_ fun _ _ => id
    rintro key ⟨t, ht, hk, hin⟩
    rcases List.mem_append.1 ht with ht | ht
    · exact ⟨t, ht, hk, hin⟩
    · rw [List.mem_singleton.1 ht] at hin
      simp [Subscription.forgetRemote, Subscription.isInFlight] at hin
  case letGo key => exact hm.elim
  case withdraw key =>
    rw [← Option.some.inj hs']
    cases hr : s.removeSubscription key with
    | error e => exact h
    | ok t => exact onTrack_removeSubscription h hr
  case modify key changes =>
    split at hs' <;> rw [← Option.some.inj hs']
    · exact h
    · exact onTrack_modifySubscription h key (fun sub => foldl_change_key changes sub)
        fun sub hin => by
          rwa [Subscription.isInFlight, foldl_change_inFlight, ← Subscription.isInFlight] at hin
  case push config => exact hm.elim
  case release => exact hm.elim
  case created answer =>
    split at hs' <;> rw [← Option.some.inj hs']
    · rename_i hw
      exact onTrack_created h hw answer log
    · exact h
  case refused problem =>
    split at hs' <;> rw [← Option.some.inj hs']
    · rename_i hw
      exact onTrack_refused h hw problem
    · exact h
  case timedOut =>
    split at hs'
    · simp at hs'
    · rwa [← Option.some.inj hs']
  case patched result =>
    rw [← Option.some.inj hs']
    exact onTrack_patched h result
  case subscriptionCreated key result =>
    split at hs'
    · rename_i t calls hcreated
      rw [← Option.some.inj hs']
      exact onTrack_subscriptionCreated? h hcreated
    · rwa [← Option.some.inj hs']
  case subscriptionUpdated key result =>
    rw [← Option.some.inj hs']
    exact onTrack_subscriptionUpdated h key result

/-- **A session stays on track** with what it sends. -/
theorem onTrack_moved {s s' : Session} {log : List Intent} (h : s.OnTrack log) {m : Move}
    (hs' : (s.moved m).1 = some s') : s'.OnTrack (log ++ (s.moved m).2) := by
  rcases m.silent_or with hm | ⟨k, rfl⟩ | ⟨config, rfl⟩ | rfl
  · rw [moved_of_silent s hm, List.append_nil]
    exact onTrack_silent h hm hs'
  · have hlog : ∀ key, lastAim? key (log ++ (s.moved (.letGo k)).2) = lastAim? key log :=
      fun key => lastAim?_append_of_none fun i hi => aim?_of_mem_letGo hi key
    have hlet : s'.OnTrack log := by
      simp only [moved] at hs'
      split at hs'
      · rename_i sub t hdetach
        rw [← Option.some.inj hs']
        exact onTrack_detach? h hdetach
      · rwa [← Option.some.inj hs']
    exact fun key hkey => expects_of_log (hlog key) (hlet key hkey)
  · exact onTrack_push h hs'
  · simp [moved] at hs'

end Session

end MbsClient
