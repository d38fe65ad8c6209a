import MbsClient.Proofs.Model.Unchanged
import MbsClient.Proofs.Session.Origins

/-!
# Pending work — what has not been sent yet is marked

There are two layers of marks. A subscription is dirty unless what it has now has been sent or is
acknowledged (`tracked_moved`). A registered session is dirty if any of its subscriptions has
something to send (`flagged_moved`), so that a push that skips clean sessions skips no work.
-/

namespace MbsClient

namespace Session

/-! ## 1. Subscriptions -/

/-- A clean subscription has been sent as it is, or nothing differs from what is acknowledged. -/
structure Tracked (s : Session) : Prop where
  new : ∀ sub ∈ s.pendingNew, sub.dirty = false → sub.inFlight = some sub.data
  active : ∀ id sub, s.active.get? id = some sub → ∃ acked, sub.acked = some acked ∧
    (sub.dirty = false → sub.inFlight = some sub.data ∨
      sub.inFlight = none ∧ Diff.values acked sub.data = [])

theorem tracked_new (key : SessionKey) : Tracked { key } where
  new := by simp
  active id sub h := by simp [active] at h

theorem sent_of_newFrom {s : Session} (h : s.Tracked) {m : Move} {sub : Subscription}
    (hsub : NewFrom s m sub) (hclean : sub.dirty = false) : sub.inFlight = some sub.data := by
  cases hsub with
  | kept hmem => exact h.new sub hmem hclean
  | takenOver => exact Bool.noConfusion hclean
  | changed hmem => exact Bool.noConfusion hclean
  | sent hmem => rfl
  | requeued hmem => exact Bool.noConfusion hclean
  | resent hmem => rfl
  | failed hmem => exact Bool.noConfusion hclean

-- What has been sent and is answered is acknowledged.
theorem acked_of_inFlight {sub : Subscription} (hin : sub.isInFlight = true)
    (hsent : sub.dirty = false → sub.inFlight = some sub.data) :
    ∃ acked, sub.inFlight = some acked ∧
      (sub.dirty = false → Diff.values acked sub.data = []) := by
  obtain ⟨acked, hacked⟩ := Option.isSome_iff_exists.1 hin
  refine ⟨acked, hacked, fun hclean => ?_⟩
  rw [hsent hclean] at hacked
  rw [← Option.some.inj hacked]
  exact Diff.values_self (Diff.Steady.edits_self sub.data)

theorem tracked_of_activeFrom {s : Session} (h : s.Tracked) {m : Move} {id : String}
    {sub : Subscription} (hsub : ActiveFrom s m id sub) :
    ∃ acked, sub.acked = some acked ∧
      (sub.dirty = false → sub.inFlight = some sub.data ∨
        sub.inFlight = none ∧ Diff.values acked sub.data = []) := by
  cases hsub with
  | kept hmem => exact h.active id sub hmem
  | @changed key changes id t hmem =>
    obtain ⟨acked, hacked, -⟩ := h.active id t hmem
    have hsame : (changes.foldl Subscription.change t).acked = t.acked :=
      foldl_change (f := Subscription.acked) (fun _ c => by cases c <;> rfl) changes t
    exact ⟨acked, hsame.trans hacked, Bool.noConfusion⟩
  | @unchanged config id t hmem hdue hsame =>
    obtain ⟨acked, hacked, -⟩ := h.active id t hmem
    refine ⟨acked, hacked, fun _ => .inr ⟨?_, ?_⟩⟩
    · simp only [Subscription.isDue, Subscription.isInFlight, Bool.and_eq_true] at hdue
      simpa using hdue.2
    · rwa [Subscription.pendingOps, hacked] at hsame
  | @sent config id t hmem =>
    obtain ⟨acked, hacked, -⟩ := h.active id t hmem
    exact ⟨acked, hacked, fun _ => .inl rfl⟩
  | @confirmed m id t expiry hmem hin =>
    obtain ⟨acked, hacked, hclean⟩ := h.active id t hmem
    -- as it waits, it is not one of those that are known to be in step
    obtain ⟨sent, hsent, hsame⟩ := acked_of_inFlight hin fun hc =>
      (hclean hc).resolve_right fun hnone => by simp [Subscription.isInFlight, hnone.1] at hin
    exact ⟨sent, hsent, fun hc => .inr ⟨rfl, hsame hc⟩⟩
  | @failed m id t hmem =>
    obtain ⟨acked, hacked, -⟩ := h.active id t hmem
    exact ⟨acked, hacked, Bool.noConfusion⟩
  | @created m id t expiry hmem hin =>
    obtain ⟨acked, hacked, hsame⟩ := acked_of_inFlight hin (h.new t hmem)
    exact ⟨acked, hacked, fun hc => .inr ⟨rfl, hsame hc⟩⟩

/-- **A change of a subscription stays marked** until it has been sent. -/
theorem tracked_moved {s s' : Session} (hn : s.subscriptionKeys.Nodup) (hrides : s.Rides)
    (h : s.Tracked) {m : Move} (hs' : (s.moved m).1 = some s') : s'.Tracked := by
  have horigins := origins_moved hn hrides hs'
  exact ⟨fun sub hsub => sent_of_newFrom h (horigins.new sub hsub),
    fun id sub hsub => tracked_of_activeFrom h (horigins.active id sub hsub)⟩

/-! ## 2. Sessions -/

/-- A registered session is dirty if it has to send anything about its subscriptions. -/
def Flagged (s : Session) : Prop :=
  ∀ r, s.remote = .registered r → s.dirty = false →
    (∀ sub ∈ s.subscriptions, sub.isDue = false) ∧ r.pendingDelete = []

theorem flagged_of_dirty {s : Session} (h : s.dirty = true) : s.Flagged :=
  fun r _ hclean => by simp [h] at hclean

theorem flagged_of_not_registered {s : Session} (h : ∀ r, s.remote ≠ .registered r) : s.Flagged :=
  fun r hr => absurd hr (h r)

theorem flagged_new (key : SessionKey) : Flagged { key } := flagged_of_dirty rfl

theorem registered_of_resource? {s : Session} {r : Resource} (h : s.resource? = some r) :
    s.remote = .registered r := by
  cases hr : s.remote <;> simp_all [resource?, Remote.resource?]

theorem dirty_of_detach? {s s' : Session} {key : SubscriptionKey} {sub : Subscription}
    (h : s.detach? key = some (sub, s')) : s'.dirty = s.dirty := by
  unfold detach? at h
  split at h
  · obtain ⟨-, rfl⟩ := Prod.mk.inj (Option.some.inj h)
    rfl
  · obtain ⟨e, -, he⟩ := Option.map_eq_some_iff.1 h
    obtain ⟨-, rfl⟩ := Prod.mk.inj he
    rfl

-- A session stays flagged if nothing has to be sent that had not to be sent before.
theorem Flagged.of_due {s s' : Session} (h : s.Flagged)
    (hdirty : s'.dirty = false → s.dirty = false)
    (hresource : s'.resource?.map Resource.pendingDelete = s.resource?.map Resource.pendingDelete)
    (hdue : s'.dirty = false → ∀ sub ∈ s'.subscriptions,
      sub ∈ s.subscriptions ∨ sub.isDue = false) : s'.Flagged := by
  intro r' hr' hclean
  rw [resource?_of_registered hr', Option.map_some] at hresource
  obtain ⟨r, hr, hleaving⟩ := Option.map_eq_some_iff.1 hresource.symm
  obtain ⟨hnone, hempty⟩ := h r (registered_of_resource? hr) (hdirty hclean)
  refine ⟨fun sub hsub => ?_, hleaving.symm.trans hempty⟩
  exact (hdue hclean sub hsub).elim (hnone sub) id

theorem flagged_detach? {s s' : Session} (h : s.Flagged) {key : SubscriptionKey}
    {sub : Subscription} (hd : s.detach? key = some (sub, s')) : s'.Flagged := by
  obtain ⟨hnew, hactive, hleaving⟩ := kept_detach? hd
  refine h.of_due (fun hclean => ?_) hleaving fun _ t ht => .inl ?_
  · rwa [dirty_of_detach? hd] at hclean
  · rcases mem_subscriptions.1 ht with ht | ⟨id, ht⟩
    · exact mem_subscriptions.2 (.inl (hnew t ht))
    · exact mem_subscriptions.2 (.inr ⟨id, hactive id t ht⟩)

/-! ### Pushing -/

theorem isDue_pushNew (config : ClientConfig) (s : Session) (r : Resource) (sub : Subscription) :
    (s.pushNew config r sub).1.isDue = false := by
  unfold pushNew
  split
  · rfl
  · rename_i hdue
    exact Bool.eq_false_iff.2 hdue

theorem isDue_pushActive (id : String) (sub : Subscription) :
    (pushActive id sub).1.isDue = false := by
  unfold pushActive
  split
  · split <;> rfl
  · rename_i hdue
    exact Bool.eq_false_iff.2 hdue

-- Whatever was due has been sent.
theorem isDue_pushSubscriptions (config : ClientConfig) (s : Session) (r : Resource) :
    ∀ sub ∈ (s.pushSubscriptions config r).1.subscriptions, sub.isDue = false := by
  intro sub hsub
  rcases mem_subscriptions.1 hsub with hsub | ⟨id, hsub⟩
  · simp only [pushSubscriptions, List.map_map] at hsub
    obtain ⟨t, -, rfl⟩ := List.mem_map.1 hsub
    exact isDue_pushNew config s r t
  · obtain ⟨p, hp, rfl⟩ := get?_map_eq_some hsub
    obtain ⟨t, -, rfl⟩ := get?_map_eq_some hp
    exact isDue_pushActive id t

theorem flagged_pushSubscriptions (config : ClientConfig) (s : Session) (r : Resource) :
    (s.pushSubscriptions config r).1.Flagged := by
  intro r' hr' _
  refine ⟨isDue_pushSubscriptions config s r, ?_⟩
  rw [← Remote.registered.inj hr']

theorem flagged_push {s s' : Session} (h : s.Flagged) {config : ClientConfig}
    (hs' : (s.push config).1 = some s') : s'.Flagged := by
  have hpushes := s.pushes config
  generalize s.push config = q at hpushes hs'
  cases hpushes with
  | removed => cases hs'
  | created =>
    rw [← Option.some.inj hs']
    exact flagged_of_not_registered fun _ => Remote.noConfusion
  | recreated =>
    rw [← Option.some.inj hs']
    exact flagged_of_not_registered fun _ => Remote.noConfusion
  | @reconciled r =>
    rw [← Option.some.inj hs']
    obtain ⟨p, -, heq⟩ := reconcile_eq config s r
    rw [heq]
    exact flagged_pushSubscriptions config p.1 p.2.1
  | idle => rwa [← Option.some.inj hs']

/-! ### Subscriptions that are not due -/

theorem isDue_of_clean {sub : Subscription} (h : sub.dirty = false) : sub.isDue = false := by
  rw [Subscription.isDue, h, Bool.false_and]

theorem pushNew_of_not_due {sub : Subscription} (h : sub.isDue = false) (config : ClientConfig)
    (s : Session) (r : Resource) : s.pushNew config r sub = (sub, []) := by
  simp [pushNew, h]

theorem pushActive_of_not_due {id : String} {sub : Subscription} (h : sub.isDue = false) :
    pushActive id sub = (sub, []) := by
  simp [pushActive, h]

theorem map_pushActive_of_not_due {active : SortedMap String Subscription}
    (h : ∀ sub ∈ active.values, sub.isDue = false) :
    active.map pushActive = active.map fun _ sub => (sub, []) := by
  apply SortedMap.ext_entries
  refine List.map_congr_left fun e he => ?_
  rw [pushActive_of_not_due (h e.2 (List.mem_map_of_mem he))]

-- Nothing is sent for active subscriptions that are not due, and they stay as they are.
theorem active_of_not_due {active : SortedMap String Subscription}
    (h : ∀ sub ∈ active.values, sub.isDue = false) :
    ((active.map pushActive).map fun _ pushed => pushed.1) = active ∧
      (active.map pushActive).values.flatMap Prod.snd = [] := by
  rw [map_pushActive_of_not_due h]
  constructor
  · apply SortedMap.ext_entries
    simp only [SortedMap.map, List.map_map]
    exact List.map_id active.entries
  · simp [SortedMap.map, SortedMap.values, List.flatMap_map]

/-! ### Answers -/

theorem dirty_created (s : Session) (body : MbsSession) (bundled : Option SubscriptionKey)
    (answer : SessionCreated) :
    (s.created body bundled answer).1.dirty =
      (s.dirty || (s.created body bundled answer).1.subscriptions.any Subscription.dirty) := rfl

-- A creation leaves the session dirty if it leaves a subscription dirty.
theorem flagged_created (s : Session) (body : MbsSession) (bundled : Option SubscriptionKey)
    (answer : SessionCreated) : (s.created body bundled answer).1.Flagged := by
  intro r hr hclean
  rw [dirty_created, Bool.or_eq_false_iff, List.any_eq_false] at hclean
  refine ⟨fun sub hsub => isDue_of_clean (Bool.eq_false_iff.2 (hclean.2 sub hsub)), ?_⟩
  rcases created_cases s body bundled answer with
    ⟨sub, id, r', -, -, -, hr', -, -, hleaving⟩ | ⟨r', -, hr', -, -, hleaving⟩
  · rw [hr', Remote.registered.injEq] at hr
    rwa [← hr]
  · rw [hr', Remote.registered.injEq] at hr
    rwa [← hr]

theorem flagged_patched {s : Session} (h : s.Flagged) (result : OperationResult) :
    (s.patched result).1.Flagged := by
  unfold patched
  split
  · rename_i r _ hr
    split
    · refine h.of_due (fun hclean => (Bool.or_eq_false_iff.1 hclean).1) ?_ fun _ sub hsub => .inl ?_
      · rw [resource?_of_registered hr]
        rfl
      · rcases mem_subscriptions.1 hsub with hsub | ⟨id, hsub⟩
        · exact mem_subscriptions.2 (.inl hsub)
        · refine mem_subscriptions.2 (.inr ⟨id, ?_⟩)
          rwa [active_of_registered hr]
    · exact h
  · exact h

theorem flagged_subscriptionCreated? {s s' : Session} (h : s.Flagged) {key : SubscriptionKey}
    {result : Except OperationResult SubscriptionAck} {calls : List Call}
    (hc : s.subscriptionCreated? key result = some (s', calls)) : s'.Flagged := by
  unfold subscriptionCreated? at hc
  split at hc
  · rename_i r _ hr
    split at hc
    · simp at hc
    · rename_i sub hfound
      split at hc
      · rename_i ack
        obtain ⟨rfl, -⟩ := Prod.mk.inj (Option.some.inj hc)
        refine h.of_due (fun hclean => (Bool.or_eq_false_iff.1 hclean).1) ?_
          fun hclean t ht => ?_
        · rw [resource?_of_registered hr]
          rfl
        · -- the confirmed subscription may have changed meanwhile; then it is dirty
          rcases mem_subscriptions.1 ht with ht | ⟨id, ht⟩
          · exact .inl (mem_subscriptions.2 (.inl (List.mem_of_mem_filter ht)))
          · simp only [active] at ht
            by_cases hid : id = ack.id
            · rw [hid, SortedMap.get?_insert_self] at ht
              rw [← Option.some.inj ht]
              exact .inr (isDue_of_clean (Bool.or_eq_false_iff.1 hclean).2)
            · rw [SortedMap.get?_insert_of_ne _ hid, ← active_of_registered hr] at ht
              exact .inl (mem_subscriptions.2 (.inr ⟨id, ht⟩))
      · obtain ⟨rfl, -⟩ := Prod.mk.inj (Option.some.inj hc)
        exact flagged_of_dirty rfl
  · simp at hc

theorem flagged_subscriptionUpdated {s : Session} (hn : s.subscriptionKeys.Nodup) (h : s.Flagged)
    (key : SubscriptionKey) (result : Except OperationResult SubscriptionAck) :
    (s.subscriptionUpdated key result).1.Flagged := by
  unfold subscriptionUpdated
  split
  · exact h
  · rename_i sub hfound
    have hmem := List.mem_of_find?_eq_some hfound
    have hkey : sub.key = key := by
      have hp := List.find?_some hfound
      simp only [Bool.and_eq_true, decide_eq_true_eq] at hp
      exact hp.1
    split
    · rename_i ack
      refine h.of_due (fun hclean => (Bool.or_eq_false_iff.1 hclean).1) ?_ fun hclean t ht => ?_
      · show (s.remote.mapResource _).resource?.map _ = _
        rw [resource?_mapResource, Option.map_map]
        rfl
      · -- only the subscription that was answered has changed
        have hclean : sub.dirty = false := (Bool.or_eq_false_iff.1 hclean).2
        rcases mem_subscriptions.1 ht with ht | ⟨id, ht⟩
        · rcases mem_modifyIn ht with ht | ⟨u, hu, hk, rfl⟩
          · exact .inl (mem_subscriptions.2 (.inl ht))
          · exact absurd (hk.trans hkey.symm) (key_ne_of_new hn hu hmem)
        · rcases get?_modifySubscription ht with ht | ⟨u, hu, hk, rfl⟩
          · exact .inl (mem_subscriptions.2 (.inr ⟨id, ht⟩))
          · have hsame : u = sub :=
              eq_of_key hn (mem_subscriptions.2 (.inr ⟨id, hu⟩)) (List.mem_append_right _ hmem)
                (hk.trans hkey.symm)
            exact .inr (isDue_of_clean (by rw [hsame]; exact hclean))
    · exact flagged_of_dirty rfl

/-! ### Moves -/

/-- **A registered session stays marked** as long as there is something to send. -/
theorem flagged_moved {s s' : Session} (hn : s.subscriptionKeys.Nodup) (h : s.Flagged) {m : Move}
    (hs' : (s.moved m).1 = some s') : s'.Flagged := by
  cases m <;> simp only [moved] at hs'
  case watch =>
    rw [← Option.some.inj hs']
    exact h
  case change c =>
    rw [← Option.some.inj hs']
    cases hc : s.change c with
    | error e => exact h
    | ok t =>
      rcases change_cases hc with rfl | ⟨data, rfl⟩
      · exact h
      · exact flagged_of_dirty rfl
  case markDeleted =>
    rw [← Option.some.inj hs']
    exact flagged_of_dirty rfl
  case takeOver sub =>
    rw [← Option.some.inj hs']
    exact flagged_of_dirty rfl
  case letGo key =>
    split at hs'
    · rename_i sub t hdetach
      rw [← Option.some.inj hs']
      exact flagged_detach? h hdetach
    · rwa [← Option.some.inj hs']
  case withdraw key =>
    rw [← Option.some.inj hs']
    cases hr : s.removeSubscription key with
    | error e => exact h
    | ok t =>
      unfold removeSubscription at hr
      split at hr
      · simp at hr
      · rename_i sub u hdetach
        split at hr <;> rw [← Except.ok.inj hr]
        · exact flagged_of_dirty rfl
        · exact flagged_detach? h hdetach
  case modify key changes =>
    split at hs' <;> rw [← Option.some.inj hs']
    · exact h
    · exact flagged_of_dirty rfl
  case push config => exact flagged_push h hs'
  case release => simp at hs'
  case created answer =>
    split at hs' <;> rw [← Option.some.inj hs']
    · exact flagged_created s _ _ answer
    · exact h
  case refused problem =>
    split at hs' <;> rw [← Option.some.inj hs']
    · exact flagged_of_dirty rfl
    · exact h
  case timedOut =>
    split at hs'
    · simp at hs'
    · rwa [← Option.some.inj hs']
  case patched result =>
    rw [← Option.some.inj hs']
    exact flagged_patched h result
  case subscriptionCreated key result =>
    split at hs'
    · rename_i t calls hcreated
      rw [← Option.some.inj hs']
      exact flagged_subscriptionCreated? h hcreated
    · rwa [← Option.some.inj hs']
  case subscriptionUpdated key result =>
    rw [← Option.some.inj hs']
    exact flagged_subscriptionUpdated hn h key result

/-! ## 3. What a push sends -/

end Session

/-- A request about a subscription alone. -/
def Intent.isForSubscription : Intent → Bool
  | .createSubscription .. => true
  | .updateSubscription .. => true
  | .deleteSubscription _ => true
  | _ => false

namespace Session

/-- The creations of new subscriptions that have to be sent. -/
def dueCreations (config : ClientConfig) (s : Session) (r : Resource) : List Intent :=
  (s.pendingNew.filter Subscription.isDue).map fun sub =>
    .createSubscription s.key sub.key r.id
      (sub.sendCreate s.data.mbsSessionId config.notificationServers).data

/-- The change of a registered subscription, if something differs from what is acknowledged. -/
def dueChange? (e : String × Subscription) : Option Intent :=
  if e.2.isDue then
    match e.2.acked.map fun acked => Diff.values acked e.2.data with
    | some (op :: ops) => some (.updateSubscription e.2.key e.1 (op :: ops))
    | _ => none
  else none

/-- All that has to be sent about subscriptions: creations, changes in order of id, deletions. -/
def dueRequests (config : ClientConfig) (s : Session) (r : Resource) : List Intent :=
  s.dueCreations config r ++ r.active.entries.filterMap dueChange? ++
    r.pendingDelete.map fun e => .deleteSubscription e.1

theorem flatMap_pushNew (config : ClientConfig) (s : Session) (r : Resource) :
    (s.pendingNew.map (s.pushNew config r)).flatMap Prod.snd = s.dueCreations config r := by
  unfold dueCreations
  induction s.pendingNew with
  | nil => rfl
  | cons sub rest ih =>
    rw [List.map_cons, List.flatMap_cons, ih, pushNew, List.filter_cons]
    split <;> rfl

-- With an acknowledged record the change is what differs from it.
theorem snd_pushActive {id : String} {sub : Subscription} {acked : MbsSessionSubscription}
    (h : sub.acked = some acked) : (pushActive id sub).2 = (dueChange? (id, sub)).toList := by
  have hops : sub.pendingOps = Diff.values acked sub.data := by
    rw [Subscription.pendingOps, h]
    rfl
  unfold pushActive dueChange?
  rw [h, Option.map_some, hops]
  split
  · cases Diff.values acked sub.data <;> rfl
  · rfl

theorem flatMap_pushActive {entries : List (String × Subscription)}
    (h : ∀ e ∈ entries, ∃ acked, e.2.acked = some acked) :
    (entries.map fun e => pushActive e.1 e.2).flatMap Prod.snd = entries.filterMap dueChange? := by
  induction entries with
  | nil => rfl
  | cons e rest ih =>
    obtain ⟨acked, hacked⟩ := h e List.mem_cons_self
    rw [List.map_cons, List.flatMap_cons, ih fun f hf => h f (List.mem_cons_of_mem _ hf),
      snd_pushActive hacked, List.filterMap_cons]
    cases dueChange? (e.1, e.2) <;> rfl

theorem pushSubscriptions_requests {s : Session} (h : s.Tracked) {r : Resource}
    (hr : s.remote = .registered r) {p : Session × Resource × List Intent}
    (hbody : BodyPushed s r p) (config : ClientConfig) :
    (p.1.pushSubscriptions config p.2.1).2 = s.dueRequests config r := by
  have hcreations : p.1.dueCreations config p.2.1 = s.dueCreations config r := by
    simp only [dueCreations, hbody.key, hbody.data, hbody.pendingNew, hbody.id]
  have hacked : ∀ e ∈ r.active.entries, ∃ acked, e.2.acked = some acked := by
    rintro ⟨id, sub⟩ he
    rw [SortedMap.mem_entries, ← active_of_registered hr] at he
    obtain ⟨acked, hacked, -⟩ := h.active id sub he
    exact ⟨acked, hacked⟩
  have hchanges : (p.2.1.active.map pushActive).values.flatMap Prod.snd =
      r.active.entries.filterMap dueChange? := by
    rw [hbody.active, ← flatMap_pushActive hacked, SortedMap.values, SortedMap.map, List.map_map]
    rfl
  show (p.1.pendingNew.map (p.1.pushNew config p.2.1)).flatMap Prod.snd ++
    (p.2.1.active.map pushActive).values.flatMap Prod.snd ++ p.2.1.pendingDelete.map _ = _
  rw [flatMap_pushNew, hcreations, hchanges, hbody.pendingDelete]
  rfl

theorem isForSubscription_of_mem_dueRequests {config : ClientConfig} {s : Session} {r : Resource}
    {i : Intent} (hi : i ∈ s.dueRequests config r) : i.isForSubscription = true := by
  simp only [dueRequests, dueCreations, List.mem_append, or_assoc] at hi
  rcases hi with hi | hi | hi
  · obtain ⟨sub, -, rfl⟩ := List.mem_map.1 hi
    rfl
  · obtain ⟨e, -, he⟩ := List.mem_filterMap.1 hi
    unfold dueChange? at he
    split at he
    · split at he
      · rw [← Option.some.inj he]
        rfl
      · simp at he
    · simp at he
  · obtain ⟨e, -, rfl⟩ := List.mem_map.1 hi
    rfl

-- A clean session has nothing to send.
theorem dueRequests_of_clean {s : Session} (h : s.Flagged) {r : Resource}
    (hr : s.remote = .registered r) (hclean : s.dirty = false) (config : ClientConfig) :
    s.dueRequests config r = [] := by
  obtain ⟨hdue, hleaving⟩ := h r hr hclean
  have hnew : s.pendingNew.filter Subscription.isDue = [] := by
    rw [List.filter_eq_nil_iff]
    exact fun sub hsub => Bool.eq_false_iff.1 (hdue sub (mem_subscriptions.2 (.inl hsub)))
  have hactive : r.active.entries.filterMap dueChange? = [] := by
    rw [List.filterMap_eq_nil_iff]
    rintro ⟨id, sub⟩ he
    rw [SortedMap.mem_entries, ← active_of_registered hr] at he
    have hsub := hdue sub (mem_subscriptions.2 (.inr ⟨id, he⟩))
    rw [dueChange?, if_neg (Bool.eq_false_iff.1 hsub)]
  rw [dueRequests, dueCreations, hnew, hactive, hleaving]
  rfl

/-- **A push sends all that is due about subscriptions**, and nothing else about them. -/
theorem requests_push {s : Session} (htracked : s.Tracked) (hflagged : s.Flagged) {r : Resource}
    (hr : s.remote = .registered r) (hdeleted : s.deleted = false)
    (hsame : s.identityChanged = false) (config : ClientConfig) :
    (s.push config).2.filter Intent.isForSubscription = s.dueRequests config r := by
  have hpush : (s.push config).2 = if s.dirty then (s.reconcile config r).2 else [] := by
    simp only [push, hdeleted, hr, hsame, Bool.false_eq_true, if_false]
    split <;> rfl
  rw [hpush]
  split
  · obtain ⟨p, hbody, heq⟩ := reconcile_eq config s r
    have hpatches : p.2.2.filter Intent.isForSubscription = [] := by
      rw [List.filter_eq_nil_iff]
      intro i hi
      obtain ⟨ops, rfl⟩ := hbody.patches i hi
      exact Bool.false_ne_true
    rw [heq]
    simp only
    rw [List.filter_append, hpatches, List.nil_append,
      pushSubscriptions_requests htracked hr hbody, List.filter_eq_self]
    exact fun i hi => isForSubscription_of_mem_dueRequests hi
  · rename_i hclean
    exact (dueRequests_of_clean hflagged hr (Bool.eq_false_iff.2 hclean) config).symm

end Session

end MbsClient
