import MbsClient.Proofs.Session.Outstanding
import MbsClient.Proofs.Session.Stale

/-!
# Freed — what takes the mark of a request away

The mark that a request has left stays in all that a session can do, but for a few moves: the answer
that is waited for, a push that creates the session anew, and the take-over of the subscription that
the request was about (`busy_moved`).
-/

namespace MbsClient.Session

/-- The move takes in how a creation has gone. -/
def Move.AnswersCreation : Move → Prop
  | .created _ => True
  | .refused _ => True
  | .timedOut => True
  | _ => False

/-- The move frees a target of the session, given the request that was sent for it. -/
inductive Frees (s : Session) (i : Intent) : Target → Move → Prop
  | answered {m} (hm : m.AnswersCreation) (hstate : s.state = .createPending) :
      Frees s i (.creation s.key) m
  | patched {result} (hstate : s.state = .registered) (hwaits : s.patching?.isSome = true) :
      Frees s i (.patch s.key) (.patched result)
  | confirmed {k result} (hstate : s.state = .registered) (hwaits : Awaited s.pendingNew k) :
      Frees s i (.subscription k) (.subscriptionCreated k result)
  | updated {k result} (hwaits : Awaited s.active.values k) :
      Frees s i (.subscription k) (.subscriptionUpdated k result)
  /-- The subscription rode on the creation. -/
  | rode {k m} (hi : i.creates? = some s.key) (hm : m.AnswersCreation)
      (hstate : s.state = .createPending) : Frees s i (.subscription k) m
  | takenOver {sub} : Frees s i (.subscription sub.key) (.takeOver sub)
  | recreated {config} (h : s.Recreates) : Frees s i (.patch s.key) (.push config)
  | requeued {k config} (h : s.Recreates) (hk : k ∈ s.wantedKeys) :
      Frees s i (.subscription k) (.push config)

variable {s s' : Session} {i : Intent} {t : Target} {k : SubscriptionKey} {m : Move}

-- A session that waits for its creation is not created anew.
theorem Busy.not_recreated {config : ClientConfig} (h : s.Busy i t)
    (hm : ¬ s.Frees i t (.push config)) : ¬ (s.Recreates ∧ t ∈ s.targets) := by
  rintro ⟨hrecreates, ht⟩
  cases t with
  | creation key =>
    obtain ⟨body, bundled, hcreating⟩ := h (creation_mem_targets.1 ht)
    obtain ⟨-, r, hremote⟩ := registered_of_state hrecreates.1
    rw [hremote] at hcreating
    cases hcreating
  | patch key =>
    obtain rfl := patch_mem_targets.1 ht
    exact hm (.recreated hrecreates)
  | subscription k => exact hm (.requeued hrecreates (subscription_mem_targets.1 ht))

/-! ## 1. Creations and patches -/

theorem creating_of_bare {remote : Remote} {body : MbsSession}
    (h : remote.bare = .creating body none) : ∃ bundled, remote = .creating body bundled := by
  cases remote with
  | absent => cases h
  | creating body' bundled => exact ⟨bundled, by rw [(Remote.creating.inj h).1]⟩
  | registered r => cases h

theorem patching?_of_bare (h : s'.remote.bare = s.remote.bare) : s'.patching? = s.patching? := by
  have hbare : ∀ remote : Remote,
      remote.bare.resource?.bind Resource.patching = remote.resource?.bind Resource.patching := by
    intro remote
    cases remote <;> rfl
  rw [patching?, patching?, resource?, resource?, ← hbare, h, hbare]

theorem remote_change (c : SessionChange) (hs' : (s.moved (.change c)).1 = some s') :
    s'.remote = s.remote := by
  rw [← Option.some.inj hs']
  cases hc : s.change c with
  | error e => rfl
  | ok u =>
    obtain ⟨data, dirty, rfl⟩ := eq_of_change hc
    rfl

-- An answer to a creation that is not waited for leaves the session as it is.
theorem moved_of_answersCreation (hm : m.AnswersCreation) (hstate : s.state ≠ .createPending) :
    (s.moved m).1 = some s := by
  have hnone : s.waitingFor? = none := by
    cases hw : s.waitingFor? with
    | none => rfl
    | some w => exact absurd (state_of_waitingFor? hw) hstate
  cases m with
  | created answer => simp only [moved, hnone]
  | refused problem => simp only [moved, hnone]
  | timedOut => simp [moved, hnone]
  | _ => exact hm.elim

theorem busy_creation (h : s.Busy i (.creation s.key)) (hm : ¬ s.Frees i (.creation s.key) m)
    (hs' : (s.moved m).1 = some s') : s'.Busy i (.creation s.key) := by
  have hanswer : m.AnswersCreation → s'.Busy i (.creation s.key) := by
    intro hanswers
    rw [moved_of_answersCreation hanswers fun hstate => hm (.answered hanswers hstate)] at hs'
    rwa [← Option.some.inj hs']
  obtain ⟨body, bundled, hremote⟩ := h rfl
  have haside : m.Aside → s'.Busy i (.creation s.key) := by
    intro haside _
    have hbare := (sameBody_moved haside hs').remote
    rw [hremote] at hbare
    exact ⟨body, creating_of_bare hbare⟩
  cases m with
  | push config => exact busy_push h (h.not_recreated hm) hs'
  | release => cases hs'
  | change c => exact fun _ => ⟨body, bundled, (remote_change c hs').trans hremote⟩
  | markDeleted =>
    rw [← Option.some.inj hs']
    exact fun _ => ⟨body, bundled, hremote⟩
  | patched result =>
    have hself : s.patched result = (s, []) := by simp [patched, hremote]
    rw [moved, hself] at hs'
    rwa [← Option.some.inj hs']
  | created answer => exact hanswer trivial
  | refused problem => exact hanswer trivial
  | timedOut => exact hanswer trivial
  | _ => exact haside trivial

theorem busy_patch (h : s.Busy i (.patch s.key)) (hm : ¬ s.Frees i (.patch s.key) m)
    (hs' : (s.moved m).1 = some s') : s'.Busy i (.patch s.key) := by
  have hsome : s.patching?.isSome = true := h rfl
  have haside : m.Aside → s'.Busy i (.patch s.key) := by
    intro haside _
    rwa [patching?_of_bare (sameBody_moved haside hs').remote]
  -- a session with a patch has been created
  have hanswer : m.AnswersCreation → s'.Busy i (.patch s.key) := by
    intro hanswers
    have hstate : s.state ≠ .createPending := by
      intro hstate
      obtain ⟨body, bundled, hwait⟩ := waitingFor?_of_state hstate
      rw [patching?, resource?_of_waitingFor? hwait] at hsome
      cases hsome
    rw [moved_of_answersCreation hanswers hstate] at hs'
    rwa [← Option.some.inj hs']
  cases m with
  | push config => exact busy_push h (h.not_recreated hm) hs'
  | release => cases hs'
  | change c =>
    intro _
    rw [patching?, resource?, remote_change c hs']
    exact hsome
  | markDeleted =>
    rw [← Option.some.inj hs']
    exact fun _ => hsome
  | patched result =>
    have hself := patched_eq_self (fun hwaits => hm (.patched hwaits.1 hwaits.2)) result
    rw [moved, hself] at hs'
    rwa [← Option.some.inj hs']
  | created answer => exact hanswer trivial
  | refused problem => exact hanswer trivial
  | timedOut => exact hanswer trivial
  | _ => exact haside trivial

/-! ## 2. Subscriptions -/

-- A session stays busy if each of its subscriptions was there before and waits if it did.
theorem Busy.of_flight (h : s.Busy i (.subscription k)) (hkey : s'.key = s.key)
    (hflight : ∀ sub' ∈ s'.subscriptions, sub'.key = k → ∃ sub ∈ s.subscriptions, sub.key = k ∧
      (sub.isInFlight = true → sub'.isInFlight = true))
    (hrider : ∀ body, s'.remote = .creating body (some k) →
      ∃ body', s.remote = .creating body' (some k)) : s'.Busy i (.subscription k) := by
  intro sub' hsub' hk
  obtain ⟨sub, hsub, hk, hkeeps⟩ := hflight sub' hsub' hk
  obtain ⟨hin, hcreates⟩ := h sub hsub hk
  refine ⟨hkeeps hin, fun body hremote => ?_⟩
  obtain ⟨body', hremote⟩ := hrider body hremote
  rw [hkey, hcreates body' hremote]

theorem Busy.of_subset (h : s.Busy i (.subscription k)) (hkey : s'.key = s.key)
    (hsubset : ∀ sub ∈ s'.subscriptions, sub ∈ s.subscriptions)
    (hrider : ∀ body, s'.remote = .creating body (some k) →
      ∃ body', s.remote = .creating body' (some k)) : s'.Busy i (.subscription k) :=
  h.of_flight hkey (fun sub hsub hk => ⟨sub, hsubset sub hsub, hk, id⟩) hrider

theorem flight_modifyIn {key : SubscriptionKey} {f : Subscription → Subscription}
    {subs : List Subscription} (hkey : ∀ sub, (f sub).key = sub.key)
    (hflight : key = k → ∀ sub ∈ subs, sub.key = k → sub.isInFlight = true →
      (f sub).isInFlight = true) {sub' : Subscription} (h : sub' ∈ modifyIn key f subs)
    (hk : sub'.key = k) : ∃ sub ∈ subs, sub.key = k ∧
      (sub.isInFlight = true → sub'.isInFlight = true) := by
  rcases mem_modifyIn h with h | ⟨sub, hsub, hsame, rfl⟩
  · exact ⟨sub', h, hk, id⟩
  · rw [hkey] at hk
    exact ⟨sub, hsub, hk, hflight (hsame.symm.trans hk) sub hsub hk⟩

theorem subscriptions_modifySubscription (s : Session) (key : SubscriptionKey)
    (f : Subscription → Subscription) :
    (s.modifySubscription key f).subscriptions = modifyIn key f s.subscriptions := by
  rw [subscriptions, values_modifySubscription]
  exact List.map_append.symm

theorem busy_modifySubscription (h : s.Busy i (.subscription k)) {key : SubscriptionKey}
    {f : Subscription → Subscription} (hkey : ∀ sub, (f sub).key = sub.key)
    (hflight : key = k → ∀ sub ∈ s.subscriptions, sub.key = k → sub.isInFlight = true →
      (f sub).isInFlight = true) :
    (s.modifySubscription key f).Busy i (.subscription k) := by
  refine h.of_flight rfl (fun sub' hsub' hk => ?_) fun body hremote => ?_
  · rw [subscriptions_modifySubscription] at hsub'
    exact flight_modifyIn hkey hflight hsub' hk
  · exact ⟨body, not_creating_mapResource hremote⟩

theorem busy_detach? (h : s.Busy i (.subscription k)) {key : SubscriptionKey} {sub : Subscription}
    (hd : s.detach? key = some (sub, s')) : s'.Busy i (.subscription k) := by
  obtain ⟨hnew, hactive, -⟩ := kept_detach? hd
  refine h.of_subset (key_of_detach? hd) (fun u hu => ?_) fun body hremote => ?_
  · rcases mem_subscriptions.1 hu with hu | ⟨id, hu⟩
    · exact mem_subscriptions.2 (.inl (hnew u hu))
    · exact mem_subscriptions.2 (.inr ⟨id, hactive id u hu⟩)
  · unfold detach? at hd
    split at hd
    · obtain ⟨-, rfl⟩ := Prod.mk.inj (Option.some.inj hd)
      cases hr : s.remote with
      | absent => simp [hr, Remote.unbundle] at hremote
      | registered r => simp [hr, Remote.unbundle] at hremote
      | creating body' bundled =>
        simp only [hr, Remote.unbundle, Remote.creating.injEq, Option.filter_eq_some_iff] at hremote
        exact ⟨body', by rw [hremote.2.1]⟩
    · obtain ⟨e, -, he⟩ := Option.map_eq_some_iff.1 hd
      obtain ⟨-, rfl⟩ := Prod.mk.inj he
      exact ⟨body, not_creating_mapResource hremote⟩

theorem busy_removeSubscription (h : s.Busy i (.subscription k)) {key : SubscriptionKey}
    (hr : s.removeSubscription key = .ok s') : s'.Busy i (.subscription k) := by
  unfold removeSubscription at hr
  split at hr
  · cases hr
  · rename_i sub u hdetach
    have hu := busy_detach? h hdetach
    split at hr
    · rw [← Except.ok.inj hr]
      refine hu.of_subset rfl (fun v hv => ?_) fun body hremote =>
        ⟨body, not_creating_mapResource hremote⟩
      rw [subscriptions, active_eq, resource?, resource?_mapResource, Option.map_map] at hv
      rwa [subscriptions, active_eq]
    · rwa [← Except.ok.inj hr]

/-! ### Answers -/

-- The subscription that rides on a creation rode on the request that was sent for it.
theorem creates?_of_rider (h : s.Busy i (.subscription k)) {body : MbsSession}
    (hremote : s.remote = .creating body (some k)) {sub : Subscription} (hsub : sub ∈ s.pendingNew)
    (hk : sub.key = k) : i.creates? = some s.key :=
  (h sub (List.mem_append_left _ hsub) hk).2 body hremote

theorem busy_created (h : s.Busy i (.subscription k)) (hm : i.creates? ≠ some s.key)
    {body : MbsSession} {bundled : Option SubscriptionKey}
    (hwait : s.waitingFor? = some (body, bundled)) (answer : SessionCreated) :
    (s.created body bundled answer).1.Busy i (.subscription k) := by
  obtain ⟨-, hremote⟩ := remote_of_waitingFor? hwait
  -- the rider is another one
  have hrider : ∀ sub, s.rider? bundled = some sub → sub.key ≠ k := by
    intro sub hsub hk
    obtain ⟨key, hkey, hfound⟩ := Option.bind_eq_some_iff.1 hsub
    have hsame : sub.key = key := by simpa using List.find?_some hfound
    rw [Option.mem_def.1 hkey, ← hsame, hk] at hremote
    exact hm (creates?_of_rider h hremote (List.mem_of_find?_eq_some hfound) hk)
  have hregistered : ∀ r body', (s.created body bundled answer).1.remote = .registered r →
      (s.created body bundled answer).1.remote = .creating body' (some k) →
      ∃ body'', s.remote = .creating body'' (some k) := by
    intro r body' hr hcreating
    rw [hr] at hcreating
    cases hcreating
  rcases created_cases s body bundled answer with
    ⟨sub, id, r, hsub, -, hnew, hr, -, hactive, -⟩ | ⟨r, hnew, hr, -, hactive, -⟩
  · refine h.of_flight rfl (fun u hu hk => ?_) fun body' => hregistered r body' hr
    rcases mem_subscriptions.1 hu with hu | ⟨id', hu⟩
    · rw [hnew] at hu
      exact ⟨u, List.mem_append_left _ (List.mem_of_mem_filter hu), hk, fun hin => hin⟩
    · rw [active_of_registered hr, hactive] at hu
      by_cases hid : id' = id
      · rw [hid, SortedMap.get?_insert_self] at hu
        rw [← Option.some.inj hu] at hk
        exact absurd hk (hrider sub hsub)
      · rw [SortedMap.get?_insert_of_ne _ hid] at hu
        cases hu
  · refine h.of_flight rfl (fun u hu hk => ?_) fun body' => hregistered r body' hr
    rcases mem_subscriptions.1 hu with hu | ⟨id', hu⟩
    · rcases hnew with ⟨-, hnew⟩ | ⟨sub, hsub, -, hnew⟩
      · rw [hnew] at hu
        exact ⟨u, List.mem_append_left _ hu, hk, fun hin => hin⟩
      · rw [hnew] at hu
        obtain ⟨v, hv, hrest⟩ := flight_modifyIn (f := Subscription.fail) (fun _ => rfl)
          (fun hsame => absurd hsame (hrider sub hsub)) hu hk
        exact ⟨v, List.mem_append_left _ hv, hrest⟩
    · rw [active_of_registered hr, hactive] at hu
      cases hu

theorem busy_refused (h : s.Busy i (.subscription k)) (hm : i.creates? ≠ some s.key)
    {body : MbsSession} {bundled : Option SubscriptionKey}
    (hwait : s.waitingFor? = some (body, bundled)) (problem : ProblemDetails) :
    (s.refused bundled problem).1.Busy i (.subscription k) := by
  obtain ⟨-, hremote⟩ := remote_of_waitingFor? hwait
  refine h.of_flight rfl (fun u hu hk => ?_) fun body' hcreating => nomatch hcreating
  have hu : u ∈ failBundled bundled s.pendingNew := by
    rcases mem_subscriptions.1 hu with hu | ⟨id, hu⟩
    · exact hu
    · cases hu
  cases bundled with
  | none => exact ⟨u, List.mem_append_left _ hu, hk, id⟩
  | some key =>
    obtain ⟨v, hv, hrest⟩ := flight_modifyIn (f := Subscription.fail) (fun _ => rfl)
      (fun hsame sub hsub hk => absurd (creates?_of_rider h (hsame ▸ hremote) hsub hk) hm) hu hk
    exact ⟨v, List.mem_append_left _ hv, hrest⟩

theorem busy_patched (h : s.Busy i (.subscription k)) (result : OperationResult) :
    (s.patched result).1.Busy i (.subscription k) := by
  unfold patched
  split
  · rename_i r _ hr
    split
    · refine h.of_subset rfl (fun u hu => ?_) fun body hremote => nomatch hremote
      rwa [subscriptions, active_of_registered hr]
    · exact h
  · exact h

theorem busy_subscriptionCreated? (h : s.Busy i (.subscription k)) {key : SubscriptionKey}
    (hne : key ≠ k) {result : Except OperationResult SubscriptionAck} {calls : List Call}
    (hc : s.subscriptionCreated? key result = some (s', calls)) : s'.Busy i (.subscription k) := by
  unfold subscriptionCreated? at hc
  split at hc
  · rename_i r _ hr
    split at hc
    · cases hc
    · rename_i sub hfound
      have hsub : sub.key = key := by
        have hboth := List.find?_some hfound
        simp only [Bool.and_eq_true, decide_eq_true_eq] at hboth
        exact hboth.1
      split at hc
      · rename_i ack
        obtain ⟨rfl, -⟩ := Prod.mk.inj (Option.some.inj hc)
        refine h.of_flight rfl (fun u hu hk => ?_) fun body hremote => nomatch hremote
        rcases mem_subscriptions.1 hu with hu | ⟨id, hu⟩
        · exact ⟨u, List.mem_append_left _ (List.mem_of_mem_filter hu), hk, fun hin => hin⟩
        · have hu : (r.active.insert ack.id (sub.confirmCreate ack.id ack.expiryTime)).get? id =
              some u := hu
          by_cases hid : id = ack.id
          · rw [hid, SortedMap.get?_insert_self] at hu
            rw [← Option.some.inj hu] at hk
            exact absurd (hsub.symm.trans hk) hne
          · rw [SortedMap.get?_insert_of_ne _ hid, ← active_of_registered hr] at hu
            exact ⟨u, mem_subscriptions.2 (.inr ⟨id, hu⟩), hk, fun hin => hin⟩
      · obtain ⟨rfl, -⟩ := Prod.mk.inj (Option.some.inj hc)
        refine h.of_flight rfl (fun u hu hk => ?_) fun body hremote => ⟨body, hremote⟩
        rcases mem_subscriptions.1 hu with hu | ⟨id, hu⟩
        · obtain ⟨v, hv, hrest⟩ := flight_modifyIn (f := Subscription.fail) (fun _ => rfl)
            (fun hsame => absurd hsame hne) hu hk
          exact ⟨v, List.mem_append_left _ hv, hrest⟩
        · exact ⟨u, mem_subscriptions.2 (.inr ⟨id, hu⟩), hk, fun hin => hin⟩
  · cases hc

theorem busy_subscriptionUpdated (h : s.Busy i (.subscription k)) {key : SubscriptionKey}
    (hne : key ≠ k) (result : Except OperationResult SubscriptionAck) :
    (s.subscriptionUpdated key result).1.Busy i (.subscription k) := by
  unfold subscriptionUpdated
  split
  · exact h
  · split
    · exact busy_modifySubscription h (fun _ => rfl) fun hsame => absurd hsame hne
    · exact busy_modifySubscription h (fun _ => rfl) fun hsame => absurd hsame hne

/-! ## 3. Moves -/

theorem busy_subscription (h : s.Busy i (.subscription k)) (hm : ¬ s.Frees i (.subscription k) m)
    (hs' : (s.moved m).1 = some s') : s'.Busy i (.subscription k) := by
  cases m <;> simp only [moved] at hs'
  case watch =>
    rw [← Option.some.inj hs']
    exact h
  case change c =>
    rw [← Option.some.inj hs']
    cases hc : s.change c with
    | error e => exact h
    | ok u =>
      obtain ⟨data, dirty, rfl⟩ := eq_of_change hc
      exact h
  case markDeleted =>
    rw [← Option.some.inj hs']
    exact h
  case takeOver sub =>
    rw [← Option.some.inj hs']
    refine h.of_flight rfl (fun u hu hk => ?_) fun body hremote => ⟨body, hremote⟩
    rcases mem_subscriptions.1 hu with hu | ⟨id, hu⟩
    · rcases List.mem_append.1 hu with hu | hu
      · exact ⟨u, List.mem_append_left _ hu, hk, id⟩
      · rw [List.mem_singleton.1 hu] at hk
        have hk : sub.key = k := hk
        exact absurd (hk ▸ .takenOver) hm
    · exact ⟨u, mem_subscriptions.2 (.inr ⟨id, hu⟩), hk, fun hin => hin⟩
  case letGo key =>
    split at hs'
    · rename_i sub u hdetach
      rw [← Option.some.inj hs']
      exact busy_detach? h hdetach
    · rwa [← Option.some.inj hs']
  case withdraw key =>
    rw [← Option.some.inj hs']
    cases hr : s.removeSubscription key with
    | error e => exact h
    | ok u => exact busy_removeSubscription h hr
  case modify key changes =>
    split at hs' <;> rw [← Option.some.inj hs']
    · exact h
    · refine busy_modifySubscription (f := Subscription.changed changes) h
        (fun sub => foldl_change_key changes sub) fun _ sub _ _ hin => ?_
      rw [Subscription.isInFlight] at hin ⊢
      exact (foldl_change_inFlight changes sub).symm ▸ hin
  case push config => exact busy_push h (h.not_recreated hm) hs'
  case release => cases hs'
  case created answer =>
    split at hs' <;> rw [← Option.some.inj hs']
    · rename_i body bundled hwait
      exact busy_created h (fun hi => hm (.rode hi trivial (state_of_waitingFor? hwait))) hwait
        answer
    · exact h
  case refused problem =>
    split at hs' <;> rw [← Option.some.inj hs']
    · rename_i body bundled hwait
      exact busy_refused h (fun hi => hm (.rode hi trivial (state_of_waitingFor? hwait))) hwait
        problem
    · exact h
  case timedOut =>
    split at hs'
    · cases hs'
    · rwa [← Option.some.inj hs']
  case patched result =>
    rw [← Option.some.inj hs']
    exact busy_patched h result
  case subscriptionCreated key result =>
    split at hs'
    · rename_i u calls hcreated
      rw [← Option.some.inj hs']
      refine busy_subscriptionCreated? h (fun hkey => ?_) hcreated
      subst hkey
      by_cases hwaits : s.state = .registered ∧ Awaited s.pendingNew key
      · exact hm (.confirmed hwaits.1 hwaits.2)
      · rw [(subscriptionCreated?_eq_none_iff s key result).2 hwaits] at hcreated
        cases hcreated
    · rwa [← Option.some.inj hs']
  case subscriptionUpdated key result =>
    rw [← Option.some.inj hs']
    by_cases hwaits : Awaited s.active.values key
    · refine busy_subscriptionUpdated h (fun hkey => ?_) result
      subst hkey
      exact hm (.updated hwaits)
    · rw [subscriptionUpdated_eq_self hwaits result]
      exact h

/-- **The mark of a request stays** until the target is freed. -/
theorem busy_moved (h : s.Busy i t) (hm : ¬ s.Frees i t m) (hs' : (s.moved m).1 = some s') :
    s'.Busy i t := by
  have hkey := key_of_moved hs'
  cases t with
  | creation key =>
    by_cases hown : s.key = key
    · subst hown
      exact busy_creation h hm hs'
    · exact fun hsame => absurd (hkey.symm.trans hsame) hown
  | patch key =>
    by_cases hown : s.key = key
    · subst hown
      exact busy_patch h hm hs'
    · exact fun hsame => absurd (hkey.symm.trans hsame) hown
  | subscription k => exact busy_subscription h hm hs'

end MbsClient.Session
