import MbsClient.Session.Answered

/-!
# Moves — what can happen to one session

Whatever the application or the transport does to a context comes down to moves of single sessions.
A move that does not apply to a session leaves it as it is.
-/

namespace MbsClient.Session

inductive Move where
  | watch
  | change (c : SessionChange)
  | markDeleted
  /-- A subscription comes in, and what the MB-SMF knew of it is forgotten. -/
  | takeOver (sub : Subscription)
  /-- A subscription goes to another session. -/
  | letGo (key : SubscriptionKey)
  /-- A subscription is withdrawn. -/
  | withdraw (key : SubscriptionKey)
  | modify (key : SubscriptionKey) (changes : List SubscriptionChange)
  | push (config : ClientConfig)
  /-- The context closes. -/
  | release
  | created (answer : SessionCreated)
  | refused (problem : ProblemDetails)
  | timedOut
  | patched (result : OperationResult)
  | subscriptionCreated (key : SubscriptionKey) (result : Except OperationResult SubscriptionAck)
  | subscriptionUpdated (key : SubscriptionKey) (result : Except OperationResult SubscriptionAck)

/-- The session after a move, unless it is gone, and the requests to send. -/
def moved (s : Session) : Move → Option Session × List Intent
  | .watch => (some { s with watchesResults := true }, [])
  | .change c => (some ((s.change c).toOption.getD s), [])
  | .markDeleted => (some s.markDeleted, [])
  | .takeOver sub => (some (s.attach sub.forgetRemote), [])
  | .letGo key =>
      match s.detach? key with
      | some (sub, s) => (some s, sub.id.toList.map .deleteSubscription)
      | none => (some s, [])
  | .withdraw key => (some ((s.removeSubscription key).toOption.getD s), [])
  | .modify key changes =>
      if (s.subscription? key).isNone then (some s, [])
      else
        let s := s.modifySubscription key fun sub =>
          { changes.foldl Subscription.change sub with dirty := true }
        (some { s with dirty := true }, [])
  | .push config => s.push config
  | .release => (none, s.release)
  | .created answer =>
      match s.waitingFor? with
      | some (body, bundled) => (some (s.created body bundled answer).1, [])
      | none => (some s, [])
  | .refused problem =>
      match s.waitingFor? with
      | some (_, bundled) => (some (s.refused bundled problem).1, [])
      | none => (some s, [])
  | .timedOut => if s.waitingFor?.isSome then (none, []) else (some s, [])
  | .patched result => (some (s.patched result).1, [])
  | .subscriptionCreated key result =>
      match s.subscriptionCreated? key result with
      | some (s, _) => (some s, [])
      | none => (some s, [])
  | .subscriptionUpdated key result => (some (s.subscriptionUpdated key result).1, [])

/-- A move that sends nothing. -/
def Move.Silent : Move → Prop
  | .letGo _ => False
  | .push _ => False
  | .release => False
  | _ => True

theorem Move.silent_or (m : Move) :
    m.Silent ∨ (∃ key, m = .letGo key) ∨ (∃ config, m = .push config) ∨ m = .release := by
  cases m with
  | letGo key => exact .inr (.inl ⟨key, rfl⟩)
  | push config => exact .inr (.inr (.inl ⟨config, rfl⟩))
  | release => exact .inr (.inr (.inr rfl))
  | _ => exact .inl trivial

theorem moved_of_silent (s : Session) {m : Move} (hm : m.Silent) : (s.moved m).2 = [] := by
  cases m <;> simp only [moved]
  case letGo key => exact hm.elim
  case push config => exact hm.elim
  case release => exact hm.elim
  case modify key changes => split <;> rfl
  case created answer => split <;> rfl
  case refused problem => split <;> rfl
  case timedOut => split <;> rfl
  case subscriptionCreated key result => split <;> rfl

theorem release_eq (s : Session) : s.release = s.resourceId?.toList.map (.removeResource s.key) := by
  cases hr : s.remote <;> simp [release, resourceId?, resource?, hr, Remote.resource?]

/-- What a move can send. -/
inductive Sends (s : Session) : Move → Intent → Prop
  | letGo (key : SubscriptionKey) (id : String) : Sends s (.letGo key) (.deleteSubscription id)
  | pushed {config : ClientConfig} {i : Intent} (hi : i ∈ (s.push config).2) :
      Sends s (.push config) i
  | released {id : String} (hid : s.resourceId? = some id) :
      Sends s .release (.removeResource s.key id)

theorem exists_of_mem_release {s : Session} {i : Intent} (hi : i ∈ s.release) :
    ∃ id, s.resourceId? = some id ∧ i = .removeResource s.key id := by
  rw [release_eq] at hi
  obtain ⟨id, hid, rfl⟩ := List.mem_map.1 hi
  exact ⟨id, Option.mem_toList.1 hid, rfl⟩

theorem sends_of_mem {s : Session} {m : Move} {i : Intent} (hi : i ∈ (s.moved m).2) :
    s.Sends m i := by
  rcases m.silent_or with hsilent | ⟨key, rfl⟩ | ⟨config, rfl⟩ | rfl
  · rw [moved_of_silent s hsilent] at hi
    cases hi
  · simp only [moved] at hi
    split at hi
    · obtain ⟨id, -, rfl⟩ := List.mem_map.1 hi
      exact .letGo key id
    · cases hi
  · exact .pushed hi
  · obtain ⟨id, hid, rfl⟩ := exists_of_mem_release hi
    exact .released hid

-- What no change of a subscription alters, no sequence of changes alters.
theorem foldl_change {α : Type} {f : Subscription → α}
    (hf : ∀ sub c, f (Subscription.change sub c) = f sub) (changes : List SubscriptionChange)
    (sub : Subscription) : f (changes.foldl Subscription.change sub) = f sub := by
  induction changes generalizing sub with
  | nil => rfl
  | cons c changes ih => rw [List.foldl_cons, ih, hf]

/-! ## A session keeps its key -/

-- A change gives the session another record and makes it dirty, or leaves it as it is.
theorem change_cases {s s' : Session} {c : SessionChange} (h : s.change c = .ok s') :
    s' = s ∨ ∃ data, s' = { s with data, dirty := true } := by
  unfold change at h
  split at h
  · exact .inl (Except.ok.inj h).symm
  · cases hc : s.data.change c with
    | error fault =>
      rw [hc] at h
      cases h
    | ok data =>
      rw [hc] at h
      exact .inr ⟨data, (Except.ok.inj h).symm⟩

theorem eq_of_change {s s' : Session} {c : SessionChange} (h : s.change c = .ok s') :
    ∃ data dirty, s' = { s with data, dirty } := by
  rcases change_cases h with rfl | ⟨data, rfl⟩
  · exact ⟨s'.data, s'.dirty, rfl⟩
  · exact ⟨data, true, rfl⟩

theorem key_of_change {s s' : Session} {c : SessionChange} (h : s.change c = .ok s') :
    s'.key = s.key := by
  obtain ⟨data, dirty, rfl⟩ := eq_of_change h
  rfl

theorem key_of_detach? {s s' : Session} {key : SubscriptionKey} {sub : Subscription}
    (h : s.detach? key = some (sub, s')) : s'.key = s.key := by
  unfold detach? at h
  split at h
  · obtain ⟨-, rfl⟩ := Prod.mk.inj (Option.some.inj h)
    rfl
  · obtain ⟨e, -, he⟩ := Option.map_eq_some_iff.1 h
    obtain ⟨-, rfl⟩ := Prod.mk.inj he
    rfl

theorem key_of_removeSubscription {s s' : Session} {key : SubscriptionKey}
    (h : s.removeSubscription key = .ok s') : s'.key = s.key := by
  unfold removeSubscription at h
  split at h
  · simp at h
  · rename_i sub t hdetach
    have ht := key_of_detach? hdetach
    split at h
    · rw [← Except.ok.inj h]
      exact ht
    · rw [← Except.ok.inj h]
      exact ht

theorem create_key (config : ClientConfig) (s : Session) : (s.create config).1.key = s.key := rfl

/-- What is left of a session and its resource when the body has been looked after. -/
structure BodyPushed (s : Session) (r : Resource) (p : Session × Resource × List Intent) :
    Prop where
  key : p.1.key = s.key
  data : p.1.data = s.data
  pendingNew : p.1.pendingNew = s.pendingNew
  id : p.2.1.id = r.id
  active : p.2.1.active = r.active
  pendingDelete : p.2.1.pendingDelete = r.pendingDelete
  patches : ∀ i ∈ p.2.2, ∃ ops, i = .patchResource s.key r.id ops

theorem bodyPushed_pushBody (s : Session) (r : Resource) : BodyPushed s r (s.pushBody r) := by
  unfold pushBody
  split
  · exact ⟨rfl, rfl, rfl, rfl, rfl, rfl, by simp⟩
  · split
    · exact ⟨rfl, rfl, rfl, rfl, rfl, rfl, by simp⟩
    · refine ⟨rfl, rfl, rfl, rfl, rfl, rfl, fun i hi => ?_⟩
      exact ⟨_, List.mem_singleton.1 hi⟩

/-- What a push can ask about the subscriptions of a resource. -/
inductive SubscriptionRequest (config : ClientConfig) (s : Session) (r : Resource) : Intent → Prop
  | created {sub : Subscription} (h : sub ∈ s.pendingNew) : SubscriptionRequest config s r
      (.createSubscription s.key sub.key r.id
        (sub.sendCreate s.data.mbsSessionId config.notificationServers).data)
  | changed (key : SubscriptionKey) (id : String) (ops : List Patch.Operation) :
      SubscriptionRequest config s r (.updateSubscription key id ops)
  | deleted (id : String) : SubscriptionRequest config s r (.deleteSubscription id)

theorem subscriptionRequest_of_mem {config : ClientConfig} {s : Session} {r : Resource} {i : Intent}
    (hi : i ∈ (s.pushSubscriptions config r).2) : SubscriptionRequest config s r i := by
  simp only [pushSubscriptions, List.mem_append, or_assoc] at hi
  rcases hi with hnew | hactive | hleaving
  · obtain ⟨p, hp, hip⟩ := List.mem_flatMap.1 hnew
    obtain ⟨sub, hsub, rfl⟩ := List.mem_map.1 hp
    unfold pushNew at hip
    split at hip
    · rw [List.mem_singleton.1 hip]
      exact .created hsub
    · cases hip
  · obtain ⟨p, hp, hip⟩ := List.mem_flatMap.1 hactive
    simp only [SortedMap.values, SortedMap.map, List.map_map, List.mem_map] at hp
    obtain ⟨e, -, rfl⟩ := hp
    simp only [Function.comp_apply, pushActive] at hip
    split at hip
    · split at hip
      · cases hip
      · rw [List.mem_singleton.1 hip]
        exact .changed _ _ _
    · cases hip
  · obtain ⟨e, -, rfl⟩ := List.mem_map.1 hleaving
    exact .deleted e.1

-- A reconciliation looks after the body, then after the subscriptions.
theorem reconcile_eq (config : ClientConfig) (s : Session) (r : Resource) :
    ∃ p, BodyPushed s r p ∧ s.reconcile config r =
      ((p.1.pushSubscriptions config p.2.1).1,
        p.2.2 ++ (p.1.pushSubscriptions config p.2.1).2) := by
  refine ⟨if config.sessionBodyPatch then pushBody { s with dirty := false } r
    else ({ s with dirty := false }, r, []), ?_, rfl⟩
  split
  · have hpushed := bodyPushed_pushBody { s with dirty := false } r
    exact ⟨hpushed.key, hpushed.data, hpushed.pendingNew, hpushed.id, hpushed.active,
      hpushed.pendingDelete, hpushed.patches⟩
  · exact ⟨rfl, rfl, rfl, rfl, rfl, rfl, by simp⟩

theorem reconcile_key (config : ClientConfig) (s : Session) (r : Resource) :
    (s.reconcile config r).1.key = s.key := by
  obtain ⟨p, hbody, heq⟩ := reconcile_eq config s r
  rw [heq]
  exact hbody.key

/-- What a push can come to. -/
inductive Pushes (config : ClientConfig) (s : Session) : Option Session × List Intent → Prop
  | removed (hdeleted : s.deleted = true) : Pushes config s (none, s.release)
  | created (hkept : s.deleted = false) (hremote : s.remote = .absent) (hdirty : s.dirty = true) :
      Pushes config s (some (s.create config).1, [(s.create config).2])
  | recreated {r : Resource} (hkept : s.deleted = false) (hremote : s.remote = .registered r)
      (hchanged : s.identityChanged = true) :
      Pushes config s
        (some (s.requeue.create config).1, s.release ++ [(s.requeue.create config).2])
  | reconciled {r : Resource} (hkept : s.deleted = false) (hremote : s.remote = .registered r)
      (hsame : s.identityChanged = false) (hdirty : s.dirty = true) :
      Pushes config s (some (s.reconcile config r).1, (s.reconcile config r).2)
  | idle : Pushes config s (some s, [])

theorem pushes (config : ClientConfig) (s : Session) : Pushes config s (s.push config) := by
  unfold push
  split
  · rename_i hdeleted
    exact .removed hdeleted
  · rename_i hkept
    have hkept := Bool.eq_false_iff.2 hkept
    split
    · rename_i hremote
      split
      · rename_i hdirty
        exact .created hkept hremote hdirty
      · exact .idle
    · exact .idle
    · rename_i r hremote
      split
      · rename_i hchanged
        exact .recreated hkept hremote hchanged
      · rename_i hsame
        split
        · rename_i hdirty
          exact .reconciled hkept hremote (Bool.eq_false_iff.2 hsame) hdirty
        · exact .idle

theorem key_of_push {s s' : Session} {config : ClientConfig} (h : (s.push config).1 = some s') :
    s'.key = s.key := by
  have hpushes := s.pushes config
  generalize s.push config = q at hpushes h
  cases hpushes with
  | removed => cases h
  | created => rw [← Option.some.inj h, create_key]
  | recreated =>
    rw [← Option.some.inj h, create_key]
    rfl
  | reconciled => rw [← Option.some.inj h, reconcile_key]
  | idle => rw [← Option.some.inj h]

theorem created_key (s : Session) (body : MbsSession) (bundled : Option SubscriptionKey)
    (answer : SessionCreated) : (s.created body bundled answer).1.key = s.key := rfl

theorem patched_key (s : Session) (result : OperationResult) :
    (s.patched result).1.key = s.key := by
  unfold patched
  split
  · split <;> rfl
  · rfl

theorem key_of_subscriptionCreated? {s s' : Session} {key : SubscriptionKey}
    {result : Except OperationResult SubscriptionAck} {calls : List Call}
    (h : s.subscriptionCreated? key result = some (s', calls)) : s'.key = s.key := by
  unfold subscriptionCreated? at h
  split at h
  · split at h
    · simp at h
    · split at h
      · obtain ⟨rfl, -⟩ := Prod.mk.inj (Option.some.inj h)
        rfl
      · obtain ⟨rfl, -⟩ := Prod.mk.inj (Option.some.inj h)
        rfl
  · simp at h

theorem subscriptionUpdated_key (s : Session) (key : SubscriptionKey)
    (result : Except OperationResult SubscriptionAck) :
    (s.subscriptionUpdated key result).1.key = s.key := by
  unfold subscriptionUpdated
  split
  · rfl
  · split <;> rfl

theorem key_of_moved {s s' : Session} {m : Move} (h : (s.moved m).1 = some s') :
    s'.key = s.key := by
  cases m <;> simp only [moved] at h
  case watch => rw [← Option.some.inj h]
  case change c =>
    rw [← Option.some.inj h]
    cases hc : s.change c with
    | error e => rfl
    | ok t => exact key_of_change hc
  case markDeleted => rw [← Option.some.inj h]; rfl
  case takeOver sub => rw [← Option.some.inj h]; rfl
  case letGo key =>
    split at h
    · rename_i sub t hdetach
      rw [← Option.some.inj h]
      exact key_of_detach? hdetach
    · rw [← Option.some.inj h]
  case withdraw key =>
    rw [← Option.some.inj h]
    cases hr : s.removeSubscription key with
    | error e => rfl
    | ok t => exact key_of_removeSubscription hr
  case modify key changes =>
    split at h <;> rw [← Option.some.inj h]
    rfl
  case push config => exact key_of_push h
  case release => simp at h
  case created answer =>
    split at h <;> rw [← Option.some.inj h]
    rw [created_key]
  case refused problem =>
    split at h <;> rw [← Option.some.inj h]
    rfl
  case timedOut =>
    split at h
    · simp at h
    · rw [← Option.some.inj h]
  case patched result => rw [← Option.some.inj h, patched_key]
  case subscriptionCreated key result =>
    split at h
    · rename_i t calls hcreated
      rw [← Option.some.inj h]
      exact key_of_subscriptionCreated? hcreated
    · rw [← Option.some.inj h]
  case subscriptionUpdated key result => rw [← Option.some.inj h, subscriptionUpdated_key]

/-! ## States -/

theorem registered_of_state {s : Session} (h : s.state = .registered) :
    s.deleted = false ∧ ∃ r, s.remote = .registered r := by
  unfold state at h
  split at h
  · simp at h
  · rename_i hdeleted
    refine ⟨Bool.eq_false_iff.2 hdeleted, ?_⟩
    cases hr : s.remote with
    | absent => simp [hr] at h
    | creating body bundled => simp [hr] at h
    | registered r => exact ⟨r, rfl⟩

-- A session that waits for its creation is not deleted and has no resource.
theorem remote_of_waitingFor? {s : Session} {body : MbsSession} {bundled : Option SubscriptionKey}
    (h : s.waitingFor? = some (body, bundled)) :
    s.deleted = false ∧ s.remote = .creating body bundled := by
  unfold waitingFor? at h
  split at h
  · rename_i hdeleted hremote
    obtain ⟨rfl, rfl⟩ := Prod.mk.inj (Option.some.inj h)
    exact ⟨hdeleted, hremote⟩
  · simp at h

theorem waitingFor?_of_state {s : Session} (h : s.state = .createPending) :
    ∃ body bundled, s.waitingFor? = some (body, bundled) := by
  unfold state at h
  split at h
  · simp at h
  · rename_i hdeleted
    cases hr : s.remote with
    | absent => simp [hr] at h
    | creating body bundled =>
      exact ⟨body, bundled, by simp [waitingFor?, hr, Bool.eq_false_iff.2 hdeleted]⟩
    | registered r => simp [hr] at h

theorem resource?_of_waitingFor? {s : Session} {w : MbsSession × Option SubscriptionKey}
    (h : s.waitingFor? = some w) : s.resource? = none := by
  rw [resource?, (remote_of_waitingFor? h).2]
  rfl

/-! ## What a successful creation makes of a session -/

/-- The new subscription that rode on a creation, if the session still has it. -/
def rider? (s : Session) (bundled : Option SubscriptionKey) : Option Subscription :=
  bundled.bind fun key => s.pendingNew.find? fun sub => sub.key = key

-- The resource is there. It has the rider under the id that the answer names, if both are there;
-- else it has no subscription, and a rider without an id has failed.
theorem created_cases (s : Session) (body : MbsSession) (bundled : Option SubscriptionKey)
    (answer : SessionCreated) :
    (∃ sub id r, s.rider? bundled = some sub ∧ answer.subscriptionId = some id ∧
      (s.created body bundled answer).1.pendingNew =
        s.pendingNew.filter (fun other => other.key != sub.key) ∧
      (s.created body bundled answer).1.remote = .registered r ∧ r.id = answer.resourceId ∧
      r.active = SortedMap.empty.insert id (sub.confirmCreate id none) ∧ r.pendingDelete = []) ∨
    ∃ r, ((s.rider? bundled = none ∧
          (s.created body bundled answer).1.pendingNew = s.pendingNew) ∨
        ∃ sub, s.rider? bundled = some sub ∧ answer.subscriptionId = none ∧
          (s.created body bundled answer).1.pendingNew =
            modifyIn sub.key Subscription.fail s.pendingNew) ∧
      (s.created body bundled answer).1.remote = .registered r ∧ r.id = answer.resourceId ∧
      r.active = .empty ∧ r.pendingDelete = [] := by
  cases hsub : s.rider? bundled with
  | none =>
    unfold rider? at hsub
    refine .inr ⟨_, .inl ⟨rfl, ?_⟩, rfl, rfl, ?_, rfl⟩
    · simp only [created]
      rw [hsub]
    · rw [hsub]
  | some sub =>
    unfold rider? at hsub
    cases hid : answer.subscriptionId with
    | none =>
      refine .inr ⟨_, .inr ⟨sub, rfl, rfl, ?_⟩, rfl, rfl, ?_, rfl⟩
      · simp only [created]
        rw [hsub, hid]
      · rw [hsub, hid]
    | some id =>
      refine .inl ⟨sub, id, _, rfl, rfl, ?_, rfl, rfl, ?_, rfl⟩
      · simp only [created]
        rw [hsub, hid]
        rfl
      · rw [hsub, hid]
        rfl

/-! ## What a successful creation of a subscription makes of a session -/

-- Only a new subscription that waits is taken in, and only by a registered session.
theorem subscriptionCreated?_ok {s s' : Session} {key : SubscriptionKey} {ack : SubscriptionAck}
    {calls : List Call} (h : s.subscriptionCreated? key (.ok ack) = some (s', calls)) :
    ∃ r sub, s.remote = .registered r ∧ sub ∈ s.pendingNew ∧ sub.key = key ∧
      sub.isInFlight = true ∧ s'.state = .registered ∧
      s'.remote = .registered { r with
        active := r.active.insert ack.id (sub.confirmCreate ack.id ack.expiryTime) } := by
  unfold subscriptionCreated? at h
  split at h
  · rename_i r hdeleted hr
    split at h
    · simp at h
    · rename_i sub hfound
      obtain ⟨rfl, -⟩ := Prod.mk.inj (Option.some.inj h)
      have hsub := List.find?_some hfound
      simp only [Bool.and_eq_true, decide_eq_true_eq] at hsub
      exact ⟨r, sub, hr, List.mem_of_find?_eq_some hfound, hsub.1, hsub.2,
        by simp [state, hdeleted], rfl⟩
  · simp at h

/-! ## A session makes requests for itself only -/

/-- The requests that name a session name this one. -/
def Speaks (s : Session) (i : Intent) : Prop := ∀ key, i.session? = some key → key = s.key

section

variable {s : Session} {i : Intent}

theorem speaks_of_own (h : i.session? = some s.key) : s.Speaks i := by
  intro key hkey
  rw [h] at hkey
  exact (Option.some.inj hkey).symm

theorem speaks_of_none (h : i.session? = none) : s.Speaks i := by
  intro key hkey
  rw [h] at hkey
  cases hkey

theorem speaks_release (hi : i ∈ s.release) : s.Speaks i := by
  obtain ⟨id, -, rfl⟩ := exists_of_mem_release hi
  exact speaks_of_own rfl

theorem speaks_pushSubscriptions {config : ClientConfig} {r : Resource}
    (hi : i ∈ (s.pushSubscriptions config r).2) : s.Speaks i := by
  cases subscriptionRequest_of_mem hi with
  | created => exact speaks_of_own rfl
  | changed => exact speaks_of_none rfl
  | deleted => exact speaks_of_none rfl

theorem speaks_of_push {config : ClientConfig} (hi : i ∈ (s.push config).2) : s.Speaks i := by
  have hcreate : ∀ t : Session, t.key = s.key → s.Speaks (t.create config).2 :=
    fun t ht key hkey => (Option.some.inj hkey).symm.trans ht
  have hpushes := s.pushes config
  generalize s.push config = q at hpushes hi
  cases hpushes with
  | removed => exact speaks_release hi
  | created =>
    rw [List.mem_singleton.1 hi]
    exact hcreate s rfl
  | recreated =>
    rcases List.mem_append.1 hi with hi | hi
    · exact speaks_release hi
    · rw [List.mem_singleton.1 hi]
      exact hcreate s.requeue rfl
  | @reconciled r =>
    obtain ⟨p, hbody, heq⟩ := reconcile_eq config s r
    rw [heq] at hi
    rcases List.mem_append.1 hi with hi | hi
    · obtain ⟨ops, rfl⟩ := hbody.patches i hi
      exact speaks_of_own rfl
    · exact fun key hkey => (speaks_pushSubscriptions hi key hkey).trans hbody.key
  | idle => cases hi

theorem speaks_of_moved {m : Move} (hi : i ∈ (s.moved m).2) : s.Speaks i := by
  cases sends_of_mem hi with
  | letGo => exact speaks_of_none rfl
  | pushed hi => exact speaks_of_push hi
  | released => exact speaks_of_own rfl

end

end MbsClient.Session
