import MbsClient.Proofs.Data.SortedMap
import MbsClient.Proofs.Session.Labels

/-!
# Holdings — the ids that the MB-SMF has given to a session

A registered session holds a resource, the ids of its active subscriptions and those that the next
push deletes. `effect_moved` says once what a move can do to them and which requests go with it;
only answers to creations bring ids in (`holdings?_created`, `holdings?_subscriptionCreated?`).
-/

namespace MbsClient

namespace Intent

def removes? : Intent → Option String
  | .removeResource _ id => some id
  | _ => none

def deletes? : Intent → Option String
  | .deleteSubscription id => some id
  | _ => none

/-- The resources that some requests remove. -/
def removals (intents : List Intent) : List String := intents.filterMap removes?

/-- The subscriptions that some requests delete. -/
def deletions (intents : List Intent) : List String := intents.filterMap deletes?

@[simp] theorem removals_append (a b : List Intent) :
    removals (a ++ b) = removals a ++ removals b := List.filterMap_append

@[simp] theorem deletions_append (a b : List Intent) :
    deletions (a ++ b) = deletions a ++ deletions b := List.filterMap_append

@[simp] theorem deletions_map_delete (ids : List String) :
    deletions (ids.map deleteSubscription) = ids := by
  induction ids with
  | nil => rfl
  | cons id ids ih =>
    rw [List.map_cons]
    exact congrArg (id :: ·) ih

@[simp] theorem removals_map_delete (ids : List String) :
    removals (ids.map deleteSubscription) = [] := by
  induction ids with
  | nil => rfl
  | cons id ids ih => exact ih

theorem mem_removals {intents : List Intent} {id : String} :
    id ∈ removals intents ↔ ∃ key, .removeResource key id ∈ intents := by
  rw [removals, List.mem_filterMap]
  constructor
  · rintro ⟨i, hi, hid⟩
    unfold removes? at hid
    split at hid
    · rename_i key r
      rw [← Option.some.inj hid]
      exact ⟨key, hi⟩
    · simp at hid
  · rintro ⟨key, h⟩
    exact ⟨_, h, rfl⟩

theorem mem_deletions {intents : List Intent} {id : String} :
    id ∈ deletions intents ↔ .deleteSubscription id ∈ intents := by
  rw [deletions, List.mem_filterMap]
  constructor
  · rintro ⟨i, hi, hid⟩
    unfold deletes? at hid
    split at hid
    · rw [← Option.some.inj hid]
      exact hi
    · simp at hid
  · exact fun h => ⟨_, h, rfl⟩

-- Requests that neither remove nor delete.
theorem removals_eq_nil {intents : List Intent} (h : ∀ i ∈ intents, i.removes? = none) :
    removals intents = [] := List.filterMap_eq_nil_iff.2 h

theorem deletions_eq_nil {intents : List Intent} (h : ∀ i ∈ intents, i.deletes? = none) :
    deletions intents = [] := List.filterMap_eq_nil_iff.2 h

end Intent

/-- What the MB-SMF holds for a session, by the ids it has given. -/
structure Holdings where
  resource : String
  /-- Under which subscriptions are registered. -/
  active : List String
  /-- Of subscriptions that wait to be deleted. -/
  leaving : List String

namespace Resource

def holdings (r : Resource) : Holdings := ⟨r.id, r.active.keys, r.pendingDelete.map Prod.fst⟩

end Resource

namespace Session

open Intent

def holdings? (s : Session) : Option Holdings := s.resource?.map Resource.holdings

theorem resourceId?_eq (s : Session) : s.resourceId? = s.holdings?.map Holdings.resource := by
  simp only [resourceId?, holdings?, Option.map_map]
  rfl

theorem holdings?_of_registered {s : Session} {r : Resource} (h : s.remote = .registered r) :
    s.holdings? = some r.holdings := by
  simp [holdings?, resource?, h, Remote.resource?]

-- A session that waits for its creation holds nothing.
theorem holdings?_of_waitingFor? {s : Session} {w : MbsSession × Option SubscriptionKey}
    (h : s.waitingFor? = some w) : s.holdings? = none := by
  rw [holdings?, resource?_of_waitingFor? h]
  rfl

/-! ## What a move can do -/

/-- Whether a move takes the resource of a session down, if it has one. -/
def releases (s : Session) : Move → Bool
  | .push _ => s.deleted || s.identityChanged
  | .release => true
  | _ => false

/-- What becomes of the holdings of a session, next to the requests that are sent. -/
inductive Effect (s : Session) (m : Move) : Option Session → List Intent → Prop
  | kept {s' intents} (hkept : s'.holdings? = s.holdings?) (hrem : removals intents = [])
      (hdel : deletions intents = []) : Effect s m (some s') intents
  /-- A subscription leaves at once. -/
  | left {s' intents h id active} (hs : s.holdings? = some h) (hperm : h.active.Perm (id :: active))
      (hs' : s'.holdings? = some { h with active }) (hrem : removals intents = [])
      (hdel : deletions intents = [id]) : Effect s m (some s') intents
  /-- A subscription is to leave with the next push. -/
  | queued {s' intents h id active} (hs : s.holdings? = some h)
      (hperm : h.active.Perm (id :: active))
      (hs' : s'.holdings? = some { h with active, leaving := h.leaving ++ [id] })
      (hrem : removals intents = []) (hdel : deletions intents = []) : Effect s m (some s') intents
  /-- The subscriptions that were to leave do so. -/
  | flushed {s' intents h} (hs : s.holdings? = some h)
      (hs' : s'.holdings? = some { h with leaving := [] }) (hrem : removals intents = [])
      (hdel : deletions intents = h.leaving) : Effect s m (some s') intents
  /-- The resource goes, and all ids with it. -/
  | released {s? intents h} (hm : s.releases m = true) (hs : s.holdings? = some h)
      (hs' : ∀ s', s? = some s' → s'.holdings? = none) (hrem : removals intents = [h.resource])
      (hdel : deletions intents = []) : Effect s m s? intents
  | gone {intents} (hs : s.holdings? = none) (hrem : removals intents = [])
      (hdel : deletions intents = []) : Effect s m none intents

theorem Effect.quiet {s s' : Session} {m : Move} (h : s'.holdings? = s.holdings?) :
    Effect s m (some s') [] :=
  .kept h rfl rfl

theorem holdings?_change {s s' : Session} {c : SessionChange} (h : s.change c = .ok s') :
    s'.holdings? = s.holdings? := by
  obtain ⟨data, dirty, rfl⟩ := eq_of_change h
  rfl

theorem holdings?_modifySubscription (s : Session) (key : SubscriptionKey)
    (f : Subscription → Subscription) : (s.modifySubscription key f).holdings? = s.holdings? := by
  cases hr : s.remote with
  | absent => simp [holdings?, resource?, modifySubscription, hr, Remote.mapResource]
  | creating body bundled => simp [holdings?, resource?, modifySubscription, hr, Remote.mapResource]
  | registered r =>
    simp [holdings?, resource?, modifySubscription, hr, Remote.mapResource, Remote.resource?,
      Resource.holdings]

theorem holdings?_unbundle (s : Session) (key : SubscriptionKey) (subs : List Subscription) :
    { s with pendingNew := subs, remote := s.remote.unbundle key }.holdings? = s.holdings? := by
  cases hr : s.remote <;> simp [holdings?, resource?, hr, Remote.unbundle, Remote.resource?]

-- A subscription that is let go was new, or active under its id.
theorem detach?_cases {s s' : Session} (hl : s.Labelled) {key : SubscriptionKey}
    {sub : Subscription} (h : s.detach? key = some (sub, s')) :
    (sub.id = none ∧ s'.holdings? = s.holdings?) ∨
    ∃ r id active, sub.id = some id ∧ s.remote = .registered r ∧
      r.active.keys.Perm (id :: active.keys) ∧
      s' = { s with remote := .registered { r with active } } := by
  unfold detach? at h
  split at h
  · rename_i found hfound
    obtain ⟨rfl, rfl⟩ := Prod.mk.inj (Option.some.inj h)
    exact .inl ⟨hl.new _ (List.mem_of_find?_eq_some hfound), holdings?_unbundle _ _ _⟩
  · obtain ⟨⟨id, found⟩, hfound, he⟩ := Option.map_eq_some_iff.1 h
    obtain ⟨rfl, rfl⟩ := Prod.mk.inj he
    have hget : s.active.get? id = some found :=
      SortedMap.mem_entries.1 (List.mem_of_find?_eq_some hfound)
    have hid := hl.active id found hget
    cases hr : s.remote with
    | absent => simp [active, hr] at hget
    | creating body bundled => simp [active, hr] at hget
    | registered r =>
      have hkey : id ∈ r.active.keys := by
        rw [← SortedMap.isSome_get?]
        simp only [active, hr] at hget
        rw [hget]
        rfl
      exact .inr ⟨r, id, r.active.erase id, hid, rfl, SortedMap.perm_keys_erase hkey, by
        simp [Remote.mapResource]⟩

theorem effect_letGo {s : Session} (hl : s.Labelled) (key : SubscriptionKey) :
    Effect s (.letGo key) (s.moved (.letGo key)).1 (s.moved (.letGo key)).2 := by
  simp only [moved]
  cases hd : s.detach? key with
  | none => exact .quiet rfl
  | some p =>
    obtain ⟨sub, s'⟩ := p
    rcases detach?_cases hl hd with ⟨hid, hkept⟩ | ⟨r, id, act, hid, hr, hperm, rfl⟩
    · simp only [hid]
      exact .quiet hkept
    · simp only [hid]
      exact .left (holdings?_of_registered hr) hperm rfl rfl rfl

theorem effect_withdraw {s : Session} (hl : s.Labelled) (key : SubscriptionKey) :
    Effect s (.withdraw key) (s.moved (.withdraw key)).1 (s.moved (.withdraw key)).2 := by
  simp only [moved, removeSubscription]
  cases hd : s.detach? key with
  | none => exact .quiet rfl
  | some p =>
    obtain ⟨sub, s'⟩ := p
    rcases detach?_cases hl hd with ⟨hid, hkept⟩ | ⟨r, id, act, hid, hr, hperm, rfl⟩
    · simp only [hid]
      exact .quiet hkept
    · simp only [hid]
      refine .queued (holdings?_of_registered hr) hperm ?_ rfl rfl
      simp [Except.toOption, holdings?, resource?, Remote.mapResource, Remote.resource?,
        Resource.holdings]

/-! ### Pushing -/

theorem effect_release {s : Session} {m : Move} (hm : s.releases m = true) :
    Effect s m none s.release := by
  unfold release
  cases hr : s.remote with
  | absent => exact .gone (by simp [holdings?, resource?, hr, Remote.resource?]) rfl rfl
  | creating body bundled =>
    exact .gone (by simp [holdings?, resource?, hr, Remote.resource?]) rfl rfl
  | registered r => exact .released hm (holdings?_of_registered hr) (by simp) rfl rfl

theorem removes?_of_mem_pushNew {s : Session} {config : ClientConfig} {r : Resource}
    {sub : Subscription} {i : Intent} (hi : i ∈ (s.pushNew config r sub).2) :
    i.removes? = none ∧ i.deletes? = none := by
  unfold pushNew at hi
  split at hi
  · rw [List.mem_singleton.1 hi]
    exact ⟨rfl, rfl⟩
  · simp at hi

theorem removes?_of_mem_pushActive {id : String} {sub : Subscription} {i : Intent}
    (hi : i ∈ (pushActive id sub).2) : i.removes? = none ∧ i.deletes? = none := by
  unfold pushActive at hi
  split at hi
  · split at hi
    · simp at hi
    · rw [List.mem_singleton.1 hi]
      exact ⟨rfl, rfl⟩
  · simp at hi

theorem pushSubscriptions_snd (config : ClientConfig) (s : Session) (r : Resource) :
    (s.pushSubscriptions config r).2 =
      (s.pendingNew.map (s.pushNew config r)).flatMap Prod.snd ++
        (r.active.map pushActive).values.flatMap Prod.snd ++
          r.holdings.leaving.map deleteSubscription := by
  rw [Resource.holdings, List.map_map]
  rfl

-- Of the requests about subscriptions, only those for the ones that are to leave delete.
theorem intents_pushSubscriptions (config : ClientConfig) (s : Session) (r : Resource) :
    removals (s.pushSubscriptions config r).2 = [] ∧
      deletions (s.pushSubscriptions config r).2 = r.holdings.leaving := by
  have hnew : ∀ i ∈ (s.pendingNew.map (s.pushNew config r)).flatMap Prod.snd,
      i.removes? = none ∧ i.deletes? = none := by
    intro i hi
    obtain ⟨p, hp, hip⟩ := List.mem_flatMap.1 hi
    obtain ⟨sub, -, rfl⟩ := List.mem_map.1 hp
    exact removes?_of_mem_pushNew hip
  have hactive : ∀ i ∈ (r.active.map pushActive).values.flatMap Prod.snd,
      i.removes? = none ∧ i.deletes? = none := by
    intro i hi
    obtain ⟨p, hp, hip⟩ := List.mem_flatMap.1 hi
    simp only [SortedMap.values, SortedMap.map, List.map_map, List.mem_map] at hp
    obtain ⟨e, -, rfl⟩ := hp
    exact removes?_of_mem_pushActive hip
  rw [pushSubscriptions_snd, removals_append, removals_append, deletions_append, deletions_append,
    removals_map_delete, deletions_map_delete]
  rw [removals_eq_nil fun i hi => (hnew i hi).1, removals_eq_nil fun i hi => (hactive i hi).1,
    deletions_eq_nil fun i hi => (hnew i hi).2, deletions_eq_nil fun i hi => (hactive i hi).2]
  simp

theorem holdings?_pushSubscriptions (config : ClientConfig) (s : Session) (r : Resource) :
    (s.pushSubscriptions config r).1.holdings? = some { r.holdings with leaving := [] } := by
  simp [holdings?, resource?, pushSubscriptions, Remote.resource?, Resource.holdings]

theorem effect_reconcile {s : Session} {r : Resource} (hr : s.remote = .registered r)
    (config : ClientConfig) (m : Move) :
    Effect s m (some (s.reconcile config r).1) (s.reconcile config r).2 := by
  obtain ⟨p, hbody, heq⟩ := reconcile_eq config s r
  have hheld : p.2.1.holdings = r.holdings := by
    rw [Resource.holdings, hbody.id, hbody.active, hbody.pendingDelete, Resource.holdings]
  have hrem : removals p.2.2 = [] := by
    apply removals_eq_nil
    intro i hi
    obtain ⟨ops, rfl⟩ := hbody.patches i hi
    rfl
  have hdel : deletions p.2.2 = [] := by
    apply deletions_eq_nil
    intro i hi
    obtain ⟨ops, rfl⟩ := hbody.patches i hi
    rfl
  have hintents := intents_pushSubscriptions config p.1 p.2.1
  rw [heq]
  refine .flushed (h := r.holdings) (holdings?_of_registered hr) ?_ ?_ ?_
  · rw [← hheld]
    exact holdings?_pushSubscriptions config p.1 p.2.1
  · rw [removals_append, hintents.1, hrem]
    rfl
  · rw [deletions_append, hintents.2, hdel, hheld]
    rfl

theorem holdings?_create (config : ClientConfig) (s : Session) :
    (s.create config).1.holdings? = none := rfl

theorem effect_push (config : ClientConfig) (s : Session) :
    Effect s (.push config) (s.push config).1 (s.push config).2 := by
  have hpushes := s.pushes config
  generalize s.push config = q at hpushes
  cases hpushes with
  | removed hdeleted => exact effect_release (by rw [releases, hdeleted, Bool.true_or])
  | created _ hremote =>
    refine .kept ?_ rfl rfl
    rw [holdings?_create]
    simp [holdings?, resource?, hremote, Remote.resource?]
  | recreated _ hremote hchanged =>
    refine .released ?_ (holdings?_of_registered hremote) ?_ ?_ ?_
    · rw [releases, hchanged, Bool.or_true]
    · intro s' hs'
      rw [← Option.some.inj hs', holdings?_create]
    · simp only [release, hremote]
      rfl
    · simp only [release, hremote]
      rfl
  | reconciled _ hremote => exact effect_reconcile hremote config _
  | idle => exact .quiet rfl

/-! ### Answers -/

theorem holdings?_refused {s : Session} {w : MbsSession × Option SubscriptionKey}
    (h : s.waitingFor? = some w) (problem : ProblemDetails) :
    (s.refused w.2 problem).1.holdings? = s.holdings? := by
  rw [holdings?_of_waitingFor? h]
  rfl

theorem holdings?_patched (s : Session) (result : OperationResult) :
    (s.patched result).1.holdings? = s.holdings? := by
  unfold patched
  split
  · rename_i r _ hr
    split
    · rw [holdings?_of_registered hr]
      rfl
    · rfl
  · rfl

theorem holdings?_subscriptionUpdated (s : Session) (key : SubscriptionKey)
    (result : Except OperationResult SubscriptionAck) :
    (s.subscriptionUpdated key result).1.holdings? = s.holdings? := by
  unfold subscriptionUpdated
  split
  · rfl
  · split
    · exact holdings?_modifySubscription _ _ _
    · exact holdings?_modifySubscription _ _ _

-- A refused creation of a subscription brings nothing in.
theorem holdings?_subscriptionCreated?_error {s s' : Session} {key : SubscriptionKey}
    {failure : OperationResult} {calls : List Call}
    (h : s.subscriptionCreated? key (.error failure) = some (s', calls)) :
    s'.holdings? = s.holdings? := by
  unfold subscriptionCreated? at h
  split at h
  · split at h
    · simp at h
    · obtain ⟨rfl, -⟩ := Prod.mk.inj (Option.some.inj h)
      rfl
  · simp at h

/-- A move that brings no id in. -/
def Move.Closed : Move → Prop
  | .created _ => False
  | .subscriptionCreated _ (.ok _) => False
  | _ => True

/-- **What a move can do** to the holdings of a session. -/
theorem effect_moved {s : Session} (hl : s.Labelled) {m : Move} (hm : m.Closed) :
    Effect s m (s.moved m).1 (s.moved m).2 := by
  cases m with
  | watch => exact .quiet rfl
  | change c =>
    simp only [moved]
    cases hc : s.change c with
    | error e => exact .quiet rfl
    | ok t => exact .quiet (holdings?_change hc)
  | markDeleted => exact .quiet rfl
  | takeOver sub => exact .quiet rfl
  | letGo key => exact effect_letGo hl key
  | withdraw key => exact effect_withdraw hl key
  | modify key changes =>
    simp only [moved]
    split
    · exact .quiet rfl
    · exact .quiet (holdings?_modifySubscription s key _)
  | push config => exact effect_push config s
  | release => exact effect_release rfl
  | created answer => exact hm.elim
  | refused problem =>
    simp only [moved]
    split
    · rename_i hw
      exact .quiet (holdings?_refused hw problem)
    · exact .quiet rfl
  | timedOut =>
    simp only [moved]
    split
    · rename_i hw
      obtain ⟨w, hw⟩ := Option.isSome_iff_exists.1 hw
      exact .gone (holdings?_of_waitingFor? hw) rfl rfl
    · exact .quiet rfl
  | patched result => exact .quiet (holdings?_patched s result)
  | subscriptionCreated key result =>
    cases result with
    | ok ack => exact hm.elim
    | error failure =>
      simp only [moved]
      split
      · rename_i hc
        exact .quiet (holdings?_subscriptionCreated?_error hc)
      · exact .quiet rfl
  | subscriptionUpdated key result => exact .quiet (holdings?_subscriptionUpdated s key result)

-- Whatever is held after a move that brings no id in was held before, under the same resource.
theorem holdings?_of_moved {s s' : Session} (hl : s.Labelled) {m : Move} (hm : m.Closed)
    (hs' : (s.moved m).1 = some s') {h' : Holdings} (hheld : s'.holdings? = some h') :
    ∃ h, s.holdings? = some h ∧ h'.resource = h.resource ∧ h'.active ⊆ h.active := by
  have heffect := effect_moved hl hm
  rw [hs'] at heffect
  generalize (s.moved m).2 = intents at heffect
  cases heffect with
  | kept hkept hrem hdel => exact ⟨h', by rw [← hkept, hheld], rfl, List.Subset.refl _⟩
  | left hs hperm ht hrem hdel =>
    rw [hheld] at ht
    refine ⟨_, hs, by rw [Option.some.inj ht], fun id hid => hperm.mem_iff.2 ?_⟩
    rw [Option.some.inj ht] at hid
    exact List.mem_cons_of_mem _ hid
  | queued hs hperm ht hrem hdel =>
    rw [hheld] at ht
    refine ⟨_, hs, by rw [Option.some.inj ht], fun id hid => hperm.mem_iff.2 ?_⟩
    rw [Option.some.inj ht] at hid
    exact List.mem_cons_of_mem _ hid
  | flushed hs ht hrem hdel =>
    rw [hheld] at ht
    exact ⟨_, hs, by rw [Option.some.inj ht], by rw [Option.some.inj ht]; exact List.Subset.refl _⟩
  | released hm' hs hnone hrem hdel => simp [hnone s' rfl] at hheld

-- A session that stays after such a move holds nothing.
theorem holdings?_of_releases {s s' : Session} {m : Move} (hm : s.releases m = true)
    (h : (s.moved m).1 = some s') : s'.holdings? = none := by
  cases m with
  | push config =>
    -- a session that stays is created anew
    simp only [moved, push] at h
    split at h
    · simp at h
    rename_i hdeleted
    have hchanged : s.identityChanged = true := by simpa [releases, hdeleted] using hm
    split at h
    · rename_i hr
      split at h <;> rw [← Option.some.inj h]
      · rfl
      · simp [holdings?, resource?, hr, Remote.resource?]
    · rename_i hr
      rw [← Option.some.inj h]
      simp [holdings?, resource?, hr, Remote.resource?]
    · rw [if_pos hchanged] at h
      rw [← Option.some.inj h, holdings?_create]
  | release => simp [moved] at h
  | _ => simp [releases] at hm

-- The removal of the resource is among the requests.
theorem mem_removals_of_releases {s : Session} (hl : s.Labelled) {m : Move} (hc : m.Closed)
    (hm : s.releases m = true) {id : String} (hid : s.resourceId? = some id) :
    id ∈ removals (s.moved m).2 := by
  -- nothing is held afterwards, so the effect can only be the release
  rw [resourceId?_eq] at hid
  obtain ⟨h, hs, rfl⟩ := Option.map_eq_some_iff.1 hid
  have heffect := effect_moved hl hc
  have hnone : ∀ s', (s.moved m).1 = some s' → s'.holdings? = none :=
    fun s' => holdings?_of_releases hm
  generalize (s.moved m).1 = s?, (s.moved m).2 = intents at heffect hnone
  cases heffect with
  | kept hkept hrem hdel =>
    have habsurd := hnone _ rfl
    rw [hkept, hs] at habsurd
    simp at habsurd
  | left ht hperm hs' hrem hdel => simp [hnone _ rfl] at hs'
  | queued ht hperm hs' hrem hdel => simp [hnone _ rfl] at hs'
  | flushed ht hs' hrem hdel => simp [hnone _ rfl] at hs'
  | released hm' ht hs' hrem hdel =>
    rw [hs] at ht
    rw [hrem, ← Option.some.inj ht]
    exact List.mem_singleton_self _
  | gone ht hrem hdel => simp [hs] at ht

/-! ## What answers bring in -/

/-- The id that the answer to a creation gives to the rider; without one it is given to nothing. -/
def settled (s : Session) (bundled : Option SubscriptionKey) (answer : SessionCreated) :
    List String :=
  if (s.rider? bundled).isSome then answer.subscriptionId.toList else []

theorem holdings?_created (s : Session) (body : MbsSession) (bundled : Option SubscriptionKey)
    (answer : SessionCreated) :
    (s.created body bundled answer).1.holdings? =
      some ⟨answer.resourceId, s.settled bundled answer, []⟩ := by
  unfold settled
  rcases created_cases s body bundled answer with
    ⟨sub, id, r, hsub, hid, -, hr, hres, hactive, hleaving⟩ |
    ⟨r, hnone, hr, hres, hactive, hleaving⟩
  · rw [holdings?_of_registered hr, hsub, hid, Resource.holdings, hres, hactive, hleaving]
    rfl
  · rw [holdings?_of_registered hr, Resource.holdings, hres, hactive, hleaving]
    rcases hnone with ⟨hsub, -⟩ | ⟨sub, hsub, hid, -⟩
    · rw [hsub]
      rfl
    · rw [hsub, hid]
      rfl

-- An answer to the creation of a subscription is taken in by a registered session only.
theorem holdings?_subscriptionCreated? {s s' : Session} {key : SubscriptionKey}
    {ack : SubscriptionAck} {calls : List Call}
    (h : s.subscriptionCreated? key (.ok ack) = some (s', calls)) :
    ∃ r confirmed, s.remote = .registered r ∧
      s'.holdings? =
        some { r.holdings with active := (r.active.insert ack.id confirmed).keys } := by
  obtain ⟨r, sub, hr, -, -, -, -, hr'⟩ := subscriptionCreated?_ok h
  exact ⟨r, _, hr, holdings?_of_registered hr'⟩

end Session

end MbsClient
