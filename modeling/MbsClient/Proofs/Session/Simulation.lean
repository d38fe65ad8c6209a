import MbsClient.Proofs.Session.Flat
import MbsClient.Proofs.Session.Holdings
import MbsClient.Proofs.Session.Origins

/-!
# Simulation — a session moves as its flat record does

`Session.flat` lays a session out part by part. Each move does the same to the session and to the
record (`flat_moved`), provided that no subscription is had twice and that those with an id are the
active ones, under their own ids.
-/

namespace MbsClient

namespace Session

def phase (s : Session) : Phase :=
  match s.state with
  | .unregistered => .unregistered
  | .createPending => .createPending
  | .registered => .registered
  | .pendingDelete => .pendingDelete

/-- The session, part by part. -/
def flat (s : Session) : FlatSession where
  key := s.key
  data := s.data
  resourceId := s.resourceId?
  phase := s.phase
  dirty := s.dirty
  deleted := s.deleted
  identity := s.identity
  acked := s.acknowledged?
  creating :=
    match s.remote with
    | .creating body _ => some body
    | _ => none
  patching := s.resource?.bind Resource.patching
  bundled := s.remote.bundled?
  pendingNew := s.pendingNew
  active := s.active
  pendingDelete := s.pendingDelete
  ingressTunAddrs := s.ingressTunAddrs
  expirationTime := s.expirationTime
  watchesResults := s.watchesResults

/-- The record after a move is that of the session, or both are gone. -/
inductive Matches : Option Session → FlatSession × Disposition → Prop
  | kept (s : Session) : Matches (some s) (s.flat, .keep)
  | destroyed (s : FlatSession) : Matches none (s, .destroy)

theorem matches_of_eq {s' : Session} {t : FlatSession} (h : t = s'.flat) :
    Matches (some s') (t, .keep) := by
  rw [h]
  exact .kept s'

variable {s : Session}

/-! ## 1. The first subscription with a key is the only one -/

section

variable {subs : List Subscription} {key : SubscriptionKey} {p : Subscription → Bool}

-- Around the subscription that is found no other has the key.
theorem split_of_find? (hn : (subs.map Subscription.key).Nodup)
    (hp : ∀ sub, p sub = true → sub.key = key) {sub : Subscription} (h : subs.find? p = some sub) :
    ∃ before after, subs = before ++ sub :: after ∧ p sub = true ∧ (∀ t ∈ before, ¬ p t = true) ∧
      (∀ t ∈ before, t.key ≠ key) ∧ ∀ t ∈ after, t.key ≠ key := by
  obtain ⟨hsub, before, after, rfl, hbefore⟩ := List.find?_eq_some_iff_append.1 h
  have hkey := hp sub hsub
  rw [List.map_append, List.map_cons, List.nodup_append] at hn
  obtain ⟨-, hafter, hdisjoint⟩ := hn
  refine ⟨before, after, rfl, hsub, fun t ht => by simpa using hbefore t ht, fun t ht heq => ?_,
    fun t ht heq => ?_⟩
  · exact hdisjoint _ (List.mem_map_of_mem ht) _ List.mem_cons_self (heq.trans hkey.symm)
  · refine (List.nodup_cons.1 hafter).1 ?_
    rw [hkey, ← heq]
    exact List.mem_map_of_mem ht

theorem eraseP_eq_filter (hn : (subs.map Subscription.key).Nodup)
    (hp : ∀ sub, p sub = true → sub.key = key) {sub : Subscription} (h : subs.find? p = some sub) :
    subs.eraseP p = subs.filter fun other => other.key != key := by
  obtain ⟨before, after, rfl, hsub, hnone, hbefore, hafter⟩ := split_of_find? hn hp h
  have hkeep : ∀ others : List Subscription, (∀ t ∈ others, t.key ≠ key) →
      others.filter (fun other => other.key != key) = others :=
    fun others hothers => List.filter_eq_self.2 fun t ht => bne_iff_ne.2 (hothers t ht)
  rw [List.eraseP_append_right _ hnone, List.eraseP_cons_of_pos hsub, List.filter_append,
    List.filter_cons_of_neg (by simp [hp sub hsub]), hkeep before hbefore, hkeep after hafter]

-- Where no subscription has the key nothing changes.
theorem modifyIn_of_not_mem (h : ∀ sub ∈ subs, sub.key ≠ key) (f : Subscription → Subscription) :
    modifyIn key f subs = subs := by
  rw [modifyIn, List.map_congr_left (g := id), List.map_id]
  exact fun sub hsub => if_neg (h sub hsub)

theorem modifyFirst_eq_modifyIn (hn : (subs.map Subscription.key).Nodup)
    (hp : ∀ sub, p sub = true → sub.key = key) {sub : Subscription} (h : subs.find? p = some sub)
    (f : Subscription → Subscription) :
    FlatSession.modifyFirst p f subs = modifyIn key f subs := by
  obtain ⟨before, after, rfl, hsub, hnone, hbefore, hafter⟩ := split_of_find? hn hp h
  have hfirst : FlatSession.modifyFirst p f (before ++ sub :: after) =
      before ++ f sub :: after := by
    clear h hn hbefore
    induction before with
    | nil => exact if_pos hsub
    | cons t before ih =>
      rw [List.cons_append, FlatSession.modifyFirst, if_neg (hnone t List.mem_cons_self),
        ih fun u hu => hnone u (List.mem_cons_of_mem t hu), List.cons_append]
  have hothers := modifyIn_of_not_mem (f := f) hbefore
  have hothers' := modifyIn_of_not_mem (f := f) hafter
  unfold modifyIn at hothers hothers' ⊢
  rw [hfirst, List.map_append, List.map_cons, hothers, hothers', if_pos (hp sub hsub)]

end

section

variable (hn : s.subscriptionKeys.Nodup)
include hn

theorem nodup_newKeys : (s.pendingNew.map Subscription.key).Nodup := by
  rw [subscriptionKeys_eq] at hn
  exact (List.nodup_append.1 hn).1

-- The active subscription with a key lies under one id only.
theorem map_active_eq_insert (hl : s.Labelled) {key : SubscriptionKey} {id : String}
    {sub : Subscription} (hget : s.active.get? id = some sub) (hkey : sub.key = key)
    (f : Subscription → Subscription) :
    (s.active.map fun _ t => if t.key = key then f t else t) = s.active.insert id (f sub) := by
  apply SortedMap.ext_get?
  intro k
  rw [SortedMap.get?_map]
  by_cases hk : k = id
  · rw [hk, SortedMap.get?_insert_self, hget, Option.map_some, if_pos hkey]
  · rw [SortedMap.get?_insert_of_ne _ hk]
    cases ht : s.active.get? k with
    | none => rfl
    | some t =>
      rw [Option.map_some, if_neg]
      intro heq
      have hsame : t = sub :=
        eq_of_key hn (mem_subscriptions.2 (.inr ⟨k, ht⟩)) (mem_subscriptions.2 (.inr ⟨id, hget⟩))
          (heq.trans hkey.symm)
      have hid := hl.active k t ht
      rw [hsame, hl.active id sub hget] at hid
      exact hk (Option.some.inj hid).symm

end

theorem map_active_of_not_mem {key : SubscriptionKey} (h : ∀ sub ∈ s.active.values, sub.key ≠ key)
    (f : Subscription → Subscription) :
    (s.active.map fun _ t => if t.key = key then f t else t) = s.active := by
  apply SortedMap.ext_get?
  intro k
  rw [SortedMap.get?_map]
  cases ht : s.active.get? k with
  | none => rfl
  | some t => rw [Option.map_some, if_neg (h t (SortedMap.mem_values.2 ⟨k, ht⟩))]

/-! ## 2. Layouts -/

theorem flat_of_absent (h : s.remote = .absent) : s.flat =
    { key := s.key, data := s.data, dirty := s.dirty, deleted := s.deleted, identity := s.identity,
      phase := if s.deleted then .pendingDelete else .unregistered, pendingNew := s.pendingNew,
      ingressTunAddrs := s.ingressTunAddrs, expirationTime := s.expirationTime,
      watchesResults := s.watchesResults } := by
  cases hd : s.deleted <;>
    simp [flat, phase, state, h, hd, resourceId?, acknowledged?, resource?, Remote.resource?,
      Remote.bundled?, active, pendingDelete]

theorem flat_of_creating {body : MbsSession} {bundled : Option SubscriptionKey}
    (h : s.remote = .creating body bundled) : s.flat =
    { key := s.key, data := s.data, dirty := s.dirty, deleted := s.deleted, identity := s.identity,
      phase := if s.deleted then .pendingDelete else .createPending, creating := some body, bundled,
      pendingNew := s.pendingNew, ingressTunAddrs := s.ingressTunAddrs,
      expirationTime := s.expirationTime, watchesResults := s.watchesResults } := by
  cases hd : s.deleted <;>
    simp [flat, phase, state, h, hd, resourceId?, acknowledged?, resource?, Remote.resource?,
      Remote.bundled?, active, pendingDelete]

theorem flat_of_registered {r : Resource} (h : s.remote = .registered r) : s.flat =
    { key := s.key, data := s.data, dirty := s.dirty, deleted := s.deleted, identity := s.identity,
      phase := if s.deleted then .pendingDelete else .registered, resourceId := some r.id,
      acked := some r.acked, patching := r.patching, pendingNew := s.pendingNew,
      active := r.active, pendingDelete := r.pendingDelete, ingressTunAddrs := s.ingressTunAddrs,
      expirationTime := s.expirationTime, watchesResults := s.watchesResults } := by
  cases hd : s.deleted <;>
    simp [flat, phase, state, h, hd, resourceId?, acknowledged?, resource?, Remote.resource?,
      Remote.bundled?, active, pendingDelete]

-- Subscriptions are active under a resource only.
theorem flat_mapActive (pendingNew : List Subscription)
    (g : SortedMap String Subscription → SortedMap String Subscription) (hg : g .empty = .empty) :
    ({ s with pendingNew, remote := s.remote.mapResource fun r =>
        { r with active := g r.active } } : Session).flat =
      { s.flat with pendingNew, active := g s.active } := by
  cases hr : s.remote with
  | absent =>
    rw [flat_of_absent hr, flat_of_absent rfl, active, hr, hg]
  | creating body bundled =>
    rw [flat_of_creating hr, flat_of_creating rfl, active, hr, hg]
  | registered r =>
    rw [flat_of_registered hr, flat_of_registered rfl, active, hr]

/-! ## 3. Subscriptions -/

-- A subscription is found under the same id, if it is active.
theorem activeWhere?_flat (p : Subscription → Bool) :
    s.flat.activeWhere? p = s.active.entries.find? fun entry => p entry.2 := rfl

theorem get?_of_activeWhere? {p : Subscription → Bool} {id : String} {sub : Subscription}
    (h : s.flat.activeWhere? p = some (id, sub)) : s.active.get? id = some sub ∧ p sub = true := by
  have hp := List.find?_some h
  exact ⟨SortedMap.mem_entries.1 (List.mem_of_find?_eq_some h), hp⟩

theorem flat_modifySubscription (hn : s.subscriptionKeys.Nodup) (hl : s.Labelled)
    (key : SubscriptionKey) (f : Subscription → Subscription) :
    (s.modifySubscription key f).flat = s.flat.modifySubscription key f := by
  have hmap := flat_mapActive (s := s) (modifyIn key f s.pendingNew)
    (fun active => active.map fun _ sub => if sub.key = key then f sub else sub) rfl
  refine hmap.trans ?_
  have hnew : s.flat.pendingNew = s.pendingNew := rfl
  rw [FlatSession.modifySubscription, hnew]
  split
  · rename_i hany
    obtain ⟨t, ht, hkey⟩ := List.any_eq_true.1 hany
    have hkey : t.key = key := by simpa using hkey
    obtain ⟨sub, hfound⟩ : ∃ sub, s.pendingNew.find? (fun sub => sub.key = key) = some sub :=
      Option.isSome_iff_exists.1 (by simpa using ⟨t, ht, hkey⟩)
    have hfirst : FlatSession.modifyFirst (fun sub => sub.key = key) f s.pendingNew =
        modifyIn key f s.pendingNew :=
      modifyFirst_eq_modifyIn (nodup_newKeys hn) (by simp) hfound f
    rw [hfirst, map_active_of_not_mem]
    · rfl
    · intro sub hsub heq
      exact key_ne_of_new hn ht hsub (hkey.trans heq.symm)
  · rename_i hnone
    have hnone : ∀ sub ∈ s.pendingNew, sub.key ≠ key := by simpa using hnone
    rw [modifyIn_of_not_mem hnone]
    split
    · rename_i id sub hfound
      obtain ⟨hget, hkey⟩ := get?_of_activeWhere? hfound
      rw [map_active_eq_insert hn hl hget (by simpa using hkey)]
      rfl
    · rename_i hfound
      rw [activeWhere?_flat, List.find?_eq_none] at hfound
      rw [map_active_of_not_mem]
      · rfl
      · intro sub hsub
        obtain ⟨id, hget⟩ := SortedMap.mem_values.1 hsub
        simpa using hfound (id, sub) (SortedMap.mem_entries.2 hget)

theorem flat_unbundle (pendingNew : List Subscription) (key : SubscriptionKey) :
    ({ s with pendingNew, remote := s.remote.unbundle key } : Session).flat =
      { s.flat with pendingNew,
                    bundled := if s.flat.bundled = some key then none else s.flat.bundled } := by
  cases hr : s.remote with
  | absent => rw [flat_of_absent hr, flat_of_absent rfl]; simp
  | creating body bundled =>
    rw [flat_of_creating hr, flat_of_creating rfl]
    cases bundled with
    | none => rfl
    | some key' => by_cases hkey : key' = key <;> simp [hkey]
  | registered r => rw [flat_of_registered hr, flat_of_registered rfl]; simp

theorem flat_detach? (hn : s.subscriptionKeys.Nodup) (key : SubscriptionKey) :
    s.flat.detach? key = (s.detach? key).map fun p => (p.1, p.2.flat) := by
  unfold detach? FlatSession.detach?
  have hnew : s.flat.pendingNew = s.pendingNew := rfl
  rw [hnew]
  cases hfound : s.pendingNew.find? fun sub => sub.key = key with
  | some sub =>
    have herase : s.pendingNew.eraseP (fun sub => sub.key = key) =
        s.pendingNew.filter fun other => other.key != key :=
      eraseP_eq_filter (nodup_newKeys hn) (by simp) hfound
    simp only [herase, Option.map_some, flat_unbundle]
  | none =>
    simp only [activeWhere?_flat, Option.map_map]
    congr 1
    funext ⟨id, sub⟩
    refine Prod.ext rfl (Eq.symm ?_)
    exact flat_mapActive s.pendingNew (fun active => active.erase id) rfl

-- Only a subscription that was active has an id.
theorem flat_removeSubscription (hn : s.subscriptionKeys.Nodup) (hl : s.Labelled)
    (key : SubscriptionKey) :
    ((s.removeSubscription key).toOption.getD s).flat = s.flat.withdraw key := by
  rw [FlatSession.withdraw, flat_detach? hn, removeSubscription]
  cases hd : s.detach? key with
  | none => rfl
  | some p =>
    obtain ⟨sub, t⟩ := p
    cases hid : sub.id with
    | none => simp [hid, Except.toOption]
    | some id =>
      rcases detach?_cases hl hd with ⟨hnone, -⟩ | ⟨r, _, active, -, hr, -, rfl⟩
      · rw [hnone] at hid
        cases hid
      · simp only [hid, Option.map_some, Except.toOption, Option.getD_some]
        rw [flat_of_registered rfl, flat_of_registered rfl]

theorem flat_modify (hn : s.subscriptionKeys.Nodup) (hl : s.Labelled) (key : SubscriptionKey)
    (changes : List SubscriptionChange) :
    Matches (s.moved (.modify key changes)).1 (s.flat.modify key changes, .keep) := by
  have hwanted : (s.flat.pendingNew ++ s.flat.active.values).any (fun sub => sub.key = key) =
      (s.subscription? key).isSome := List.isSome_find?.symm
  rw [FlatSession.modify, hwanted, moved, ← flat_modifySubscription hn hl]
  cases hs : s.subscription? key with
  | none => exact .kept s
  | some sub => exact .kept _

/-! ## 4. Pushes -/

theorem flat_create (config : ClientConfig) (hkept : s.deleted = false) (hr : s.remote = .absent) :
    (s.create config).1.flat = s.flat.create config := by
  rw [FlatSession.create, flat_of_absent hr, create, flat_of_creating rfl]
  simp [hkept]

-- What is left of the resource is reset, part by part.
theorem flat_recreate (config : ClientConfig) (hkept : s.deleted = false) {r : Resource}
    (hr : s.remote = .registered r) :
    (s.requeue.create config).1.flat = s.flat.requeue.create config := by
  have hnew : s.requeue.pendingNew = s.pendingNew.map Subscription.forgetRemote ++
      r.active.values.map Subscription.forgetRemote := by
    rw [requeue, subscriptions, active_of_registered hr, List.map_append]
  have hcreate : (s.requeue.create config).1.flat = s.requeue.flat.create config :=
    flat_create config hkept rfl
  rw [hcreate, FlatSession.create, FlatSession.create, flat_of_registered hr, flat_of_absent rfl]
  simp only [FlatSession.requeue, hnew]
  rfl

theorem flat_pushBody (r : Resource) :
    ({ (s.pushBody r).1 with remote := .registered (s.pushBody r).2.1 } : Session).flat =
      ({ s with remote := .registered r } : Session).flat.pushBody := by
  rw [FlatSession.pushBody, flat_of_registered rfl, flat_of_registered rfl, pushBody]
  simp only
  split
  · rename_i hpatching
    simp [hpatching]
  · rename_i hpatching
    split
    · rename_i hops
      simp [hpatching, hops]
    · rename_i hops
      have hops : ¬ Diff.values r.acked s.data = [] := hops
      simp [hpatching, hops]

theorem flat_pushSubscriptions (config : ClientConfig) (r : Resource) :
    (s.pushSubscriptions config r).1.flat =
      ({ s with remote := .registered r } : Session).flat.pushSubscriptions config := by
  have hnew : ∀ sub, (s.pushNew config r sub).1 =
      if sub.isDue then sub.sendCreate s.data.mbsSessionId config.notificationServers
      else sub := by
    intro sub
    rw [pushNew]
    split <;> rfl
  have hactive : ((r.active.map pushActive).map fun _ pushed => pushed.1) =
      r.active.map fun id sub => (pushActive id sub).1 := by
    apply SortedMap.ext_get?
    intro id
    rw [SortedMap.get?_map, SortedMap.get?_map, SortedMap.get?_map, Option.map_map]
    rfl
  rw [FlatSession.pushSubscriptions, pushSubscriptions, flat_of_registered rfl,
    flat_of_registered rfl]
  simp only [hactive, List.map_map]
  congr 1
  exact List.map_congr_left fun sub _ => hnew sub

theorem flat_reconcile (config : ClientConfig) {r : Resource} (hr : s.remote = .registered r) :
    (s.reconcile config r).1.flat = s.flat.reconcile config := by
  have hclean : { s.flat with dirty := false } =
      ({ s with remote := .registered r, dirty := false } : Session).flat := by
    rw [← hr]
    rfl
  rw [FlatSession.reconcile, reconcile, hclean]
  cases hconfig : config.sessionBodyPatch with
  | false => exact flat_pushSubscriptions config r
  | true =>
    have hbody := flat_pushBody (s := { s with dirty := false }) r
    simp only [if_true]
    rw [flat_pushSubscriptions, hbody]

theorem flat_push (config : ClientConfig) : Matches (s.push config).1 (s.flat.push config) := by
  have hdata : s.flat.data = s.data := rfl
  have hidentity : s.flat.identity = s.identity := rfl
  have hflag : s.flat.dirty = s.dirty := rfl
  have hmark : s.flat.deleted = s.deleted := rfl
  rw [push, FlatSession.push, hmark]
  cases hkept : s.deleted with
  | true => exact .destroyed _
  | false =>
    cases hr : s.remote with
    | absent =>
      have hphase : s.flat.phase = .unregistered := by rw [flat_of_absent hr, hkept]; rfl
      simp only [hphase, hflag, Bool.false_eq_true, if_false]
      split
      · exact matches_of_eq (flat_create config hkept hr).symm
      · exact .kept s
    | creating body bundled =>
      have hphase : s.flat.phase = .createPending := by rw [flat_of_creating hr, hkept]; rfl
      simp only [hphase, Bool.false_eq_true, if_false]
      exact .kept s
    | registered r =>
      have hphase : s.flat.phase = .registered := by rw [flat_of_registered hr, hkept]; rfl
      simp only [hphase, hdata, hidentity, hflag, identityChanged, Bool.false_eq_true, if_false]
      split
      · exact matches_of_eq (flat_recreate config hkept hr).symm
      · split
        · exact matches_of_eq (flat_reconcile config hr).symm
        · exact .kept s

/-! ## 5. Answers -/

theorem phase_createPending_iff : s.flat.phase = .createPending ↔ s.waitingFor?.isSome = true := by
  cases hr : s.remote <;> cases hd : s.deleted <;>
    simp [flat, phase, state, waitingFor?, hr, hd]

theorem phase_registered_iff :
    s.flat.phase = .registered ↔ s.deleted = false ∧ ∃ r, s.remote = .registered r := by
  cases hr : s.remote <;> cases hd : s.deleted <;> simp [flat, phase, state, hr, hd]

theorem flat_created (hn : s.subscriptionKeys.Nodup) {body : MbsSession}
    {bundled : Option SubscriptionKey} (hkept : s.deleted = false)
    (hr : s.remote = .creating body bundled) (answer : SessionCreated) :
    s.flat.created answer = (s.created body bundled answer).1.flat := by
  rw [FlatSession.created, flat_of_creating hr, created, flat_of_registered rfl]
  cases bundled with
  | none => simp [hkept]
  | some key =>
    simp only [FlatSession.settleBundled, Option.bind_some]
    cases hfound : s.pendingNew.find? fun sub => sub.key = key with
    | none => simp [hkept]
    | some sub =>
      have hkey : sub.key = key := by simpa using List.find?_some hfound
      cases hid : answer.subscriptionId with
      | some id =>
        have herase : s.pendingNew.eraseP (fun sub => sub.key = key) =
            s.pendingNew.filter fun other => other.key != key :=
          eraseP_eq_filter (nodup_newKeys hn) (by simp) hfound
        simp [hkept, settleBundled, herase, hkey]
      | none =>
        have hfirst : FlatSession.modifyFirst (fun sub => sub.key = key) Subscription.fail
            s.pendingNew = modifyIn key Subscription.fail s.pendingNew :=
          modifyFirst_eq_modifyIn (nodup_newKeys hn) (by simp) hfound _
        -- the subscription that has failed makes the session dirty
        have hdirty :
            (modifyIn key Subscription.fail s.pendingNew).any Subscription.dirty = true := by
          refine List.any_eq_true.2 ⟨sub.fail, List.mem_map.2 ⟨sub, ?_, if_pos hkey⟩, rfl⟩
          exact List.mem_of_find?_eq_some hfound
        simp [hkept, hfirst, hkey, hdirty]

-- Of a session that waits for its creation no subscription is active.
theorem flat_refused (hn : s.subscriptionKeys.Nodup) {body : MbsSession}
    {bundled : Option SubscriptionKey} (hkept : s.deleted = false)
    (hr : s.remote = .creating body bundled) (problem : ProblemDetails) :
    s.flat.refused = (s.refused bundled problem).1.flat := by
  rw [FlatSession.refused, FlatSession.failBundled, flat_of_creating hr, refused,
    flat_of_absent rfl]
  cases bundled with
  | none => simp [hkept, failBundled]
  | some key =>
    simp only [FlatSession.modifySubscription, failBundled]
    cases hfound : s.pendingNew.find? fun sub => sub.key = key with
    | none =>
      have hnone : ∀ sub ∈ s.pendingNew, sub.key ≠ key := by simpa using hfound
      have hany : (s.pendingNew.any fun sub => sub.key = key) = false := by simpa using hnone
      rw [hany, modifyIn_of_not_mem hnone]
      simp [hkept, FlatSession.activeWhere?, SortedMap.empty]
    | some sub =>
      have hfirst : FlatSession.modifyFirst (fun sub => sub.key = key) Subscription.fail
          s.pendingNew = modifyIn key Subscription.fail s.pendingNew :=
        modifyFirst_eq_modifyIn (nodup_newKeys hn) (by simp) hfound _
      have hany : (s.pendingNew.any fun sub => sub.key = key) = true := by
        rw [← List.isSome_find?, hfound]
        rfl
      rw [hany, hfirst]
      simp [hkept]

theorem flat_patched (result : OperationResult) :
    s.flat.patched result = (s.patched result).1.flat := by
  rw [FlatSession.patched, patched]
  cases hkept : s.deleted with
  | true => rw [if_neg fun h => by simp [phase_registered_iff, hkept] at h]
  | false =>
    cases hr : s.remote with
    | absent => simp [flat_of_absent hr, hkept]
    | creating body bundled => simp [flat_of_creating hr, hkept]
    | registered r =>
      rw [flat_of_registered hr]
      simp only [hkept]
      cases hpatching : r.patching with
      | none => simp [flat_of_registered hr, hkept, hpatching]
      | some body => cases result.isOk <;> simp [flat_of_registered]

theorem flat_subscriptionCreated (hn : s.subscriptionKeys.Nodup) (key : SubscriptionKey)
    (result : Except OperationResult SubscriptionAck) :
    Matches (s.moved (.subscriptionCreated key result)).1
      (s.flat.subscriptionCreated key result, .keep) := by
  rw [moved]
  unfold FlatSession.subscriptionCreated
  by_cases hphase : s.flat.phase = .registered
  · obtain ⟨hkept, r, hr⟩ := phase_registered_iff.1 hphase
    have hnew : s.flat.pendingNew = s.pendingNew := rfl
    unfold subscriptionCreated?
    simp only [if_pos hphase, hnew, hkept, hr]
    have hwaits : ∀ t : Subscription, (decide (t.key = key) && t.isInFlight) = true → t.key = key :=
      fun t ht => of_decide_eq_true (Bool.and_eq_true_iff.1 ht).1
    cases hfound : s.pendingNew.find? fun sub => sub.key = key && sub.isInFlight with
    | none => exact .kept s
    | some sub =>
      cases result with
      | ok ack =>
        have herase : s.pendingNew.eraseP (fun sub => sub.key = key && sub.isInFlight) =
            s.pendingNew.filter fun other => other.key != key :=
          eraseP_eq_filter (nodup_newKeys hn) hwaits hfound
        refine matches_of_eq ?_
        rw [flat_of_registered hr, flat_of_registered rfl]
        simp [herase, hkept]
      | error failure =>
        have hfirst : FlatSession.modifyFirst (fun sub => sub.key = key && sub.isInFlight)
            Subscription.fail s.pendingNew = modifyIn key Subscription.fail s.pendingNew :=
          modifyFirst_eq_modifyIn (nodup_newKeys hn) hwaits hfound _
        refine matches_of_eq ?_
        rw [flat_of_registered hr, flat_of_registered rfl]
        simp [hfirst, hkept]
  · rw [if_neg hphase]
    have hnone : s.subscriptionCreated? key result = none := by
      rw [phase_registered_iff] at hphase
      rw [subscriptionCreated?]
      split
      · rename_i r hkept hr
        exact absurd ⟨hkept, r, hr⟩ hphase
      · rfl
    rw [hnone]
    exact .kept s

-- The active subscription that is answered is the only one with its key.
theorem flat_modify_active (hn : s.subscriptionKeys.Nodup) (hl : s.Labelled)
    {key : SubscriptionKey} {id : String} {sub : Subscription}
    (hget : s.active.get? id = some sub) (hkey : sub.key = key) (f : Subscription → Subscription) :
    (s.modifySubscription key f).flat = { s.flat with active := s.active.insert id (f sub) } := by
  have hnone : ∀ t ∈ s.pendingNew, t.key ≠ key := fun t ht => by
    rw [← hkey]
    exact key_ne_of_new hn ht (SortedMap.mem_values.2 ⟨id, hget⟩)
  have hmap := flat_mapActive (s := s) (modifyIn key f s.pendingNew)
    (fun active => active.map fun _ sub => if sub.key = key then f sub else sub) rfl
  rw [modifyIn_of_not_mem hnone, map_active_eq_insert hn hl hget hkey] at hmap
  rw [modifySubscription, modifyIn_of_not_mem hnone]
  exact hmap

theorem flat_subscriptionUpdated (hn : s.subscriptionKeys.Nodup) (hl : s.Labelled)
    (key : SubscriptionKey) (result : Except OperationResult SubscriptionAck) :
    s.flat.subscriptionUpdated key result = (s.subscriptionUpdated key result).1.flat := by
  have hfind : (s.active.values.find? fun sub => sub.key = key && sub.isInFlight) =
      (s.flat.activeWhere? fun sub => sub.key = key && sub.isInFlight).map Prod.snd := by
    rw [SortedMap.values, List.find?_map]
    rfl
  unfold FlatSession.subscriptionUpdated subscriptionUpdated
  rw [hfind]
  cases hfound : s.flat.activeWhere? fun sub => sub.key = key && sub.isInFlight with
  | none => rfl
  | some entry =>
    obtain ⟨id, sub⟩ := entry
    obtain ⟨hget, hp⟩ := get?_of_activeWhere? hfound
    have hkey : sub.key = key := (by simpa using hp : _ ∧ _).1
    cases result with
    | ok ack =>
      have hflat := flat_modify_active hn hl hget hkey (Subscription.confirm ack.expiryTime)
      have hdirty :=
        congrArg (fun t : FlatSession => { t with dirty := s.dirty || sub.dirty }) hflat
      exact hdirty.symm
    | error failure =>
      have hflat := flat_modify_active hn hl hget hkey Subscription.fail
      have hdirty := congrArg (fun t : FlatSession => { t with dirty := true }) hflat
      exact hdirty.symm

/-! ## 6. Moves -/

theorem flat_change (c : SessionChange) :
    s.flat.change c = ((s.change c).toOption.getD s).flat := by
  have hdata : s.flat.data = s.data := rfl
  rw [FlatSession.change, change, hdata]
  split
  · rfl
  · cases hc : s.data.change c with
    | error fault => rfl
    | ok data => rfl

theorem flat_markDeleted : s.flat.markDeleted = s.markDeleted.flat := by
  have hphase : s.flat.phase ≠ .gone := by
    cases hr : s.remote <;> cases hd : s.deleted <;> simp [flat, phase, state, hr, hd]
  rw [FlatSession.markDeleted, if_neg hphase]
  rfl

/-- **A session moves as its flat record does**: the same parts are left, or neither is. -/
theorem flat_moved (hn : s.subscriptionKeys.Nodup) (hl : s.Labelled) (m : Move) :
    Matches (s.moved m).1 (s.flat.moved m) := by
  cases m with
  | watch => exact .kept _
  | change c => exact matches_of_eq (flat_change c)
  | markDeleted => exact matches_of_eq flat_markDeleted
  | takeOver sub => exact .kept _
  | letGo key =>
    simp only [FlatSession.moved, moved, flat_detach? hn]
    cases s.detach? key with
    | none => exact .kept s
    | some p => exact .kept p.2
  | withdraw key => exact matches_of_eq (flat_removeSubscription hn hl key).symm
  | modify key changes => exact flat_modify hn hl key changes
  | push config => exact flat_push config
  | release => exact .destroyed _
  | created answer =>
    simp only [FlatSession.moved, moved, phase_createPending_iff]
    cases hw : s.waitingFor? with
    | none => exact .kept s
    | some waiting =>
      obtain ⟨hkept, hr⟩ := remote_of_waitingFor? hw
      exact matches_of_eq (flat_created hn hkept hr answer)
  | refused problem =>
    simp only [FlatSession.moved, moved, phase_createPending_iff]
    cases hw : s.waitingFor? with
    | none => exact .kept s
    | some waiting =>
      obtain ⟨hkept, hr⟩ := remote_of_waitingFor? hw
      exact matches_of_eq (flat_refused hn hkept hr problem)
  | timedOut =>
    simp only [FlatSession.moved, moved, phase_createPending_iff]
    cases hw : s.waitingFor? with
    | none => exact .kept s
    | some waiting => exact .destroyed _
  | patched result => exact matches_of_eq (flat_patched result)
  | subscriptionCreated key result => exact flat_subscriptionCreated hn key result
  | subscriptionUpdated key result =>
    exact matches_of_eq (flat_subscriptionUpdated hn hl key result)

end Session

end MbsClient
