import MbsClient.Proofs.Model.Unchanged
import MbsClient.Proofs.Session.Origins

/-!
# Bodies — the record of a session and what has been sent of it

What is done to subscriptions leaves the record alone (`sameBody_moved`). Where bodies are patched,
a clean session has sent its record as it is, unless the answer to its creation has made it forget
that it asks for a TMGI (`covered_moved`).
-/

namespace MbsClient

/-- What has been sent of the record, without the subscriptions. -/
def Remote.bare : Remote → Remote
  | .absent => .absent
  | .creating body _ => .creating body none
  | .registered r => .registered { r with active := .empty, pendingDelete := [] }

namespace Session

/-- The body that the outstanding patch leads to. -/
def patching? (s : Session) : Option MbsSession := s.resource?.bind Resource.patching

theorem patching?_of_registered {s : Session} {r : Resource} (h : s.remote = .registered r) :
    s.patching? = r.patching := by
  rw [patching?, resource?_of_registered h]
  rfl

/-! ## 1. Moves that leave the record alone -/

/-- The record is the same, and so is what has been sent of it. -/
structure SameBody (s s' : Session) : Prop where
  data : s'.data = s.data
  remote : s'.remote.bare = s.remote.bare
  deleted : s'.deleted = s.deleted
  identity : s'.identity = s.identity
  dirty : s'.dirty = false → s.dirty = false

/-- Moves that are about subscriptions or about the application. -/
def Move.Aside : Move → Prop
  | .watch => True
  | .takeOver _ => True
  | .letGo _ => True
  | .withdraw _ => True
  | .modify .. => True
  | .subscriptionCreated .. => True
  | .subscriptionUpdated .. => True
  | _ => False

theorem sameBody_refl (s : Session) : SameBody s s := ⟨rfl, rfl, rfl, rfl, id⟩

theorem bare_unbundle (key : SubscriptionKey) (remote : Remote) :
    (remote.unbundle key).bare = remote.bare := by
  cases remote <;> rfl

-- The subscriptions that a resource has are not looked at.
theorem bare_mapResource (active : Resource → SortedMap String Subscription)
    (pendingDelete : Resource → List (String × Subscription)) (remote : Remote) :
    (remote.mapResource fun r =>
      { r with active := active r, pendingDelete := pendingDelete r }).bare = remote.bare := by
  cases remote <;> rfl

theorem sameBody_detach? {s s' : Session} {key : SubscriptionKey} {sub : Subscription}
    (h : s.detach? key = some (sub, s')) : SameBody s s' := by
  unfold detach? at h
  split at h
  · obtain ⟨-, rfl⟩ := Prod.mk.inj (Option.some.inj h)
    exact ⟨rfl, bare_unbundle key s.remote, rfl, rfl, id⟩
  · obtain ⟨e, -, he⟩ := Option.map_eq_some_iff.1 h
    obtain ⟨-, rfl⟩ := Prod.mk.inj he
    exact ⟨rfl, bare_mapResource _ _ s.remote, rfl, rfl, id⟩

theorem sameBody_removeSubscription {s s' : Session} {key : SubscriptionKey}
    (h : s.removeSubscription key = .ok s') : SameBody s s' := by
  unfold removeSubscription at h
  split at h
  · simp at h
  · rename_i sub t hdetach
    have ht := sameBody_detach? hdetach
    split at h <;> rw [← Except.ok.inj h]
    · exact ⟨ht.data, (bare_mapResource _ _ t.remote).trans ht.remote, ht.deleted,
        ht.identity, Bool.noConfusion⟩
    · exact ht

theorem sameBody_subscriptionCreated? {s s' : Session} {key : SubscriptionKey}
    {result : Except OperationResult SubscriptionAck} {calls : List Call}
    (h : s.subscriptionCreated? key result = some (s', calls)) : SameBody s s' := by
  unfold subscriptionCreated? at h
  split at h
  · rename_i r _ hr
    split at h
    · simp at h
    · split at h
      · obtain ⟨rfl, -⟩ := Prod.mk.inj (Option.some.inj h)
        exact ⟨rfl, by rw [hr]; rfl, rfl, rfl, fun hclean => (Bool.or_eq_false_iff.1 hclean).1⟩
      · obtain ⟨rfl, -⟩ := Prod.mk.inj (Option.some.inj h)
        exact ⟨rfl, rfl, rfl, rfl, Bool.noConfusion⟩
  · simp at h

theorem sameBody_subscriptionUpdated (s : Session) (key : SubscriptionKey)
    (result : Except OperationResult SubscriptionAck) :
    SameBody s (s.subscriptionUpdated key result).1 := by
  have hremote : ∀ f, (s.modifySubscription key f).remote.bare = s.remote.bare :=
    fun f => bare_mapResource _ _ s.remote
  unfold subscriptionUpdated
  split
  · exact sameBody_refl s
  · split
    · exact ⟨rfl, hremote _, rfl, rfl, fun hclean => (Bool.or_eq_false_iff.1 hclean).1⟩
    · exact ⟨rfl, hremote _, rfl, rfl, Bool.noConfusion⟩

/-- **What is done to subscriptions leaves the record alone.** -/
theorem sameBody_moved {s s' : Session} {m : Move} (hm : m.Aside) (h : (s.moved m).1 = some s') :
    SameBody s s' := by
  cases m with
  | watch =>
    rw [← Option.some.inj h]
    exact ⟨rfl, rfl, rfl, rfl, id⟩
  | takeOver sub =>
    rw [← Option.some.inj h]
    exact ⟨rfl, rfl, rfl, rfl, Bool.noConfusion⟩
  | letGo key =>
    simp only [moved] at h
    split at h
    · rename_i sub t hdetach
      rw [← Option.some.inj h]
      exact sameBody_detach? hdetach
    · rw [← Option.some.inj h]
      exact sameBody_refl s
  | withdraw key =>
    rw [← Option.some.inj h]
    cases hr : s.removeSubscription key with
    | error e => exact sameBody_refl s
    | ok t => exact sameBody_removeSubscription hr
  | modify key changes =>
    simp only [moved] at h
    split at h <;> rw [← Option.some.inj h]
    · exact sameBody_refl s
    · exact ⟨rfl, bare_mapResource _ _ s.remote, rfl, rfl, Bool.noConfusion⟩
  | subscriptionCreated key result =>
    simp only [moved] at h
    split at h
    · rename_i t calls hcreated
      rw [← Option.some.inj h]
      exact sameBody_subscriptionCreated? hcreated
    · rw [← Option.some.inj h]
      exact sameBody_refl s
  | subscriptionUpdated key result =>
    rw [← Option.some.inj h]
    exact sameBody_subscriptionUpdated s key result
  | _ => exact hm.elim

/-! ## 2. Records that have been sent -/

/-- What has been sent is the record, or does not differ from it. An acknowledged identity that is
not that of the record is left to the next push, which creates the session anew. -/
def InStep (s : Session) : Prop :=
  match s.remote with
  | .absent => True
  | .creating body _ => body = s.data
  | .registered r =>
      match r.patching with
      | some body => body = s.data
      | none => r.acked = s.data ∨ Diff.values r.acked s.data = [] ∨ s.identityChanged = true

/-- A clean session is in step. -/
def Covered (s : Session) : Prop := s.dirty = false → s.InStep

theorem covered_of_dirty {s : Session} (h : s.dirty = true) : s.Covered :=
  fun hclean => by simp [h] at hclean

theorem covered_new (key : SessionKey) : Covered { key } := covered_of_dirty rfl

theorem inStep_of_registered {s : Session} {r : Resource} (h : s.remote = .registered r) :
    s.InStep ↔ match r.patching with
      | some body => body = s.data
      | none => r.acked = s.data ∨ Diff.values r.acked s.data = [] ∨ s.identityChanged = true := by
  rw [InStep, h]

theorem inStep_of_sameBody {s s' : Session} (h : SameBody s s') : s.InStep ↔ s'.InStep := by
  have hidentity : s'.identityChanged = s.identityChanged := by
    rw [identityChanged, h.data, h.identity, identityChanged]
  have hremote := h.remote
  cases hr : s.remote <;> cases hr' : s'.remote <;>
    simp only [hr, hr', Remote.bare, reduceCtorEq, Remote.creating.injEq,
      Remote.registered.injEq, and_true] at hremote
  case absent.absent => rw [InStep, InStep, hr, hr']
  case creating.creating => rw [InStep, InStep, hr, hr', h.data, hremote]
  case registered.registered r r' =>
    obtain ⟨-, hacked, hpatching⟩ := Resource.mk.inj hremote
    rw [InStep, InStep, hr, hr', h.data, hidentity]
    simp only [hacked, hpatching.1]

theorem Covered.of_sameBody {s s' : Session} (h : s.Covered) (hsame : SameBody s s') :
    s'.Covered :=
  fun hclean => (inStep_of_sameBody hsame).1 (h (hsame.dirty hclean))

/-! ## 3. Moves that keep sessions in step -/

theorem covered_change {s s' : Session} {c : SessionChange} (h : s.Covered)
    (hc : s.change c = .ok s') : s'.Covered := by
  rcases change_cases hc with rfl | ⟨data, rfl⟩
  · exact h
  · exact covered_of_dirty rfl

theorem covered_create (config : ClientConfig) (s : Session) : (s.create config).1.Covered :=
  fun _ => rfl

-- The body goes out unless it does not differ, or has to wait for the answer to an earlier patch.
theorem covered_reconcile {config : ClientConfig} (hconfig : config.sessionBodyPatch = true)
    (s : Session) (r : Resource) : (s.reconcile config r).1.Covered := by
  simp only [reconcile, hconfig, if_true, pushBody]
  split
  · exact covered_of_dirty rfl
  · rename_i hpatching
    split
    · rename_i hnone
      intro _
      refine (inStep_of_registered rfl).2 ?_
      simp only [hpatching]
      exact .inr (.inl hnone)
    · exact fun _ => rfl

theorem covered_push {s s' : Session} {config : ClientConfig}
    (hconfig : config.sessionBodyPatch = true) (h : s.Covered) (hs' : (s.push config).1 = some s') :
    s'.Covered := by
  have hpushes := s.pushes config
  generalize s.push config = q at hpushes hs'
  cases hpushes with
  | removed => cases hs'
  | created =>
    rw [← Option.some.inj hs']
    exact covered_create config s
  | recreated =>
    rw [← Option.some.inj hs']
    exact covered_create config s.requeue
  | reconciled =>
    rw [← Option.some.inj hs']
    exact covered_reconcile hconfig s _
  | idle => rwa [← Option.some.inj hs']

theorem covered_patched {s : Session} (h : s.Covered) (result : OperationResult) :
    (s.patched result).1.Covered := by
  unfold patched
  split
  · rename_i r _ hr
    split
    · rename_i body hpatching
      cases hok : result.isOk with
      | false => exact covered_of_dirty (Bool.or_true _)
      | true =>
        intro hclean
        have hsent := (inStep_of_registered hr).1 (h (by simpa [hok] using hclean))
        rw [hpatching] at hsent
        exact .inl hsent
    · exact h
  · exact h

/-- The answer to the creation brings the TMGI that the record has by now, and the record asks for
one all the same. Nothing else makes the session dirty, so it forgets the request. -/
def forgets (s : Session) (answer : SessionCreated) : Bool :=
  match s.waitingFor? with
  | some (body, bundled) =>
      s.data.tmgi.isSome && s.data.tmgi == answer.tmgi && s.data.tmgiAllocReq &&
        !(s.created body bundled answer).1.dirty
  | none => false

theorem dirty_of_created {s : Session} {body : MbsSession} {bundled : Option SubscriptionKey}
    {answer : SessionCreated} (h : (s.created body bundled answer).1.dirty = false) :
    s.dirty = false :=
  (Bool.or_eq_false_iff.1 h).1

-- The record that was sent is the one that the session still has.
theorem data_of_waitingFor? {s : Session} (h : s.Covered) (hclean : s.dirty = false)
    {body : MbsSession} {bundled : Option SubscriptionKey}
    (hwait : s.waitingFor? = some (body, bundled)) : body = s.data := by
  have hstep := h hclean
  rwa [InStep, (remote_of_waitingFor? hwait).2] at hstep

-- The TMGI of the answer is already there, and none is asked for.
theorem withAllocated_self {r : MbsSession} {tmgi : Tmgi} (h : r.tmgi = some tmgi)
    (hrequest : r.tmgiAllocReq = false) : r.withAllocated (some tmgi) = r := by
  obtain ⟨⟨own, ssm⟩, request⟩ := r
  obtain rfl : own = some tmgi := h
  obtain rfl : request = false := hrequest
  rfl

theorem covered_created {s : Session} (h : s.Covered) {body : MbsSession}
    {bundled : Option SubscriptionKey} (hwait : s.waitingFor? = some (body, bundled))
    {answer : SessionCreated} (hforgets : s.forgets answer = false) :
    (s.created body bundled answer).1.Covered := by
  intro hclean
  obtain rfl := data_of_waitingFor? h (dirty_of_created hclean) hwait
  refine (inStep_of_registered rfl).2 ?_
  show s.data.withAllocated answer.tmgi =
      (if s.data.tmgi.isNone then s.data.withAllocated answer.tmgi else s.data) ∨ _ ∨
    ((if s.data.tmgi.isNone then s.data.withAllocated answer.tmgi else s.data).mbsSessionId !=
      (s.data.withAllocated answer.tmgi).mbsSessionId) = true
  cases hanswer : answer.tmgi with
  | none => exact .inl (ite_self _).symm
  | some tmgi =>
    cases hown : s.data.tmgi with
    | none => exact .inl rfl
    | some own =>
      by_cases hsame : own = tmgi
      · rw [forgets, hwait, hown, hanswer] at hforgets
        have hrequest : s.data.tmgiAllocReq = false := by simpa [hsame, hclean] using hforgets
        exact .inl (withAllocated_self (hown.trans (congrArg some hsame)) hrequest)
      · -- the next push finds another identity
        refine .inr (.inr (bne_iff_ne.2 fun hid => hsame ?_))
        have htmgi := congrArg MbsSessionId.tmgi hid
        exact Option.some.inj (hown.symm.trans htmgi)

/-- **A clean session has sent its record**, whatever happens to it, if bodies are patched and no
answer forgets the request for a TMGI. -/
theorem covered_moved {s s' : Session} {m : Move} (h : s.Covered)
    (hconfig : ∀ config, m = .push config → config.sessionBodyPatch = true)
    (hforgets : ∀ answer, m = .created answer → s.forgets answer = false)
    (hs' : (s.moved m).1 = some s') : s'.Covered := by
  cases m with
  | change c =>
    rw [← Option.some.inj hs']
    cases hc : s.change c with
    | error e => exact h
    | ok t => exact covered_change h hc
  | markDeleted =>
    rw [← Option.some.inj hs']
    exact covered_of_dirty rfl
  | push config => exact covered_push (hconfig config rfl) h hs'
  | release => simp [moved] at hs'
  | created answer =>
    simp only [moved] at hs'
    split at hs' <;> rw [← Option.some.inj hs']
    · rename_i body bundled hwait
      exact covered_created h hwait (hforgets answer rfl)
    · exact h
  | refused problem =>
    simp only [moved] at hs'
    split at hs' <;> rw [← Option.some.inj hs']
    · exact covered_of_dirty rfl
    · exact h
  | timedOut =>
    simp only [moved] at hs'
    split at hs'
    · simp at hs'
    · rwa [← Option.some.inj hs']
  | patched result =>
    rw [← Option.some.inj hs']
    exact covered_patched h result
  | _ =>
    refine h.of_sameBody (sameBody_moved ?_ hs')
    exact trivial

/-! ## 4. A forgotten request -/

/-- The acknowledged record is there and does not differ. -/
def BodyKnown (s : Session) : Prop :=
  ∃ acked, s.acknowledged? = some acked ∧ Diff.values acked s.data = []

/-- No patch is outstanding, the identity is the acknowledged one, and nothing is marked to be
sent. -/
structure AtRest (s : Session) : Prop where
  registered : s.state = .registered
  clean : s.dirty = false
  unpatched : s.patching? = none
  identified : s.identityChanged = false

theorem bodyKnown_of_covered {s : Session} (h : s.Covered) (hrest : s.AtRest)
    (hnumbers : s.data.NoNaN) : s.BodyKnown := by
  obtain ⟨-, r, hr⟩ := registered_of_state hrest.registered
  have hstep := (inStep_of_registered hr).1 (h hrest.clean)
  have hpatching : r.patching = none := (patching?_of_registered hr).symm.trans hrest.unpatched
  simp only [hpatching, hrest.identified, Bool.false_eq_true, or_false] at hstep
  refine ⟨r.acked, by rw [acknowledged?, resource?_of_registered hr, Option.map_some], ?_⟩
  rcases hstep with hsame | hnone
  · rw [hsame]
    exact Diff.values_self (MbsSession.edits_self hnumbers)
  · exact hnone

-- A request that one record has and the other has not is an edit.
theorem edits_of_request {old new : MbsSession} (hold : old.tmgiAllocReq = false)
    (hnew : new.tmgiAllocReq = true) : Diff.values old new ≠ [] := by
  intro hnone
  have hedits : Member.differences Record.members old new = [] := List.map_eq_nil_iff.1 hnone
  have hflag := List.flatMap_eq_nil_iff.1 hedits (.flag "tmgiAllocReq" MbsSession.tmgiAllocReq)
    (List.mem_cons_of_mem _ List.mem_cons_self)
  simp [Member.flag, hold, hnew] at hflag

theorem atRest_of_forgets {s : Session} (h : s.Covered) {body : MbsSession}
    {bundled : Option SubscriptionKey} (hwait : s.waitingFor? = some (body, bundled))
    {answer : SessionCreated} (hforgets : s.forgets answer = true) :
    (s.created body bundled answer).1.AtRest ∧ ¬ (s.created body bundled answer).1.BodyKnown := by
  rw [forgets, hwait] at hforgets
  simp only [Bool.and_eq_true, Bool.not_eq_true', beq_iff_eq] at hforgets
  obtain ⟨⟨⟨hown, hsame⟩, hrequest⟩, hclean⟩ := hforgets
  obtain rfl := data_of_waitingFor? h (dirty_of_created hclean) hwait
  obtain ⟨tmgi, htmgi⟩ := Option.isSome_iff_exists.1 hown
  have hdata : (s.created s.data bundled answer).1.data = s.data := by
    show (if s.data.tmgi.isNone then s.data.withAllocated answer.tmgi else s.data) = s.data
    rw [htmgi]
    rfl
  have hanswer : answer.tmgi = some tmgi := hsame.symm.trans htmgi
  refine ⟨⟨?_, hclean, rfl, ?_⟩, ?_⟩
  · show (if s.deleted then _ else _) = _
    rw [(remote_of_waitingFor? hwait).1]
    rfl
  · rw [identityChanged, hdata, bne_eq_false_iff_eq]
    show s.data.mbsSessionId = (s.data.withAllocated answer.tmgi).mbsSessionId
    rw [hanswer, MbsSession.withAllocated, ← htmgi]
    rfl
  · rintro ⟨acked, hacked, hnone⟩
    have hacked : s.data.withAllocated answer.tmgi = acked := Option.some.inj hacked
    rw [hanswer] at hacked
    rw [hdata] at hnone
    exact edits_of_request (by rw [← hacked]; rfl) hrequest hnone

end Session

end MbsClient
