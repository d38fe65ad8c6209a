import MbsClient.Proofs.Session.Move

/-!
# Identity — what the MB-SMF last acknowledged a session under

Only an accepted creation gives a session another identity; all other moves that leave the session
in place leave it its identity (`identity_moved`).
-/

namespace MbsClient.Session

theorem identity_of_detach? {s s' : Session} {key : SubscriptionKey} {sub : Subscription}
    (h : s.detach? key = some (sub, s')) : s'.identity = s.identity := by
  unfold detach? at h
  split at h
  · obtain ⟨-, rfl⟩ := Prod.mk.inj (Option.some.inj h)
    rfl
  · obtain ⟨e, -, he⟩ := Option.map_eq_some_iff.1 h
    obtain ⟨-, rfl⟩ := Prod.mk.inj he
    rfl

theorem identity_of_removeSubscription {s s' : Session} {key : SubscriptionKey}
    (h : s.removeSubscription key = .ok s') : s'.identity = s.identity := by
  unfold removeSubscription at h
  split at h
  · simp at h
  · rename_i sub t hdetach
    have ht := identity_of_detach? hdetach
    split at h
    · rw [← Except.ok.inj h]
      exact ht
    · rw [← Except.ok.inj h]
      exact ht

theorem identity_pushBody (s : Session) (r : Resource) :
    (s.pushBody r).1.identity = s.identity := by
  unfold pushBody
  split
  · rfl
  · split <;> rfl

theorem identity_reconcile (config : ClientConfig) (s : Session) (r : Resource) :
    (s.reconcile config r).1.identity = s.identity := by
  simp only [reconcile, pushSubscriptions]
  split
  · exact identity_pushBody _ r
  · rfl

theorem identity_of_push {s s' : Session} {config : ClientConfig}
    (h : (s.push config).1 = some s') : s'.identity = s.identity := by
  have hpushes := s.pushes config
  generalize s.push config = q at hpushes h
  cases hpushes with
  | removed => cases h
  | created => rw [← Option.some.inj h]; rfl
  | recreated => rw [← Option.some.inj h]; rfl
  | reconciled => rw [← Option.some.inj h, identity_reconcile]
  | idle => rw [← Option.some.inj h]

theorem identity_patched (s : Session) (result : OperationResult) :
    (s.patched result).1.identity = s.identity := by
  unfold patched
  split
  · split <;> rfl
  · rfl

theorem identity_of_subscriptionCreated? {s s' : Session} {key : SubscriptionKey}
    {result : Except OperationResult SubscriptionAck} {calls : List Call}
    (h : s.subscriptionCreated? key result = some (s', calls)) : s'.identity = s.identity := by
  unfold subscriptionCreated? at h
  split at h
  · split at h
    · simp at h
    · split at h
      · obtain ⟨rfl, -⟩ := Prod.mk.inj (Option.some.inj h)
        rfl
      · obtain ⟨rfl, -⟩ := Prod.mk.inj (Option.some.inj h)
        rfl
  · simp at h

theorem identity_subscriptionUpdated (s : Session) (key : SubscriptionKey)
    (result : Except OperationResult SubscriptionAck) :
    (s.subscriptionUpdated key result).1.identity = s.identity := by
  unfold subscriptionUpdated
  split
  · rfl
  · split <;> rfl

/-- The session stays, and so does its identity. -/
def Move.Plain : Move → Prop
  | .push _ => False
  | .release => False
  | .created _ => False
  | .timedOut => False
  | _ => True

theorem identity_moved (s : Session) {m : Move} (hm : m.Plain) :
    ∃ s', (s.moved m).1 = some s' ∧ s'.identity = s.identity := by
  cases m <;> simp only [moved]
  case push config => exact hm.elim
  case release => exact hm.elim
  case created answer => exact hm.elim
  case timedOut => exact hm.elim
  case watch => exact ⟨_, rfl, rfl⟩
  case change c =>
    refine ⟨_, rfl, ?_⟩
    cases hc : s.change c with
    | error e => rfl
    | ok t =>
      obtain ⟨data, dirty, rfl⟩ := eq_of_change hc
      rfl
  case markDeleted => exact ⟨_, rfl, rfl⟩
  case takeOver sub => exact ⟨_, rfl, rfl⟩
  case letGo key =>
    split
    · rename_i sub t hdetach
      exact ⟨t, rfl, identity_of_detach? hdetach⟩
    · exact ⟨s, rfl, rfl⟩
  case withdraw key =>
    refine ⟨_, rfl, ?_⟩
    cases hr : s.removeSubscription key with
    | error e => rfl
    | ok t => exact identity_of_removeSubscription hr
  case modify key changes => split <;> exact ⟨_, rfl, rfl⟩
  case refused problem => split <;> exact ⟨_, rfl, rfl⟩
  case patched result => exact ⟨_, rfl, identity_patched s result⟩
  case subscriptionCreated key result =>
    split
    · rename_i t calls hcreated
      exact ⟨t, rfl, identity_of_subscriptionCreated? hcreated⟩
    · exact ⟨s, rfl, rfl⟩
  case subscriptionUpdated key result => exact ⟨_, rfl, identity_subscriptionUpdated s key result⟩

end MbsClient.Session
