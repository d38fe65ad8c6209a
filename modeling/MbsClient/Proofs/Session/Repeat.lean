import MbsClient.Proofs.Session.Identity
import MbsClient.Proofs.Session.Pending
import MbsClient.Proofs.Session.Spared
import MbsClient.Proofs.Session.Traffic

/-!
# Repeat — a session that has just been pushed has nothing to send

A push leaves a creation that is waited for, or a resource of which everything that was due has been
sent. A body that waits behind another patch keeps the session dirty, but it cannot be sent yet
either. So the next push leaves the session as it is (`push_push`).
-/

namespace MbsClient.Session

variable {s s' : Session} {r : Resource} {config : ClientConfig}

/-! ## 1. Resources of which everything has been sent -/

/-- A registered session has nothing to send that it can send. -/
structure Spent (config : ClientConfig) (s : Session) (r : Resource) : Prop where
  remote : s.remote = .registered r
  due : ∀ sub ∈ s.subscriptions, sub.isDue = false
  leaving : r.pendingDelete = []
  /-- The body of a dirty session waits behind another patch. -/
  body : s.dirty = true → config.sessionBodyPatch = true ∧ r.patching.isSome = true

theorem dirty_pushBody {s : Session} (h : s.dirty = false) (r : Resource) :
    (s.pushBody r).1.dirty = true → (s.pushBody r).2.1.patching.isSome = true := by
  unfold pushBody
  split
  · rename_i body hpatching
    intro _
    rw [hpatching]
    rfl
  · split <;> simp [h]

theorem spent_pushSubscriptions
    (hbody : s.dirty = true → config.sessionBodyPatch = true ∧ r.patching.isSome = true) :
    ∃ r', Spent config (s.pushSubscriptions config r).1 r' :=
  ⟨_, rfl, isDue_pushSubscriptions config s r, rfl, hbody⟩

theorem spent_reconcile (config : ClientConfig) (s : Session) (r : Resource) :
    ∃ r', Spent config (s.reconcile config r).1 r' := by
  simp only [reconcile]
  cases hpatch : config.sessionBodyPatch with
  | true =>
    refine spent_pushSubscriptions fun hdirty => ⟨hpatch, ?_⟩
    exact dirty_pushBody (s := { s with dirty := false }) rfl r hdirty
  | false => exact spent_pushSubscriptions fun hdirty => Bool.noConfusion hdirty

theorem pushSubscriptions_of_spent (h : Spent config s r) :
    s.pushSubscriptions config r = (s, []) := by
  have hnew : s.pendingNew.map (s.pushNew config r) = s.pendingNew.map fun sub => (sub, []) :=
    List.map_congr_left fun sub hsub =>
      pushNew_of_not_due (h.due sub (List.mem_append_left _ hsub)) config s r
  have hkept : (s.pendingNew.map fun sub => (sub, ([] : List Intent))).map Prod.fst =
      s.pendingNew := by
    rw [List.map_map]
    exact List.map_id s.pendingNew
  have hvalues : ∀ sub ∈ r.active.values, sub.isDue = false := by
    intro sub hsub
    rw [← active_of_registered h.remote] at hsub
    exact h.due sub (List.mem_append_right _ hsub)
  obtain ⟨hactive, hsilent⟩ := active_of_not_due hvalues
  have hresource : { r with pendingDelete := [] } = r := by rw [← h.leaving]
  have hsession : { s with remote := .registered r } = s := by rw [← h.remote]
  simp only [pushSubscriptions, hnew, hkept, hactive, hsilent, h.leaving, hresource, hsession]
  simp [List.flatMap_map]

-- All that a reconciliation can find is a body that still has to wait.
theorem reconcile_of_spent (h : Spent config s r) (hdirty : s.dirty = true) :
    s.reconcile config r = (s, []) := by
  obtain ⟨hpatch, hsome⟩ := h.body hdirty
  obtain ⟨body, hpatching⟩ := Option.isSome_iff_exists.1 hsome
  have hsession : { s with dirty := true } = s := by rw [← hdirty]
  have hbody : pushBody { s with dirty := false } r = (s, r, []) := by
    simp only [pushBody, hpatching]
    rw [hsession]
  simp only [reconcile, hpatch, if_true, hbody, pushSubscriptions_of_spent h]
  rfl

/-! ## 2. Pushes -/

theorem push_of_spent (h : Spent config s r) (hkept : s.deleted = false)
    (hsame : s.identityChanged = false) : s.push config = (some s, []) := by
  simp only [push, hkept, h.remote, hsame]
  cases hdirty : s.dirty with
  | false => rfl
  | true =>
    rw [reconcile_of_spent h hdirty]
    rfl

theorem push_of_creating {body : MbsSession} {bundled : Option SubscriptionKey}
    (hkept : s.deleted = false) (hremote : s.remote = .creating body bundled) :
    s.push config = (some s, []) := by
  simp [push, hkept, hremote]

/-- **A push does nothing after another**: it sends nothing and leaves the session as it is. -/
theorem push_push (h : (s.push config).1 = some s') : s'.push config = (some s', []) := by
  have hdata := data_of_push h
  have hidentity := identity_of_push h
  have hpushes := s.pushes config
  generalize hq : s.push config = q at hpushes h
  cases hpushes with
  | removed => cases h
  | created hkept =>
    rw [← Option.some.inj h]
    exact push_of_creating hkept rfl
  | recreated hkept =>
    rw [← Option.some.inj h]
    exact push_of_creating hkept rfl
  | @reconciled r hkept hremote hsame =>
    obtain ⟨r', hspent⟩ := spent_reconcile config s r
    rw [Option.some.inj h] at hspent
    refine push_of_spent hspent ?_ ?_
    · rw [← Option.some.inj h, deleted_reconcile, hkept]
    · rwa [identityChanged, hdata, hidentity]
  | idle =>
    rw [← Option.some.inj h]
    exact hq

end MbsClient.Session
