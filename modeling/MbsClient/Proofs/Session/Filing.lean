import MbsClient.Proofs.Session.Origins

/-!
# Filing — subscriptions lie where they belong

Every subscription of a session names it. Of those that the MB-SMF does not know, or will not know
after the next push, nothing is acknowledged.
-/

namespace MbsClient

namespace Session

/-- The subscriptions of all buckets. -/
def held (s : Session) : List Subscription := s.subscriptions ++ s.pendingDelete.map Prod.snd

theorem map_key_held (s : Session) : s.held.map Subscription.key = s.subscriptionKeys := by
  rw [held, List.map_append, List.map_map]
  rfl

structure Filed (s : Session) : Prop where
  new : ∀ sub ∈ s.pendingNew, sub.session = s.key ∧ sub.acked = none
  active : ∀ id sub, s.active.get? id = some sub → sub.session = s.key
  leaving : ∀ id sub, (id, sub) ∈ s.pendingDelete →
    sub.session = s.key ∧ sub.id = none ∧ sub.acked = none

theorem filed_new (key : SessionKey) : Filed { key } where
  new := by simp
  active id sub h := by simp [active] at h
  leaving id sub h := by simp [pendingDelete] at h

theorem Filed.subscriptions {s : Session} (h : s.Filed) (sub : Subscription)
    (hsub : sub ∈ s.subscriptions) : sub.session = s.key := by
  rcases mem_subscriptions.1 hsub with hsub | ⟨id, hsub⟩
  · exact (h.new sub hsub).1
  · exact h.active id sub hsub

theorem Filed.held {s : Session} (h : s.Filed) {sub : Subscription} (hsub : sub ∈ s.held) :
    sub.session = s.key := by
  rcases List.mem_append.1 hsub with hsub | hsub
  · exact h.subscriptions sub hsub
  · obtain ⟨⟨id, t⟩, ht, rfl⟩ := List.mem_map.1 hsub
    exact (h.leaving id t ht).1

/-! ## What is done to a subscription -/

theorem foldl_change_session (changes : List SubscriptionChange) (sub : Subscription) :
    (changes.foldl Subscription.change sub).session = sub.session :=
  foldl_change (f := Subscription.session) (fun _ c => by cases c <;> rfl) changes sub

theorem foldl_change_acked (changes : List SubscriptionChange) (sub : Subscription) :
    (changes.foldl Subscription.change sub).acked = sub.acked :=
  foldl_change (f := Subscription.acked) (fun _ c => by cases c <;> rfl) changes sub

theorem filed_of_newFrom {s : Session} (h : s.Filed) {m : Move} {sub : Subscription}
    (hsub : NewFrom s m sub) : sub.session = s.key ∧ sub.acked = none := by
  cases hsub with
  | kept hmem => exact h.new sub hmem
  | takenOver => exact ⟨rfl, rfl⟩
  | @changed key changes t hmem =>
    obtain ⟨hsession, hacked⟩ := h.new t hmem
    exact ⟨(foldl_change_session changes t).trans hsession,
      (foldl_change_acked changes t).trans hacked⟩
  | @sent config t hmem => exact h.new t hmem
  | @requeued config t hmem => exact ⟨h.subscriptions t hmem, rfl⟩
  | @resent config t hmem => exact ⟨h.subscriptions t hmem, rfl⟩
  | @failed m t hmem => exact h.new t hmem

theorem session_of_activeFrom {s : Session} (h : s.Filed) {m : Move} {id : String}
    {sub : Subscription} (hsub : ActiveFrom s m id sub) : sub.session = s.key := by
  cases hsub with
  | kept hmem => exact h.active id sub hmem
  | @changed key changes id t hmem =>
    exact (foldl_change_session changes t).trans (h.active id t hmem)
  | @unchanged config id t hmem hdue hsame => exact h.active id t hmem
  | @sent config id t hmem => exact h.active id t hmem
  | @confirmed m id t expiry hmem hin => exact h.active id t hmem
  | @failed m id t hmem => exact h.active id t hmem
  | @created m id t expiry hmem hin => exact (h.new t hmem).1

/-- **Subscriptions stay where they belong**, whatever a session does. -/
theorem filed_moved {s s' : Session} (hn : s.subscriptionKeys.Nodup) (hrides : s.Rides)
    (h : s.Filed) {m : Move} (hs' : (s.moved m).1 = some s') : s'.Filed := by
  have horigins := origins_moved hn hrides hs'
  have hkey : s'.key = s.key := key_of_moved hs'
  refine ⟨fun sub hsub => ?_, fun id sub hsub => ?_, fun id sub hsub => ?_⟩ <;> rw [hkey]
  · exact filed_of_newFrom h (horigins.new sub hsub)
  · exact session_of_activeFrom h (horigins.active id sub hsub)
  · cases horigins.leaving id sub hsub with
    | kept id' hmem => exact h.leaving id' sub hmem
    | @withdrawn t hmem => exact ⟨h.subscriptions t hmem, rfl, rfl⟩

end Session

end MbsClient
