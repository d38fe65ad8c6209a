import MbsClient.Proofs.Context.Invariant
import MbsClient.Proofs.Session.Pending

/-!
# Pending work — no change of a subscription is lost

Along every run a subscription that is clean is in step with the MB-SMF or waits for it, and a
registered session with anything to send is dirty. So the next push sends all of it
(`no_subscription_work_lost`).
-/

namespace MbsClient

namespace Session

/-- Both layers of marks are right. -/
structure Marked (s : Session) : Prop where
  rides : s.Rides
  tracked : s.Tracked
  flagged : s.Flagged

end Session

namespace World

theorem marked_run (config : ClientConfig) (actions : List Action) :
    (run config actions).view.All Session.Marked := by
  refine all_run (fun key => ⟨Session.rides_new key, Session.tracked_new key,
    Session.flagged_new key⟩) ?_ actions
  intro m s s' _ hn h hs'
  exact ⟨Session.rides_moved h.rides hs', Session.tracked_moved hn h.rides h.tracked hs',
    Session.flagged_moved hn h.flagged hs'⟩

-- A push emits what the session has to send.
theorem emitted_push {w : World} (hk : w.view.Keyed) {key : SessionKey} {s : Session}
    (hs : w.context.session? key = some s) :
    (w.act (.push key)).emitted = w.emitted ++ (s.push w.context.config).2 := by
  have hview : (w.act (.push key)).view.emitted =
      (w.view.apply (.moved key (.push w.context.config))).emitted := by
    rw [view_act hk]
    rfl
  have hget : w.view.sessions.get? key = some s := hs
  rw [View.apply_moved hget] at hview
  exact hview

end World

/-- **No work on subscriptions is lost.** Under a registered session, a new subscription that waits
for nothing is dirty; a registered one that is clean and waits for nothing is as it is acknowledged;
and the session is dirty as long as one of them is due or is to be deleted. If its identity is the
acknowledged one, the next push sends all of it, in order, and nothing else about subscriptions. -/
theorem no_subscription_work_lost (config : ClientConfig) (actions : List Action)
    {key : SessionKey} {s : Session}
    (hs : (World.run config actions).context.session? key = some s)
    (hstate : s.state = .registered) :
    (∀ sub ∈ s.pendingNew, sub.isInFlight = false → sub.dirty = true) ∧
    (∀ sub ∈ s.active.values, ∃ acked, sub.acked = some acked ∧
      (sub.dirty = false → sub.isInFlight = false → Diff.values acked sub.data = [])) ∧
    ((∃ sub ∈ s.subscriptions, sub.isDue = true) ∨ s.pendingDelete ≠ [] → s.dirty = true) ∧
    (s.identityChanged = false → ∃ r intents, s.remote = .registered r ∧
      ((World.run config actions).act (.push key)).emitted =
        (World.run config actions).emitted ++ intents ∧
      intents.filter Intent.isForSubscription = s.dueRequests config r) := by
  have hmarked := World.marked_run config actions key s hs
  obtain ⟨hdeleted, r, hr⟩ := Session.registered_of_state hstate
  refine ⟨fun sub hsub hin => ?_, fun sub hsub => ?_, fun hdue => ?_, fun hsame => ?_⟩
  · by_contra hclean
    have hsent := hmarked.tracked.new sub hsub (Bool.eq_false_iff.2 hclean)
    simp [Subscription.isInFlight, hsent] at hin
  · obtain ⟨id, hget⟩ := SortedMap.mem_values.1 hsub
    obtain ⟨acked, hacked, hstep⟩ := hmarked.tracked.active id sub hget
    refine ⟨acked, hacked, fun hclean hin => ?_⟩
    rcases hstep hclean with hsent | ⟨-, hsame⟩
    · simp [Subscription.isInFlight, hsent] at hin
    · exact hsame
  · by_contra hclean
    obtain ⟨hnone, hempty⟩ := hmarked.flagged r hr (Bool.eq_false_iff.2 hclean)
    rcases hdue with ⟨sub, hsub, hdue⟩ | hleaving
    · simp [hnone sub hsub] at hdue
    · exact hleaving ((Session.pendingDelete_of_registered hr).trans hempty)
  · refine ⟨r, _, hr, World.emitted_push (World.keyed_run config actions) hs, ?_⟩
    rw [World.config_run]
    exact Session.requests_push hmarked.tracked hmarked.flagged hr hdeleted hsame config

/-- A registered session with a subscription to create, one to change and one to delete. -/
def busy : List Action :=
  [.newSession, .push 1, .event (.createResult 1 (.ok { resourceId := "r" })),
    .addSubscription 1 {}, .addSubscription 1 {}, .push 1,
    .event (.subscriptionCreated 1 (.ok { id := "a" })),
    .event (.subscriptionCreated 2 (.ok { id := "b" })),
    .updateSubscription 1 [.correlationId (some "c")], .removeSubscription 2,
    .addSubscription 1 {}]

/-- All three are pending, and the next push sends them. -/
theorem no_subscription_work_lost_busy : ∃ s r intents,
    (World.run {} busy).context.session? 1 = some s ∧ s.state = .registered ∧ s.dirty = true ∧
      s.remote = .registered r ∧
      ((World.run {} busy).act (.push 1)).emitted = (World.run {} busy).emitted ++ intents ∧
      intents.filter Intent.isForSubscription = s.dueRequests {} r ∧
      (s.dueRequests {} r).map Intent.name =
        ["CreateSubscription", "UpdateSubscription", "DeleteSubscription"] := by
  have hs : (World.run {} busy).context.session? 1 =
      some (((World.run {} busy).context.session? 1).getD { key := 0 }) := rfl
  obtain ⟨-, -, hdirty, hpush⟩ := no_subscription_work_lost {} busy hs rfl
  obtain ⟨r, intents, hr, hemitted, hrequests⟩ := hpush rfl
  refine ⟨_, r, intents, hs, rfl, hdirty (.inr (by decide)), hr, hemitted, hrequests, ?_⟩
  rw [← Remote.registered.inj hr]
  rfl

end MbsClient
