import MbsClient.Proofs.Context.Ledger

/-!
# Resources — every resource is owned by one session or has been removed

A resource comes in with the answer that reports it. From then on it is in exactly one place: with
the session that waited for it, or among the removed ones.
-/

namespace MbsClient

open Intent

/-- The resource that a successful answer reports. -/
def Action.createdResource? : Action → Option String
  | .event (.createResult _ (.ok answer)) => some answer.resourceId
  | _ => none

/-- The resources that the successful answers of a run report. -/
def createdResources (actions : List Action) : List String :=
  actions.filterMap Action.createdResource?

/-- The resource ids of the live sessions, session by session. -/
def World.resources (w : World) : List String :=
  w.context.sessions.values.filterMap Session.resourceId?

namespace Session

/-- The resource of a session as a list of at most one. -/
def owned (s : Session) : List String := s.resourceId?.toList

theorem owned_eq (s : Session) : s.owned = (s.holdings?.map Holdings.resource).toList := by
  rw [owned, resourceId?_eq]

-- A move that brings nothing in keeps the resource or sends its removal.
theorem count_owned_moved {s : Session} (hl : s.Labelled) {m : Move} (hm : m.Closed)
    (id : String) :
    s.owned.count id =
      (((s.moved m).1.map owned).getD []).count id + (removals (s.moved m).2).count id := by
  have heffect := effect_moved hl hm
  generalize (s.moved m).1 = s?, (s.moved m).2 = intents at heffect
  cases heffect with
  | kept hkept hrem hdel => simp [owned_eq, hkept, hrem]
  | left hs hperm hs' hrem hdel => simp [owned_eq, hs, hs', hrem]
  | queued hs hperm hs' hrem hdel => simp [owned_eq, hs, hs', hrem]
  | flushed hs hs' hrem hdel => simp [owned_eq, hs, hs', hrem]
  | released hm' hs hs' hrem hdel =>
    cases s? with
    | none => simp [owned_eq, hs, hrem]
    | some s' => simp [owned_eq, hs, hs' s' rfl, hrem]
  | gone hs hrem hdel => simp [owned_eq, hs, hrem]

end Session

namespace View

/-- The resources that are owned or have been removed. -/
def accounted (v : View) : List String := v.held Session.owned ++ removals v.emitted

theorem count_accounted_closed {v : View} (hk : v.Keyed) (hl : v.Labelled) {t : Transition}
    (ht : t.Closed) (id : String) : (v.apply t).accounted.count id = v.accounted.count id := by
  simp only [accounted, List.count_append]
  cases t with
  | opened =>
    rw [count_held_opened hk fun _ => rfl]
    rfl
  | moved key m =>
    cases h : v.sessions.get? key with
    | none => rw [apply_moved_none h]
    | some s =>
      have hput := count_held_put h Session.owned id (s.moved m).1 (s.moved m).2
      have hmoved := Session.count_owned_moved (hl key s h) ht id
      rw [apply_moved h]
      simp only [put, removals_append, List.count_append] at hput ⊢
      omega
  | orphaned intents => exact ht.elim

theorem count_accounted_foldl {v : View} (hk : v.Keyed) (hl : v.Labelled) {ts : List Transition}
    (hts : ∀ t ∈ ts, t.Closed) (id : String) :
    (ts.foldl apply v).accounted.count id = v.accounted.count id := by
  induction ts generalizing v with
  | nil => rfl
  | cons t ts ih =>
    rw [List.foldl_cons, ih (keyed_apply hk t) (labelled_apply hl t)
      fun u hu => hts u (List.mem_cons_of_mem _ hu)]
    exact count_accounted_closed hk hl (hts t List.mem_cons_self) id

end View

namespace World

-- A creation brings its resource to the session that waits for it, or has it removed.
theorem count_accounted_created {w : World} (hk : w.view.Keyed) (key : SessionKey)
    (answer : SessionCreated) (id : String) :
    (w.act (.event (.createResult key (.ok answer)))).view.accounted.count id =
      w.view.accounted.count id + [answer.resourceId].count id := by
  cases hw : (w.context.session? key).bind Session.waitingFor? with
  | none =>
    have hremoved : removals (Context.removeOrphan key (.ok answer)) = [answer.resourceId] :=
      congrArg (answer.resourceId :: ·) (removals_map_delete _)
    rw [view_act_orphan hk hw]
    simp only [View.accounted, View.held, View.apply, removals_append, hremoved,
      List.count_append]
    omega
  | some p =>
    obtain ⟨s, hs, hwait⟩ := Option.bind_eq_some_iff.1 hw
    have hget : w.view.sessions.get? key = some s := hs
    have hput := View.count_held_put hget Session.owned id (some (s.created p.1 p.2 answer).1) []
    rw [view_act_created hk hs hwait]
    simp only [Option.map_some, Option.getD_some, Session.owned_eq, Session.holdings?_created,
      Session.holdings?_of_waitingFor? hwait, Option.map_none, Option.toList_none,
      Option.toList_some, List.count_nil] at hput
    simp only [View.accounted, List.count_append, View.put, List.append_nil] at hput ⊢
    omega

-- The creation of a subscription leaves the resources alone.
theorem count_accounted_confirmed {w : World} (hk : w.view.Keyed) (key : SubscriptionKey)
    (ack : SubscriptionAck) (id : String) :
    (w.act (.event (.subscriptionCreated key (.ok ack)))).view.accounted.count id =
      w.view.accounted.count id := by
  cases hc : ((w.context.owners.get? key).bind w.context.session?).bind
      (·.subscriptionCreated? key (.ok ack)) with
  | none =>
    have hremoved : removals [deleteSubscription ack.id] = [] := rfl
    rw [view_act_unclaimed hk hc]
    simp only [View.accounted, View.held, View.apply, removals_append, hremoved, List.append_nil]
  | some p =>
    obtain ⟨s, hos, hcreated⟩ := Option.bind_eq_some_iff.1 hc
    obtain ⟨o, ho, hs⟩ := Context.get?_of_owner hos
    obtain ⟨r, confirmed, hr, hheld⟩ := Session.holdings?_subscriptionCreated? hcreated
    have hget : w.view.sessions.get? o = some s := hs
    have hput := View.count_held_put hget Session.owned id (some p.1) []
    rw [view_act_confirmed hk ho hs hcreated]
    simp only [Option.map_some, Option.getD_some, Session.owned_eq, hheld,
      Session.holdings?_of_registered hr] at hput
    simp only [View.accounted, List.count_append, View.put, List.append_nil] at hput ⊢
    omega

-- An action accounts for the resource that it reports and for no other.
theorem count_accounted_act {w : World} (hk : w.view.Keyed) (hl : w.view.Labelled) (a : Action)
    (id : String) :
    (w.act a).view.accounted.count id =
      w.view.accounted.count id + a.createdResource?.toList.count id := by
  rcases a.closed_or with ha | ⟨key, answer, rfl⟩ | ⟨key, ack, rfl⟩
  · have hnone : a.createdResource? = none := by
      unfold Action.createdResource?
      split
      · exact ha.elim
      · rfl
    rw [view_act hk, View.count_accounted_foldl hk hl (Context.closed_script ha), hnone]
    rfl
  · exact count_accounted_created hk key answer id
  · exact count_accounted_confirmed hk key ack id

-- What is owned or has been removed is what has been reported, with repetitions.
theorem count_resources_run (config : ClientConfig) (actions : List Action) (id : String) :
    (run config actions).resources.count id + (removals (run config actions).emitted).count id =
      (createdResources actions).count id := by
  have hsum : (run config actions).view.accounted.count id =
      (createdResources actions).count id := by
    induction actions using List.reverseRecOn with
    | nil => rfl
    | append_singleton actions a ih =>
      rw [run_snoc, count_accounted_act (keyed_run config actions) (labelled_run config actions),
        ih, createdResources, createdResources, List.filterMap_append, List.count_append]
      cases ha : a.createdResource? <;> simp [ha]
  rw [← hsum, View.accounted, List.count_append, resources, List.filterMap_eq_flatMap_toList]
  rfl

end World

/-- **Resources are owned linearly.** If no two successful answers report one resource, each
resource that has been reported belongs to exactly one session and has not been removed, or
belongs to none and has been removed exactly once. -/
theorem resources_owned_linearly (config : ClientConfig) (actions : List Action)
    (hfresh : (createdResources actions).Nodup) {id : String}
    (hid : id ∈ createdResources actions) :
    ((World.run config actions).resources.count id = 1 ∧
        (removals (World.run config actions).emitted).count id = 0) ∨
      (World.run config actions).resources.count id = 0 ∧
        (removals (World.run config actions).emitted).count id = 1 := by
  have hsum := World.count_resources_run config actions id
  rw [hfresh.count, if_pos hid] at hsum
  omega

/-- A resource that a session gets and keeps, and one that comes after the session is gone. -/
def recreated : List Action :=
  [.newSession, .push 1, .event (.createResult 1 (.ok { resourceId := "a" })), .newSession,
    .push 2, .deleteSession 2, .push 2, .event (.createResult 2 (.ok { resourceId := "b" }))]

theorem resources_owned_linearly_recreated :
    (createdResources recreated).Nodup ∧ "b" ∈ createdResources recreated ∧
      (((World.run {} recreated).resources.count "b" = 1 ∧
          (removals (World.run {} recreated).emitted).count "b" = 0) ∨
        (World.run {} recreated).resources.count "b" = 0 ∧
          (removals (World.run {} recreated).emitted).count "b" = 1) := by
  have hfresh : (createdResources recreated).Nodup := by decide
  have hid : "b" ∈ createdResources recreated := by decide
  exact ⟨hfresh, hid, resources_owned_linearly {} recreated hfresh hid⟩

end MbsClient
