import MbsClient.Proofs.Context.Releases

/-!
# Registrations — what becomes of the subscriptions that the MB-SMF reports

An id that an answer reports is held by a session, has been deleted, or went with the resource it
was created under. Two kinds of ids leak: those of a rider that had gone when its creation was
answered, and those held by a session whose resource is not the one they were created under.
-/

namespace MbsClient

open Intent

/-- The subscription that a successful answer reports. -/
def Action.reportedSubscription? : Action → Option String
  | .event (.createResult _ (.ok answer)) => answer.subscriptionId
  | .event (.subscriptionCreated _ (.ok ack)) => some ack.id
  | _ => none

/-- The subscriptions that the successful answers of a run report. -/
def reportedSubscriptions (actions : List Action) : List String :=
  actions.filterMap Action.reportedSubscription?

/-- The id that the answer to a creation gives to nothing, since the rider has gone. -/
def Session.dropped (s : Session) (answer : SessionCreated) : List String :=
  match s.waitingFor? with
  | some (_, bundled) => if (s.rider? bundled).isNone then answer.subscriptionId.toList else []
  | none => []

namespace World

/-- A subscription has not been forgotten. What it was created under is its `home`. -/
inductive Accounted (home : String → String) (w : World) (id : String) : Prop
  | active {key s} (hs : w.context.session? key = some s) (hid : id ∈ s.active.keys)
  | leaving {key s} (hs : w.context.session? key = some s) (hid : id ∈ s.pendingDelete.map Prod.fst)
  | deleted (hid : .deleteSubscription id ∈ w.emitted)
  | removed {key} (hhome : .removeResource key (home id) ∈ w.emitted)

/-- The id that an answer gives to a rider that has gone by then. -/
def dropped (w : World) : Action → List String
  | .event (.createResult key (.ok answer)) =>
      match w.context.session? key with
      | some s => s.dropped answer
      | none => []
  | _ => []

/-- The ids that a released session holds from elsewhere, so that they do not go with its
resource. -/
def stranded (home : String → String) (w : World) (a : Action) : List String :=
  (w.released a).flatMap fun s => s.ids.filter fun id => s.resourceId? != some (home id)

/-- The ids that leak along a run. -/
def leaks (home : String → String) (config : ClientConfig) (actions : List Action) : List String :=
  along (fun w a => w.dropped a ++ w.stranded home a) { context := { config } } actions

/-! ## 1. Counting the ids of a run -/

variable {w : World}

-- Either way an id of a creation is registered or dropped.
theorem count_registered_created (hk : w.view.Keyed) (key : SessionKey) (answer : SessionCreated)
    (id : String) :
    (w.act (.event (.createResult key (.ok answer)))).view.registered.count id +
        (w.dropped (.event (.createResult key (.ok answer)))).count id =
      w.view.registered.count id + answer.subscriptionId.toList.count id := by
  cases hw : (w.context.session? key).bind Session.waitingFor? with
  | none =>
    -- nobody waits, so the id is deleted
    have hdropped : w.dropped (.event (.createResult key (.ok answer))) = [] := by
      cases hs : w.context.session? key with
      | none => simp only [dropped, hs]
      | some s =>
        rw [hs, Option.bind_some] at hw
        simp only [dropped, hs, Session.dropped, hw]
    have hdeleted : deletions (Context.removeOrphan key (.ok answer)) =
        answer.subscriptionId.toList := deletions_map_delete _
    rw [view_act_orphan hk hw, hdropped]
    simp only [View.registered, View.held, View.apply, deletions_append, hdeleted,
      List.count_append, List.count_nil]
    omega
  | some p =>
    obtain ⟨s, hs, hwait⟩ := Option.bind_eq_some_iff.1 hw
    have hget : w.view.sessions.get? key = some s := hs
    have hput := View.count_held_put hget Session.ids id (some (s.created p.1 p.2 answer).1) []
    have hbefore : s.ids = [] :=
      Session.ids_of_holdings?_none (Session.holdings?_of_waitingFor? hwait)
    have hafter := Session.ids_of_holdings? (Session.holdings?_created s p.1 p.2 answer)
    -- the rider gets the id, or nothing does
    have hsettled : (s.settled p.2 answer).count id +
        (w.dropped (.event (.createResult key (.ok answer)))).count id =
          answer.subscriptionId.toList.count id := by
      simp only [dropped, hs, Session.dropped, hwait, Session.settled]
      cases s.rider? p.2 <;> simp
    rw [view_act_created hk hs hwait]
    simp only [Option.map_some, Option.getD_some, hbefore, hafter, List.append_nil,
      List.count_nil] at hput
    simp only [View.registered, List.count_append, View.put, List.append_nil] at hput ⊢
    omega

-- An id that comes back for a subscription is registered, provided that it is new.
theorem count_registered_confirmed (hk : w.view.Keyed) (key : SubscriptionKey)
    {ack : SubscriptionAck} (hnew : ack.id ∉ w.view.registered) (id : String) :
    (w.act (.event (.subscriptionCreated key (.ok ack)))).view.registered.count id =
      w.view.registered.count id + [ack.id].count id := by
  cases hc : ((w.context.owners.get? key).bind w.context.session?).bind
      (·.subscriptionCreated? key (.ok ack)) with
  | none =>
    rw [view_act_unclaimed hk hc]
    simp only [View.registered, View.held, View.apply, deletions_append,
      List.count_append]
    have hdeleted : deletions [deleteSubscription ack.id] = [ack.id] := rfl
    rw [hdeleted]
    omega
  | some p =>
    obtain ⟨s, hos, hcreated⟩ := Option.bind_eq_some_iff.1 hc
    obtain ⟨o, ho, hs⟩ := Context.get?_of_owner hos
    obtain ⟨r, confirmed, hr, hheld⟩ := Session.holdings?_subscriptionCreated? hcreated
    have hget : w.view.sessions.get? o = some s := hs
    have hput := View.count_held_put hget Session.ids id (some p.1) []
    have hbefore := Session.ids_of_holdings? (Session.holdings?_of_registered hr)
    have hafter := Session.ids_of_holdings? hheld
    -- an old id would have taken the place of the subscription that had it
    have hactive : ack.id ∉ r.active.keys := by
      intro hmem
      apply hnew
      apply List.mem_append_left
      refine List.mem_flatMap.2 ⟨s, SortedMap.mem_values.2 ⟨o, hget⟩, ?_⟩
      rw [hbefore]
      exact List.mem_append_left _ hmem
    have hinsert := (SortedMap.perm_keys_insert hactive confirmed).count_eq id
    rw [view_act_confirmed hk ho hs hcreated]
    simp only [Option.map_some, Option.getD_some, hbefore, hafter] at hput
    simp only [View.registered, List.count_append, View.put, List.append_nil, Resource.holdings,
      List.count_cons, List.count_nil] at hput hinsert ⊢
    omega

/-- The ids that an action leaves unheld and undeleted. -/
def lost (w : World) (a : Action) : List String :=
  w.dropped a ++ (w.released a).flatMap Session.ids

theorem count_registered_act (hk : w.view.Keyed) (hl : w.view.Labelled) (a : Action)
    (hnew : ∀ id ∈ a.reportedSubscription?, id ∉ w.view.registered) (id : String) :
    (w.act a).view.registered.count id + (w.lost a).count id =
      w.view.registered.count id + a.reportedSubscription?.toList.count id := by
  rw [lost, List.count_append]
  rcases a.closed_or with ha | ⟨key, answer, rfl⟩ | ⟨key, ack, rfl⟩
  · have hnone : a.reportedSubscription? = none := by
      unfold Action.reportedSubscription?
      split
      · exact ha.elim
      · exact ha.elim
      · rfl
    have hdropped : w.dropped a = [] := by
      unfold dropped
      split
      · exact ha.elim
      · rfl
    have hfoldl := View.count_registered_foldl hk hl (Context.closed_script (c := w.context) ha) id
    rw [releasings_script] at hfoldl
    rw [view_act hk, hnone, hdropped]
    simp only [Option.toList_none, List.count_nil]
    omega
  · have hcreated := count_registered_created hk key answer id
    simp only [released, List.flatMap_nil, List.count_nil]
    exact hcreated
  · have hconfirmed := count_registered_confirmed hk key (hnew ack.id rfl) id
    simp only [dropped, released, List.flatMap_nil, List.count_nil]
    exact hconfirmed

-- An id that has been reported is registered or lost, and only once.
theorem count_registered_run (config : ClientConfig) {actions : List Action}
    (hfresh : (reportedSubscriptions actions).Nodup) (id : String) :
    (run config actions).view.registered.count id +
        (along lost { context := { config } } actions).count id =
      (reportedSubscriptions actions).count id := by
  induction actions using List.reverseRecOn generalizing id with
  | nil => rfl
  | append_singleton actions a ih =>
    rw [reportedSubscriptions, List.filterMap_append, ← reportedSubscriptions] at hfresh
    obtain ⟨hbefore, -, hdisjoint⟩ := List.nodup_append.1 hfresh
    -- what is registered has been reported, so a fresh id is not registered yet
    have hnew : ∀ id ∈ a.reportedSubscription?, id ∉ (run config actions).view.registered := by
      intro id hid hmem
      have hsum := ih hbefore id
      have hpos := List.count_pos_iff.2 hmem
      have hold : id ∈ reportedSubscriptions actions := List.count_pos_iff.1 (by omega)
      refine hdisjoint id hold id ?_ rfl
      simp [Option.mem_def.1 hid]
    have hact := count_registered_act (keyed_run config actions) (labelled_run config actions) a
      hnew id
    have hsum := ih hbefore id
    have hlost : along lost { context := { config } } (actions ++ [a]) =
        along lost { context := { config } } actions ++ (run config actions).lost a := by
      rw [along_append]
      simp [along, run]
    have hreported : reportedSubscriptions (actions ++ [a]) =
        reportedSubscriptions actions ++ a.reportedSubscription?.toList := by
      rw [reportedSubscriptions, List.filterMap_append]
      cases ha : a.reportedSubscription? <;> simp [reportedSubscriptions, ha]
    rw [run_snoc, hlost, hreported, List.count_append, List.count_append]
    omega

/-! ## 2. Ids that leak -/

variable {home : String → String} {id : String}

-- What is registered is accounted for.
theorem accounted_of_registered (h : id ∈ w.view.registered) : w.Accounted home id := by
  rcases List.mem_append.1 h with hheld | hdeleted
  · obtain ⟨s, hs, hid⟩ := List.mem_flatMap.1 hheld
    obtain ⟨key, hkey⟩ := SortedMap.mem_values.1 hs
    rcases List.mem_append.1 hid with hactive | hleaving
    · exact .active hkey hactive
    · exact .leaving hkey hleaving
  · exact .deleted (mem_deletions.1 hdeleted)

-- What is accounted for is registered, unless it went with its resource.
theorem registered_of_accounted (h : w.Accounted home id)
    (hhome : ∀ key, .removeResource key (home id) ∉ w.emitted) : id ∈ w.view.registered := by
  have hheld : ∀ {key s}, w.context.session? key = some s → id ∈ s.ids →
      id ∈ w.view.registered := by
    intro key s hs hid
    exact List.mem_append_left _ (List.mem_flatMap.2 ⟨s, SortedMap.mem_values.2 ⟨key, hs⟩, hid⟩)
  cases h with
  | active hs hid => exact hheld hs (List.mem_append_left _ hid)
  | leaving hs hid => exact hheld hs (List.mem_append_right _ hid)
  | deleted hid => exact List.mem_append_right _ (mem_deletions.2 hid)
  | removed hremoved => exact absurd hremoved (hhome _)

-- What leaks is lost.
theorem lost_of_leaks {config : ClientConfig} {actions : List Action}
    (h : id ∈ leaks home config actions) : id ∈ along lost { context := { config } } actions := by
  obtain ⟨before, a, after, heq, hid⟩ := mem_along.1 h
  refine mem_along.2 ⟨before, a, after, heq, ?_⟩
  rcases List.mem_append.1 hid with hdropped | hstranded
  · exact List.mem_append_left _ hdropped
  · obtain ⟨s, hs, hids⟩ := List.mem_flatMap.1 hstranded
    exact List.mem_append_right _ (List.mem_flatMap.2 ⟨s, hs, List.mem_of_mem_filter hids⟩)

-- What is lost leaks, unless it went with its resource.
theorem leaks_of_lost {config : ClientConfig} {actions : List Action}
    (h : id ∈ along lost { context := { config } } actions)
    (hhome : ∀ key, .removeResource key (home id) ∉ (run config actions).emitted) :
    id ∈ leaks home config actions := by
  obtain ⟨before, a, after, heq, hid⟩ := mem_along.1 h
  refine mem_along.2 ⟨before, a, after, heq, ?_⟩
  rcases List.mem_append.1 hid with hdropped | hreleased
  · exact List.mem_append_left _ hdropped
  · obtain ⟨s, hs, hids⟩ := List.mem_flatMap.1 hreleased
    apply List.mem_append_right
    refine List.mem_flatMap.2 ⟨s, hs, List.mem_filter.2 ⟨hids, bne_iff_ne.2 fun hr => ?_⟩⟩
    -- the session had the resource, so its removal has been sent
    obtain ⟨key, hremoved⟩ := removed_of_released (keyed_run config before)
      (labelled_run config before) hs hr
    apply hhome key
    have hstays := emitted_run config (before ++ [a]) after
    rw [run_snoc, List.append_assoc, List.singleton_append, ← heq] at hstays
    exact hstays.subset hremoved

end World

/-- **Exactly the ids that leak are unaccounted for.** If no two successful answers report one id,
an id that has been reported is held by no session and has not been deleted, and what it was
created under has not been removed, exactly if the id has leaked and that still stays. -/
theorem unaccounted_iff_leaks (home : String → String) (config : ClientConfig)
    (actions : List Action) (hfresh : (reportedSubscriptions actions).Nodup) {id : String}
    (hid : id ∈ reportedSubscriptions actions) :
    ¬ (World.run config actions).Accounted home id ↔
      id ∈ World.leaks home config actions ∧
        ∀ key, .removeResource key (home id) ∉ (World.run config actions).emitted := by
  -- the id has been reported once, so it is either registered or lost, and not both
  have hsum := World.count_registered_run config hfresh id
  rw [hfresh.count, if_pos hid] at hsum
  constructor
  · intro hun
    have hhome : ∀ key, .removeResource key (home id) ∉ (World.run config actions).emitted :=
      fun key hremoved => hun (.removed hremoved)
    have hnone : (World.run config actions).view.registered.count id = 0 :=
      List.count_eq_zero.2 fun hmem => hun (World.accounted_of_registered hmem)
    exact ⟨World.leaks_of_lost (List.count_pos_iff.1 (by omega)) hhome, hhome⟩
  · rintro ⟨hleaks, hhome⟩ haccounted
    have hheld := List.count_pos_iff.2 (World.registered_of_accounted haccounted hhome)
    have hlost := List.count_pos_iff.2 (World.lost_of_leaks hleaks)
    omega

/-- A subscription is withdrawn while the creation that it rides on is outstanding. -/
def abandoned : List Action :=
  [.newSession, .addSubscription 1 {}, .push 1, .removeSubscription 1,
    .event (.createResult 1 (.ok { resourceId := "r", subscriptionId := some "s" }))]

/-- Nothing deletes the id that the answer names, and the resource stays. -/
theorem unaccounted_abandoned :
    (reportedSubscriptions abandoned).Nodup ∧ "s" ∈ reportedSubscriptions abandoned ∧
      ¬ (World.run {} abandoned).Accounted (fun _ => "r") "s" := by
  have hfresh : (reportedSubscriptions abandoned).Nodup := by decide
  have hid : "s" ∈ reportedSubscriptions abandoned := by decide
  have hleaks : "s" ∈ World.leaks (fun _ => "r") {} abandoned := by decide
  have hstays : ∀ key, .removeResource key "r" ∉ (World.run {} abandoned).emitted := by
    intro key hremoved
    have hnone : removals (World.run {} abandoned).emitted = [] := rfl
    have hmem := mem_removals.2 ⟨key, hremoved⟩
    simp [hnone] at hmem
  exact ⟨hfresh, hid, (unaccounted_iff_leaks _ {} abandoned hfresh hid).2 ⟨hleaks, hstays⟩⟩

end MbsClient
