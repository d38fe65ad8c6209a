import MbsClient.Proofs.Context.Subscribers
import MbsClient.Proofs.Session.Awaiting
import MbsClient.Proofs.Session.Holdings

/-!
# Attribution — which request an id was given for

A subscription that a registered session has under an id should have got it from a request that
the session sent for the resource it has. Since an answer names the subscription alone, this fails
for an answer that is taken in after the subscription has been sent for another resource, and for
no other reason (`attributed_iff_no_late`).
-/

namespace MbsClient

open Intent

/-! ## 1. Waiting subscriptions along a run -/

namespace Transition

/-- Creates nothing for nobody. -/
def Quiet : Transition → Prop
  | .orphaned intents => ∀ i ∈ intents, ∀ key, i.aim? key = none
  | _ => True

end Transition

namespace Context

theorem quiet_script {c : Context} {a : Action} : ∀ t ∈ c.script a, t.Quiet := by
  intro t ht
  cases t with
  | opened => trivial
  | moved key m => trivial
  | orphaned intents =>
    intro i hi key
    rcases (makes_of_mem_script ht).orphans i hi with ⟨_, _, rfl⟩ | ⟨_, rfl⟩ <;> rfl

end Context

namespace View

/-- The new subscriptions of every session wait for what was sent last. -/
def OnTrack (v : View) : Prop := ∀ key s, v.sessions.get? key = some s → s.OnTrack v.emitted

theorem onTrack_apply {v : View} (hv : v.OnTrack) (honce : ∀ k, v.subscribers.count k ≤ 1)
    {t : Transition} (hquiet : t.Quiet) : (v.apply t).OnTrack := by
  intro key s' h
  cases sessionFrom h with
  | kept hs hother =>
    intro sub hsub
    rw [emitted_apply_eq]
    refine Session.expects_of_log (lastAim?_append_of_none fun i hi => ?_) (hv key s' hs sub hsub)
    cases sentBy hi with
    | @moved k s m hs₀ hmem =>
      cases haim : i.aim? sub with
      | none => rfl
      | some aim =>
        -- the requests of one session are not about the subscriptions of another
        have hne : key ≠ k := fun hkey => hother m (by rw [hkey])
        have hsent : sub ∈ s.subscriptionKeys :=
          Session.mem_subscriptionKeys_of_new (Session.mem_newKeys_of_mem_moved hmem haim)
        have hheld : sub ∈ s'.subscriptionKeys :=
          Session.mem_subscriptionKeys_of_new (Session.mem_newKeys_of_awaited hsub)
        exact absurd hheld (not_mem_of_count_subscribers (honce sub) hne hs₀ hs hsent)
    | orphaned hmem => exact hquiet i hmem sub
  | opened hkey hs => exact hs ▸ Session.onTrack_new key _
  | moved hs hm =>
    rw [apply_moved hs]
    exact Session.onTrack_moved (hv key _ hs) hm

theorem onTrack_foldl {v : View} (hk : v.Keyed) (hv : v.OnTrack)
    (honce : ∀ k, v.subscribers.count k ≤ 1) {ts : List Transition}
    (hquiet : ∀ t ∈ ts, t.Quiet) (hts : ∀ t ∈ ts.dropLast, t.incoming = []) :
    (ts.foldl apply v).OnTrack := by
  -- on the steps; no subscription is had twice as long as nothing has come in
  induction ts generalizing v with
  | nil => exact hv
  | cons t ts ih =>
    have hfirst := onTrack_apply hv honce (hquiet t List.mem_cons_self)
    cases ts with
    | nil => exact hfirst
    | cons u ts =>
      refine ih (keyed_apply hk t) hfirst (fun k => ?_)
        (fun w hw => hquiet w (List.mem_cons_of_mem _ hw))
        fun w hw => hts w (List.mem_cons_of_mem _ hw)
      have hcount := count_subscribers_apply hk t k
      rw [hts t List.mem_cons_self, List.count_nil] at hcount
      exact Nat.le_trans hcount (honce k)

end View

namespace World

theorem onTrack_run (config : ClientConfig) (actions : List Action) :
    (run config actions).view.OnTrack := by
  induction actions using List.reverseRecOn with
  | nil =>
    intro key s h
    simp [run, acts, view, Context.view] at h
  | append_singleton actions a ih =>
    rw [run_snoc, view_act (keyed_run config actions)]
    exact View.onTrack_foldl (keyed_run config actions) ih (count_subscribers_run config actions)
      Context.quiet_script (Context.incoming_dropLast_script _ a)

end World

/-! ## 2. Ids and the requests they answer -/

/-- The request that each id answers, by its position among all that have been emitted. -/
structure Provenance where
  subscription : String → Nat
  resource : String → Nat

namespace Provenance

/-- A successful answer is one to a request for what it names. The subscription that the answer to
the creation of a session names was created with the session. -/
def Answers (p : Provenance) (w : World) : Action → Prop
  | .event (.createResult key (.ok answer)) =>
      (∃ body bundled,
        w.emitted[p.resource answer.resourceId]? = some (.createResource key body bundled)) ∧
      ∀ id ∈ answer.subscriptionId, p.subscription id = p.resource answer.resourceId
  | .event (.subscriptionCreated key (.ok ack)) =>
      ∃ session resource data, w.emitted[p.subscription ack.id]? =
        some (.createSubscription session key resource data)
  | _ => True

/-- A session has sent the request that the id answers, for the resource or to create it. -/
def Sent (p : Provenance) (log : List Intent) (session : SessionKey) (resource id : String) :
    Prop :=
  (∃ sub data,
    log[p.subscription id]? = some (.createSubscription session sub resource data)) ∨
  p.subscription id = p.resource resource ∧
    ∃ body bundled, log[p.resource resource]? = some (.createResource session body bundled)

theorem sent_of_prefix {p : Provenance} {log log' : List Intent} (h : log <+: log')
    {session : SessionKey} {resource id : String} (hsent : p.Sent log session resource id) :
    p.Sent log' session resource id := by
  have hget : ∀ {n : Nat} {i}, log[n]? = some i → log'[n]? = some i := by
    intro n i hn
    obtain ⟨rest, rfl⟩ := h
    rw [List.getElem?_append_left (List.getElem?_eq_some_iff.1 hn).1]
    exact hn
  rcases hsent with ⟨sub, data, hn⟩ | ⟨hsame, body, bundled, hn⟩
  · exact .inl ⟨sub, data, hget hn⟩
  · exact .inr ⟨hsame, body, bundled, hget hn⟩

end Provenance

namespace World

/-- Every id under which a registered session has a subscription answers a request that the
session has sent for its resource. -/
def Attributed (p : Provenance) (w : World) : Prop :=
  ∀ key s, w.context.session? key = some s → s.state = .registered →
    ∀ resource, s.resourceId? = some resource →
      ∀ id ∈ s.active.keys, p.Sent w.emitted key resource id

/-- The ids that a session takes in although the subscription has been sent for another session or
resource than the request they answer. -/
def late (p : Provenance) (w : World) : Action → List String
  | .event (.subscriptionCreated key (.ok ack)) =>
      if (((w.context.owners.get? key).bind w.context.session?).bind
            (·.subscriptionCreated? key (.ok ack))).isSome ∧
          w.emitted[p.subscription ack.id]?.bind (aim? key) ≠ lastAim? key w.emitted then
        [ack.id]
      else []
  | _ => []

end World

namespace View

/-- `World.Attributed` for all sessions that hold something. -/
def Traced (p : Provenance) (v : View) : Prop :=
  ∀ key s h, v.sessions.get? key = some s → s.holdings? = some h →
    ∀ id ∈ h.active, p.Sent v.emitted key h.resource id

theorem traced_put {p : Provenance} {v : View} (hv : v.Traced p) {key : SessionKey}
    {s? : Option Session} {intents : List Intent}
    (hs : ∀ s' h, s? = some s' → s'.holdings? = some h →
      ∀ id ∈ h.active, p.Sent v.emitted key h.resource id) :
    (v.put key s? intents).Traced p := by
  intro k t h ht hheld id hid
  apply Provenance.sent_of_prefix (List.prefix_append v.emitted intents)
  rcases get?_put ht with ⟨rfl, hput⟩ | ⟨-, ht⟩
  · exact hs t h hput hheld id hid
  · exact hv k t h ht hheld id hid

-- A step that brings no id in moves none from one resource to another.
theorem traced_apply {p : Provenance} {v : View} (hl : v.Labelled) (hv : v.Traced p)
    {t : Transition} (ht : t.Closed) : (v.apply t).Traced p := by
  intro key s' h' hs' hheld id hid
  apply Provenance.sent_of_prefix (emitted_apply v t)
  cases sessionFrom hs' with
  | kept hs => exact hv key s' h' hs hheld id hid
  | opened hkey hs =>
    rw [hs] at hheld
    cases hheld
  | moved hs hm =>
    obtain ⟨before, hbefore, hresource, hactive⟩ :=
      Session.holdings?_of_moved (hl key _ hs) ht hm hheld
    rw [hresource]
    exact hv key _ before hs hbefore id (hactive hid)

theorem traced_foldl {p : Provenance} {v : View} (hl : v.Labelled) (hv : v.Traced p)
    {ts : List Transition} (hts : ∀ t ∈ ts, t.Closed) : (ts.foldl apply v).Traced p := by
  induction ts generalizing v with
  | nil => exact hv
  | cons t ts ih =>
    exact ih (labelled_apply hl t) (traced_apply hl hv (hts t List.mem_cons_self))
      fun u hu => hts u (List.mem_cons_of_mem _ hu)

end View

/-! ## 3. Answers that come in time -/

namespace World

variable {p : Provenance} {w : World}

-- A creation gives the session its resource, and at most one subscription along with it.
theorem traced_created (hk : w.view.Keyed) (hv : w.view.Traced p) {key : SessionKey}
    {answer : SessionCreated} (hanswer : p.Answers w (.event (.createResult key (.ok answer)))) :
    (w.act (.event (.createResult key (.ok answer)))).view.Traced p := by
  obtain ⟨hsent, hsame⟩ := hanswer
  cases hw : (w.context.session? key).bind Session.waitingFor? with
  | none =>
    rw [view_act_orphan hk hw]
    intro k s h hs hheld id hid
    exact Provenance.sent_of_prefix (List.prefix_append _ _) (hv k s h hs hheld id hid)
  | some waiting =>
    obtain ⟨s, hs, hwait⟩ := Option.bind_eq_some_iff.1 hw
    rw [view_act_created hk hs hwait]
    apply View.traced_put hv
    intro s' h hs' hheld id hid
    rw [← Option.some.inj hs', Session.holdings?_created] at hheld
    rw [← Option.some.inj hheld] at hid ⊢
    refine .inr ⟨hsame id ?_, hsent⟩
    simp only [Session.settled] at hid
    split at hid
    · exact Option.mem_toList.1 hid
    · simp at hid

-- An answer that is taken in names the subscription that was last sent for the resource.
theorem lastAim?_of_accepted (htrack : w.view.OnTrack) {key : SubscriptionKey} {o : SessionKey}
    {s s' : Session} {ack : SubscriptionAck} {calls : List Call} (hk : w.view.Keyed)
    (hs : w.context.session? o = some s)
    (hc : s.subscriptionCreated? key (.ok ack) = some (s', calls)) {r : Resource}
    (hr : s.remote = .registered r) : lastAim? key w.emitted = some (o, r.id) := by
  obtain ⟨-, sub, -, hsub, hkey, hin, -⟩ := Session.subscriptionCreated?_ok hc
  have hexpects := htrack o s hs key ⟨sub, hsub, hkey, hin⟩
  have hlast := (Session.expects_of_registered hr _ key).1 hexpects
  rw [hk.own hs] at hlast
  exact hlast

-- Only a creation with the key is for it.
theorem sent_of_aim? {log : List Intent} {key : SubscriptionKey} {id : String}
    {session : SessionKey} {resource : String}
    (h : log[p.subscription id]?.bind (aim? key) = some (session, resource)) :
    p.Sent log session resource id := by
  obtain ⟨i, hi, haim⟩ := Option.bind_eq_some_iff.1 h
  unfold aim? at haim
  split at haim
  · split at haim
    · obtain ⟨rfl, rfl⟩ := Prod.mk.inj (Option.some.inj haim)
      exact .inl ⟨_, _, hi⟩
    · simp at haim
  · simp at haim

theorem traced_confirmed (hk : w.view.Keyed) (htrack : w.view.OnTrack) (hv : w.view.Traced p)
    {key : SubscriptionKey} {ack : SubscriptionAck}
    (hlate : w.late p (.event (.subscriptionCreated key (.ok ack))) = []) :
    (w.act (.event (.subscriptionCreated key (.ok ack)))).view.Traced p := by
  cases hc : ((w.context.owners.get? key).bind w.context.session?).bind
      (·.subscriptionCreated? key (.ok ack)) with
  | none =>
    rw [view_act_unclaimed hk hc]
    intro k s h hs hheld id hid
    exact Provenance.sent_of_prefix (List.prefix_append _ _) (hv k s h hs hheld id hid)
  | some taken =>
    obtain ⟨s, hos, hcreated⟩ := Option.bind_eq_some_iff.1 hc
    obtain ⟨o, ho, hs⟩ := Context.get?_of_owner hos
    obtain ⟨r, confirmed, hr, hheld'⟩ := Session.holdings?_subscriptionCreated? hcreated
    -- the answer is not late, so it is one to a request like the last
    have haim : w.emitted[p.subscription ack.id]?.bind (aim? key) = lastAim? key w.emitted := by
      simp only [late, hc, Option.isSome_some, true_and] at hlate
      split at hlate
      · simp at hlate
      · rename_i heq
        exact not_not.1 heq
    rw [lastAim?_of_accepted htrack hk hs hcreated hr] at haim
    rw [view_act_confirmed hk ho hs hcreated]
    apply View.traced_put hv
    intro s' h hs' hheld id hid
    rw [← Option.some.inj hs', hheld'] at hheld
    rw [← Option.some.inj hheld] at hid ⊢
    rcases SortedMap.mem_keys_insert.1 hid with rfl | hid
    · exact sent_of_aim? haim
    · exact hv o s r.holdings hs (Session.holdings?_of_registered hr) id hid

theorem traced_run (config : ClientConfig) {actions : List Action}
    (hanswers : Throughout p.Answers { context := { config } } actions)
    (hlate : along (late p) { context := { config } } actions = []) :
    (run config actions).view.Traced p := by
  induction actions using List.reverseRecOn with
  | nil =>
    intro key s h hs
    simp [run, acts, view, Context.view] at hs
  | append_singleton actions a ih =>
    obtain ⟨hbefore, hanswer, -⟩ := throughout_append.1 hanswers
    rw [along_append, List.append_eq_nil_iff] at hlate
    obtain ⟨hintime, hlast⟩ := hlate
    have hlast : (run config actions).late p a = [] := (List.append_eq_nil_iff.1 hlast).1
    have hk := keyed_run config actions
    have hv := ih hbefore hintime
    rw [run_snoc]
    -- ids come in with successful answers only
    rcases a.closed_or with ha | ⟨key, answer, rfl⟩ | ⟨key, ack, rfl⟩
    · rw [view_act hk]
      exact View.traced_foldl (labelled_run config actions) hv (Context.closed_script ha)
    · exact traced_created hk hv hanswer
    · exact traced_confirmed hk (onTrack_run config actions) hv hlast

theorem attributed_of_traced (h : w.view.Traced p) : w.Attributed p := by
  intro key s hs hstate resource hresource id hid
  cases hr : s.remote with
  | absent => simp [Session.resourceId?, Session.resource?, hr, Remote.resource?] at hresource
  | creating body bundled =>
    simp [Session.resourceId?, Session.resource?, hr, Remote.resource?] at hresource
  | registered r =>
    have hid : id ∈ r.active.keys := by rwa [Session.active_of_registered hr] at hid
    have hr' : resource = r.id := by
      simpa [Session.resourceId?, Session.resource?, hr, Remote.resource?, eq_comm] using hresource
    rw [hr']
    exact h key s r.holdings hs (Session.holdings?_of_registered hr) id hid

/-! ## 4. Answers that come late -/

-- A late answer is taken in all the same.
theorem not_attributed_of_late (hk : w.view.Keyed) (htrack : w.view.OnTrack) {a : Action}
    (hanswer : p.Answers w a) {id : String} (hid : id ∈ w.late p a) : ¬ (w.act a).Attributed p := by
  unfold late at hid
  split at hid
  · rename_i key ack
    split at hid
    · rename_i hcond
      obtain ⟨haccepted, hother⟩ := hcond
      obtain ⟨⟨s', calls⟩, hc⟩ := Option.isSome_iff_exists.1 haccepted
      obtain ⟨s, hos, hcreated⟩ := Option.bind_eq_some_iff.1 hc
      obtain ⟨o, ho, hs⟩ := Context.get?_of_owner hos
      obtain ⟨r, sub, hr, -, -, -, hstate, hr'⟩ := Session.subscriptionCreated?_ok hcreated
      have hview := view_act_confirmed hk ho hs hcreated
      have hget : (w.act (.event (.subscriptionCreated key (.ok ack)))).context.session? o =
          some s' := by
        have hput : (w.view.put o (some s') []).sessions.get? o = some s' :=
          SortedMap.get?_insert_self _ _ _
        rwa [← hview] at hput
      have hemitted : (w.act (.event (.subscriptionCreated key (.ok ack)))).emitted =
          w.emitted := by
        have hput : (w.view.put o (some s') []).emitted = w.emitted := List.append_nil _
        rwa [← hview] at hput
      have hresource : s'.resourceId? = some r.id := by
        simp [Session.resourceId?, Session.resource?, hr', Remote.resource?]
      have hactive : ack.id ∈ s'.active.keys := by
        rw [Session.active_of_registered hr']
        exact SortedMap.mem_keys_insert.2 (.inl rfl)
      -- the session has it now, and its request was for something else
      intro hattributed
      have hsent := hattributed o s' hget hstate r.id hresource ack.id hactive
      rw [hemitted] at hsent
      obtain ⟨session, resource, data, hrequest⟩ := hanswer
      rw [lastAim?_of_accepted htrack hk hs hcreated hr, hrequest] at hother
      rcases hsent with ⟨sub', data', hsame⟩ | ⟨hsame, body, bundled, hcreate⟩
      · rw [hrequest] at hsame
        obtain ⟨rfl, rfl, rfl, -⟩ := Intent.createSubscription.inj (Option.some.inj hsame)
        simp [aim?] at hother
      · rw [← hsame, hrequest] at hcreate
        simp at hcreate
    · simp at hid
  · simp at hid

end World

/-- **Ids are attributed to the right resource throughout a run exactly if no answer is taken in
late**, that is, after the subscription has been sent for another session or resource. -/
theorem attributed_iff_no_late (p : Provenance) (config : ClientConfig) (actions : List Action)
    (hanswers : World.Throughout p.Answers { context := { config } } actions) :
    (∀ before, before <+: actions → (World.run config before).Attributed p) ↔
      World.along (World.late p) { context := { config } } actions = [] := by
  constructor
  · intro h
    rw [List.eq_nil_iff_forall_not_mem]
    intro id hid
    obtain ⟨before, a, after, rfl, hlate⟩ := World.mem_along.1 hid
    have hanswer := (World.throughout_append.1 hanswers).2.1
    have hprefix : before ++ [a] <+: before ++ a :: after := by
      rw [List.append_cons before a after]
      exact List.prefix_append _ _
    have hattributed := h (before ++ [a]) hprefix
    rw [World.run_snoc] at hattributed
    exact World.not_attributed_of_late (World.keyed_run config before)
      (World.onTrack_run config before) hanswer hlate hattributed
  · rintro hlate before ⟨after, rfl⟩
    rw [World.along_append, List.append_eq_nil_iff] at hlate
    exact World.attributed_of_traced
      (World.traced_run config (World.throughout_append.1 hanswers).1 hlate.1)

/-- A subscription goes to another session while its creation is outstanding, and the answer comes
when it has been sent again. -/
def overtaken : List Action :=
  [.newSession, .newSession, .push 1, .push 2,
    .event (.createResult 1 (.ok { resourceId := "a" })),
    .event (.createResult 2 (.ok { resourceId := "b" })),
    .addSubscription 1 {}, .push 1, .transferSubscription 1 2, .push 2,
    .event (.subscriptionCreated 1 (.ok { id := "s" }))]

/-- The answer is one to the first creation, which comes after those of the sessions. -/
def overtakenProvenance : Provenance where
  subscription _ := 2
  resource id := if id = "a" then 0 else 1

/-- The other session takes it for an answer to its own request. -/
theorem misattributed_overtaken :
    World.Throughout overtakenProvenance.Answers { context := {} } overtaken ∧
      ¬ ∀ before, before <+: overtaken → (World.run {} before).Attributed overtakenProvenance := by
  have hanswers : World.Throughout overtakenProvenance.Answers { context := {} } overtaken :=
    ⟨trivial, trivial, trivial, trivial, ⟨⟨_, _, rfl⟩, by simp⟩, ⟨⟨_, _, rfl⟩, by simp⟩, trivial,
      trivial, trivial, trivial, ⟨_, _, _, rfl⟩, trivial⟩
  have hlate : World.along (World.late overtakenProvenance) { context := {} } overtaken = ["s"] :=
    rfl
  refine ⟨hanswers, fun h => ?_⟩
  have hnone := (attributed_iff_no_late overtakenProvenance {} overtaken hanswers).1 h
  rw [hlate] at hnone
  simp at hnone

end MbsClient
