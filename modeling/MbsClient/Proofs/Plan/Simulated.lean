import MbsClient.Plan
import MbsClient.Proofs.Context.Roster
import MbsClient.Proofs.Session.BringUp

/-!
# Simulated success — creations are answered where their sessions stand

The answer to the creation of a session leaves it registered, with its first subscription active
(`simulate_creation`); the answer to the creation of a subscription makes it active
(`simulate_subscription`). From one answer follow the answers to all requests of a round
(`simulateAll_creations`, `simulateAll_further`). No id is given out twice.
-/

namespace MbsClient

open Text

/-! ## 1. The simulator and its ids -/

namespace Simulator

theorem number_of_id {label : String} {m n : Nat}
    (h : label ++ Decimal.text m = label ++ Decimal.text n) : m = n := by
  have hlist : (label ++ Decimal.text m).toList = (label ++ Decimal.text n).toList := by rw [h]
  simp only [Decimal.text, String.toList_append, String.toList_ofList] at hlist
  exact Decimal.digits_injective (List.append_cancel_left hlist)

theorem sessionId_ne_subscriptionId (m n : Nat) : sessionId m ≠ subscriptionId n := by
  intro h
  have hhead : (sessionId m).toList.head? = (subscriptionId n).toList.head? := by rw [h]
  simp [sessionId, subscriptionId] at hhead

/-- Ids that a simulator has given out, none of them twice. -/
structure Gave (sim : Simulator) (ids : List String) : Prop where
  nodup : ids.Nodup
  given : ∀ id ∈ ids, ∃ n ≤ sim.last, id = sessionId n ∨ id = subscriptionId n

namespace Gave

variable {sim : Simulator} {ids ids' : List String}

theorem perm (h : sim.Gave ids) (hids : ids'.Perm ids) : sim.Gave ids' :=
  ⟨hids.nodup_iff.2 h.nodup, fun id hid => h.given id (hids.mem_iff.1 hid)⟩

-- What has the next number is new.
theorem next (h : sim.Gave ids) {id : String}
    (hid : id = sessionId (sim.last + 1) ∨ id = subscriptionId (sim.last + 1)) :
    Gave ⟨sim.last + 1⟩ (id :: ids) where
  nodup := by
    refine List.nodup_cons.2 ⟨fun hmem => ?_, h.nodup⟩
    obtain ⟨n, hn, hgiven⟩ := h.given id hmem
    rcases hid with rfl | rfl <;> rcases hgiven with heq | heq
    · have := number_of_id heq
      omega
    · exact sessionId_ne_subscriptionId _ _ heq
    · exact sessionId_ne_subscriptionId _ _ heq.symm
    · have := number_of_id heq
      omega
  given := by
    intro other hother
    rcases List.mem_cons.1 hother with rfl | hother
    · exact ⟨sim.last + 1, Nat.le_refl _, hid⟩
    · obtain ⟨n, hn, hgiven⟩ := h.given other hother
      exact ⟨n, Nat.le_succ_of_le hn, hgiven⟩

end Gave

/-- What the simulator answers to the creation of a session. -/
theorem answer_creation (sim : Simulator) (config : ClientConfig) (s : Session) :
    ∃ tmgi, (tmgi.isSome = true → s.data.tmgi = none) ∧
      sim.answer (s.creation config) =
        (some (.createResult s.key (.ok (s.grant (sessionId (sim.last + 1))
          (subscriptionId (sim.last + 2)) tmgi))),
        ⟨if s.pendingNew.isEmpty then sim.last + 1 else sim.last + 2⟩) := by
  refine ⟨if s.data.tmgiAllocReq && s.data.tmgi.isNone then some (tmgi (sim.last + 1)) else none,
    ?_, ?_⟩
  · intro h
    split at h
    · rename_i hwanted
      exact Option.isNone_iff_eq_none.1 (Bool.and_eq_true_iff.1 hwanted).2
    · cases h
  · cases hnew : s.pendingNew <;> simp [Session.creation, Session.grant, answer, hnew]

end Simulator

namespace Session

/-- The ids of a session and of its subscriptions at the MB-SMF. -/
def remoteIds (s : Session) : List String := s.resourceId?.toList ++ s.active.keys

theorem remoteIds_of_registered {s : Session} {r : Resource} (h : s.remote = .registered r) :
    s.remoteIds = r.id :: r.active.keys := by
  rw [remoteIds, resourceId?, resource?, h, active_of_registered h]
  rfl

-- A session that is given one more id.
theorem perm_flatMap_remoteIds {done todo : List Session} {s s' : Session} {id : String}
    (h : s'.remoteIds.Perm (id :: s.remoteIds)) :
    ((done ++ s' :: todo).flatMap remoteIds).Perm
      (id :: (done ++ s :: todo).flatMap remoteIds) := by
  simp only [List.flatMap_append, List.flatMap_cons]
  refine ((h.append_right _).append_left _).trans ?_
  exact List.perm_middle

end Session

namespace Context

variable {c : Context} {done todo : List Session} {sim : Simulator} {config : ClientConfig}

/-! ## 2. One answer -/

theorem simulateAll_cons (c : Context) (sim : Simulator) (i : Intent) (rest : List Intent) :
    c.simulateAll sim (i :: rest) =
      (c.simulate sim i).1.1.simulateAll (c.simulate sim i).2.1 rest := rfl

theorem simulateAll_append (c : Context) (sim : Simulator) (first rest : List Intent) :
    c.simulateAll sim (first ++ rest) =
      (c.simulateAll sim first).1.simulateAll (c.simulateAll sim first).2 rest :=
  List.foldl_append

theorem config_settle (c : Context) (s : Session) : (c.settle s).config = c.config := by
  simp only [settle, reindex, indexTmgi]
  split <;> rfl

theorem outbox_settle (c : Context) (s : Session) : (c.settle s).outbox = c.outbox := by
  simp only [settle, reindex, indexTmgi]
  split <;> rfl

theorem simulate_creation {s : Session} (hs : s.Fresh)
    (h : c.Lists (done ++ s.asked config :: todo)) {ids : List String} (hgave : sim.Gave ids) :
    ∃ t, (c.simulate sim (s.creation config)).1.1 = c.settle t ∧ s.Begun t ∧
      (c.simulate sim (s.creation config)).2.1.Gave (t.remoteIds ++ ids) := by
  obtain ⟨tmgi, htmgi, hanswer⟩ := sim.answer_creation config s
  obtain ⟨t, r, hcreated, hgranted, hid, hactive, hnew, hdirty⟩ :=
    Session.created_of_asked hs config (Simulator.sessionId (sim.last + 1))
      (Simulator.subscriptionId (sim.last + 2)) htmgi
  have hfound : c.session? (s.asked config).key = some (s.asked config) :=
    h.session? List.mem_append_cons_self
  have hact := act_created hfound (Session.waitingFor?_asked hs config)
    (s.grant (Simulator.sessionId (sim.last + 1)) (Simulator.subscriptionId (sim.last + 2)) tmgi)
  rw [hcreated] at hact
  refine ⟨t, ?_, ⟨⟨r, hgranted⟩, hnew, hdirty⟩, ?_⟩
  · rw [simulate, hanswer]
    exact hact
  · have hfirst := hgave.next (.inl rfl)
    rw [simulate, hanswer, Session.remoteIds_of_registered hgranted.remote, hid, hactive]
    cases hsubs : s.pendingNew with
    | nil => exact hfirst
    | cons sub rest => exact (hfirst.next (.inr rfl)).perm (List.Perm.swap _ _ _)

theorem simulate_subscription {s t : Session} {r : Resource} (hs : s.Fresh)
    (ht : Session.Granted s t r) {sub : Subscription} {rest : List Subscription}
    (hnew : t.pendingNew = sub :: rest) (hclean : t.dirty = false) (hsent : sub.dirty = false)
    (hwaits : sub.isInFlight = true) (h : c.Lists (done ++ t :: todo))
    (hgave : sim.Gave ((done ++ t :: todo).flatMap Session.remoteIds)) (key : SessionKey)
    (id : String) (data : MbsSessionSubscription) :
    ∃ t' r', (c.simulate sim (.createSubscription key sub.key id data)).1.1 = c.store t' ∧
      (c.store t').Lists (done ++ t' :: todo) ∧
      (c.simulate sim (.createSubscription key sub.key id data)).2.1.Gave
        ((done ++ t' :: todo).flatMap Session.remoteIds) ∧
      Session.Granted s t' r' ∧ t'.data = t.data ∧ r'.id = r.id ∧ t'.pendingNew = rest ∧
      t'.dirty = false := by
  obtain ⟨new, hnext⟩ : ∃ new, new = Simulator.subscriptionId (sim.last + 1) := ⟨_, rfl⟩
  have hids : t.remoteIds = r.id :: r.active.keys := Session.remoteIds_of_registered ht.remote
  have hfresh := hgave.next (.inr hnext)
  have hunused : new ∉ r.active.keys := by
    intro hmem
    refine (List.nodup_cons.1 hfresh.nodup).1 (List.mem_flatMap.2
      ⟨t, List.mem_append_cons_self, ?_⟩)
    rw [hids]
    exact List.mem_cons_of_mem _ hmem
  obtain ⟨t', r', calls, hcreated, hgranted, hdata, hid, hactive, hrest, hclean'⟩ :=
    Session.subscriptionCreated?_of_granted ht hs hnew hclean hsent hwaits hunused
  have hheld : sub.key ∈ t.subscriptionKeys := by
    refine Session.mem_subscriptionKeys_of_new ?_
    rw [Session.newKeys, hnew]
    exact List.mem_cons_self
  have howner : (c.owners.get? sub.key).bind c.session? = some t := by
    rw [h.owned t List.mem_append_cons_self _ hheld]
    exact h.session? List.mem_append_cons_self
  refine ⟨t', r', ?_, ?_, ?_, hgranted, hdata, hid, hrest, hclean'⟩
  · show (c.subscriptionCreated sub.key (.ok { id := Simulator.subscriptionId (sim.last + 1) })).1 =
      _
    rw [← hnext]
    simp only [subscriptionCreated, howner, Option.bind_some, hcreated]
  · refine h.store (hgranted.key.trans ht.key.symm) fun k hk => ?_
    exact (ht.mem_subscriptionKeys hs).2 ((hgranted.mem_subscriptionKeys hs).1 hk)
  · refine Simulator.Gave.perm hfresh (Session.perm_flatMap_remoteIds ?_)
    rw [hids, Session.remoteIds_of_registered hgranted.remote, hid]
    exact (hactive.cons _).trans (List.Perm.swap _ _ _)

/-! ## 3. The answers of a round -/

/-- Nothing has been emitted, and the configuration is the same. -/
def Quiet (c c' : Context) : Prop := c'.config = c.config ∧ c'.outbox = c.outbox

theorem Quiet.trans {c c' c'' : Context} (h : c.Quiet c') (h' : c'.Quiet c'') : c.Quiet c'' :=
  ⟨h'.1.trans h.1, h'.2.trans h.2⟩

/-- **All sessions that are asked for are begun.** -/
theorem simulateAll_creations (done : List Session) {wanted : List Session}
    (hfresh : ∀ s ∈ wanted, s.Fresh)
    (h : c.Lists (done ++ wanted.map (Session.asked config)))
    (hgave : sim.Gave (done.flatMap Session.remoteIds)) {c' : Context} {sim' : Simulator}
    (hsim : c.simulateAll sim (wanted.map (Session.creation config)) = (c', sim')) :
    ∃ begun, List.Forall₂ Session.Begun wanted begun ∧ c'.Lists (done ++ begun) ∧
      sim'.Gave ((done ++ begun).flatMap Session.remoteIds) ∧ c.Quiet c' := by
  induction wanted generalizing c sim done with
  | nil =>
    obtain ⟨rfl, rfl⟩ := Prod.mk.inj hsim
    rw [← List.append_nil done] at hgave
    exact ⟨[], .nil, h, hgave, rfl, rfl⟩
  | cons s wanted ih =>
    obtain ⟨hs, hrest⟩ := List.forall_mem_cons.1 hfresh
    rw [List.map_cons] at h hsim
    obtain ⟨t, hcontext, hbegun, hgave'⟩ := simulate_creation hs h hgave
    obtain ⟨r, hgranted⟩ := hbegun.granted
    rw [simulateAll_cons, hcontext] at hsim
    have hsettled : (c.settle t).Lists ((done ++ [t]) ++ wanted.map (Session.asked config)) := by
      rw [List.append_assoc]
      refine h.settle hgranted.key fun k hk => ?_
      rw [Session.subscriptionKeys_asked hs]
      exact (hgranted.mem_subscriptionKeys hs).1 hk
    have hids : ((done ++ [t]).flatMap Session.remoteIds).Perm
        (t.remoteIds ++ done.flatMap Session.remoteIds) := by
      rw [List.flatMap_append, List.flatMap_singleton]
      exact List.perm_append_comm
    obtain ⟨begun, hall, hlists, hids', hquiet⟩ := ih _ hrest hsettled (hgave'.perm hids) hsim
    rw [List.append_assoc] at hlists hids'
    exact ⟨t :: begun, .cons hbegun hall, hlists, hids',
      Quiet.trans ⟨config_settle c t, outbox_settle c t⟩ hquiet⟩

-- The subscriptions of one session are answered in their order.
theorem simulateAll_subscriptions {s t sender : Session} {r : Resource} (hs : s.Fresh)
    (ht : Session.Granted s t r) {subs : List Subscription}
    (hnew : t.pendingNew = subs.map (sender.sentUnder config)) (hclean : t.dirty = false)
    (h : c.Lists (done ++ t :: todo))
    (hgave : sim.Gave ((done ++ t :: todo).flatMap Session.remoteIds))
    {id : String} {c' : Context} {sim' : Simulator}
    (hsim : c.simulateAll sim (sender.creations config id subs) = (c', sim')) :
    ∃ t', s.Complete t' ∧ t'.data = t.data ∧ t'.resourceId? = t.resourceId? ∧
      c'.Lists (done ++ t' :: todo) ∧ sim'.Gave ((done ++ t' :: todo).flatMap Session.remoteIds) ∧
      c.Quiet c' := by
  induction subs generalizing c sim t r with
  | nil =>
    obtain ⟨rfl, rfl⟩ := Prod.mk.inj hsim
    exact ⟨t, ⟨⟨r, ht⟩, hnew, hclean⟩, rfl, rfl, h, hgave, rfl, rfl⟩
  | cons sub subs ih =>
    obtain ⟨t₁, r₁, hcontext, hlists, hids, hgranted, hdata, hid, hrest, hclean₁⟩ :=
      simulate_subscription hs ht hnew hclean rfl rfl h hgave sender.key id
        (sender.sentUnder config sub).data
    have hstep : c.simulateAll sim (sender.creations config id (sub :: subs)) =
        (c.store t₁).simulateAll (c.simulate sim (.createSubscription sender.key sub.key id
          (sender.sentUnder config sub).data)).2.1 (sender.creations config id subs) := by
      rw [← hcontext]
      rfl
    rw [hstep] at hsim
    obtain ⟨t', hcomplete, hdata', hid', hlists', hids', hquiet⟩ :=
      ih hgranted hrest hclean₁ hlists hids hsim
    have hresource : t₁.resourceId? = t.resourceId? := by
      simp only [Session.resourceId?, Session.resource?, hgranted.remote, ht.remote,
        Remote.resource?, Option.map_some, hid]
    exact ⟨t', hcomplete, hdata'.trans hdata, hid'.trans hresource, hlists', hids', hquiet⟩

/-- **All sessions that are begun are completed**, one after the other. -/
theorem simulateAll_further (done : List Session) {wanted begun : List Session}
    (hfresh : ∀ s ∈ wanted, s.Fresh)
    (hbegun : List.Forall₂ Session.Begun wanted begun)
    (h : c.Lists (done ++ begun.map (Session.sentNew config)))
    (hgave : sim.Gave ((done ++ begun.map (Session.sentNew config)).flatMap Session.remoteIds))
    {c' : Context} {sim' : Simulator}
    (hsim : c.simulateAll sim (begun.flatMap fun t => t.further config t.pendingNew) =
      (c', sim')) :
    ∃ complete, List.Forall₂ Session.Complete wanted complete ∧ c'.Lists (done ++ complete) ∧
      sim'.Gave ((done ++ complete).flatMap Session.remoteIds) ∧ c.Quiet c' ∧
      begun.flatMap (fun t => t.further config t.pendingNew) =
        Session.furtherAll config wanted complete := by
  induction hbegun generalizing c sim done with
  | nil =>
    obtain ⟨rfl, rfl⟩ := Prod.mk.inj hsim
    exact ⟨[], .nil, h, hgave, ⟨rfl, rfl⟩, rfl⟩
  | @cons s t wanted begun hfirst hbegun ih =>
    obtain ⟨hs, hrest⟩ := List.forall_mem_cons.1 hfresh
    obtain ⟨r, hgranted⟩ := hfirst.granted
    rw [List.map_cons] at h hgave
    rw [List.flatMap_cons, simulateAll_append, Session.further_of_registered hgranted.remote]
      at hsim
    obtain ⟨t', hcomplete, hdata, hid, hlists, hids, hquiet⟩ :=
      simulateAll_subscriptions hs (Session.granted_sent hgranted config) rfl rfl h hgave rfl
    have hassoc : ∀ after : List Session, done ++ t' :: after = (done ++ [t']) ++ after :=
      fun after => List.append_cons done t' after
    rw [hassoc] at hlists hids
    obtain ⟨complete, hall, hlists', hids', hquiet', hround⟩ := ih _ hrest hlists hids hsim
    rw [← hassoc] at hlists' hids'
    refine ⟨t' :: complete, .cons hcomplete hall, hlists', hids', hquiet.trans hquiet', ?_⟩
    obtain ⟨r', hgranted'⟩ := hcomplete.granted
    have hkey : t'.key = t.key := hgranted'.key.trans hgranted.key.symm
    rw [List.flatMap_cons, hround, hfirst.new, ← Session.further_congr hkey hdata hid]
    rfl

end Context

end MbsClient
