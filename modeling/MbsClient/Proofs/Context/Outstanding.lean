import MbsClient.Proofs.Context.Pushes
import MbsClient.Proofs.Context.Stale
import MbsClient.Proofs.Session.Freed

/-!
# Outstanding — one request at a time

A request that has been sent for a target keeps the sessions from sending another one until the
target is freed: by the answer, by a new creation of the session, or by a transfer of the
subscription that the request was about (`one_outstanding`).
-/

namespace MbsClient

/-! ## 1. Steps -/

namespace View

variable {v : View} {i : Intent} {t : Target}

/-- **A request leaves its mark in all sessions that have the target.** -/
theorem busy_of_sent_pushes {config : ClientConfig} {keys : List SessionKey} (hk : v.Keyed)
    (honce : ∀ k, v.subscribers.count k ≤ 1) (hn : keys.Nodup)
    (hi : i ∈ v.sent (pushes config keys)) (ht : t ∈ i.targets) :
    ((pushes config keys).foldl apply v).All (·.Busy i t) := by
  obtain ⟨key, hkey, s, hs, hi⟩ := (mem_sent_pushes hn).1 hi
  have hmem := Session.mem_targets_of_sent hi ht
  intro key' s' hs'
  rw [get?_pushes hn] at hs'
  by_cases hne : key' = key
  · subst hne
    rw [if_pos hkey, hs, Option.bind_some] at hs'
    exact Session.busy_of_sent (nodup_of_count_subscribers honce hs) hi ht hs'
  · refine Session.busy_of_not_mem_targets ?_
    split at hs'
    · obtain ⟨u, hu, hs'⟩ := Option.bind_eq_some_iff.1 hs'
      rw [Session.targets_of_push hs']
      exact not_mem_targets hk honce hs hu hne hmem
    · exact not_mem_targets hk honce hs hs' hne hmem

/-- A step frees a target, given the request that was sent for it. -/
def Frees (v : View) (i : Intent) (t : Target) : Transition → Prop
  | .opened => t ∈ ({ key := v.nextSession } : Session).targets
  | .moved key m => ∃ s, v.sessions.get? key = some s ∧ s.Frees i t m
  | .orphaned _ => False

theorem busy_apply (h : v.All (·.Busy i t)) {tr : Transition} (hfree : ¬ v.Frees i t tr) :
    (v.apply tr).All (·.Busy i t) := by
  intro key s' h'
  cases sessionFrom h' with
  | kept hs => exact h key s' hs
  | opened hkey hs =>
    rw [hs, hkey]
    exact Session.busy_of_not_mem_targets hfree
  | moved hs hm =>
    exact Session.busy_moved (h key _ hs) (fun hfrees => hfree ⟨_, hs, hfrees⟩) hm

theorem busy_foldl (h : v.All (·.Busy i t)) {ts : List Transition}
    (hfree : ∀ before tr after, ts = before ++ tr :: after →
      ¬ (before.foldl apply v).Frees i t tr) : (ts.foldl apply v).All (·.Busy i t) := by
  induction ts generalizing v with
  | nil => exact h
  | cons tr ts ih =>
    refine ih (busy_apply h (hfree [] tr ts rfl)) fun before u after heq => ?_
    exact hfree (tr :: before) u after (by rw [heq, List.cons_append])

end View

/-! ## 2. Actions -/

/-- The request that a move takes the answer to. -/
def Session.Move.request? (key : SessionKey) : Move → Option TimeoutTarget
  | .created _ => some (.createResource key)
  | .refused _ => some (.createResource key)
  | .timedOut => some (.createResource key)
  | .patched _ => some (.patchResource key)
  | .subscriptionCreated k _ => some (.createSubscription k)
  | .subscriptionUpdated k _ => some (.updateSubscription k)
  | _ => none

theorem Session.Move.AnswersCreation.request? {m : Move} (h : m.AnswersCreation)
    (key : SessionKey) : m.request? key = some (.createResource key) := by
  cases m with
  | created answer => rfl
  | refused problem => rfl
  | timedOut => rfl
  | _ => exact h.elim

namespace Context

variable {c : Context} {key : SessionKey} {m : Session.Move}

theorem length_ownerMoves_le (c : Context) (key : SubscriptionKey) (m : Session.Move) :
    (c.ownerMoves key m).length ≤ 1 := by
  unfold ownerMoves
  split
  · exact Nat.le_refl 1
  · exact Nat.zero_le 1

-- An event moves one session at most.
theorem length_handleMoves_le (c : Context) (e : TransportEvent) :
    (c.handleMoves e).length ≤ 1 := by
  have hcreated : ∀ key result, (c.subscriptionCreatedMoves key result).length ≤ 1 := by
    intro key result
    unfold subscriptionCreatedMoves
    split
    · split
      · exact length_ownerMoves_le c key _
      · exact Nat.le_refl 1
    · exact length_ownerMoves_le c key _
  cases e with
  | createResult key result =>
    simp only [handleMoves, sessionCreatedMoves]
    split
    · split <;> exact Nat.le_refl 1
    · exact Nat.le_refl 1
  | patchResult key result => cases result <;> exact Nat.le_refl 1
  | subscriptionCreated key result => exact hcreated key _
  | subscriptionUpdated key result => exact length_ownerMoves_le c key _
  | timeout request =>
    cases request with
    | createResource key => exact Nat.le_refl 1
    | patchResource key => exact Nat.le_refl 1
    | createSubscription key => exact hcreated key (.error .timedOut)
    | updateSubscription key => exact length_ownerMoves_le c key _

theorem eq_of_mem_ownerMoves {k : SubscriptionKey} {m' : Session.Move}
    (h : .moved key m ∈ c.ownerMoves k m') : m = m' := by
  obtain ⟨owner, heq⟩ := mem_ownerMoves h
  exact (Transition.moved.inj heq).2

-- The session that an event moves takes the answer to the request.
theorem request?_of_mem_handleMoves {e : TransportEvent} (h : .moved key m ∈ c.handleMoves e) :
    m.request? key = some e.request := by
  have hcreated : ∀ k result, .moved key m ∈ c.subscriptionCreatedMoves k result →
      m.request? key = some (.createSubscription k) := by
    intro k result hmem
    unfold subscriptionCreatedMoves at hmem
    split at hmem
    · split at hmem
      · rw [eq_of_mem_ownerMoves hmem]
        rfl
      · cases List.mem_singleton.1 hmem
    · rw [eq_of_mem_ownerMoves hmem]
      rfl
  cases e with
  | createResult k result =>
    simp only [handleMoves, sessionCreatedMoves] at h
    split at h
    · split at h
      · cases List.mem_singleton.1 h
        rfl
      · cases List.mem_singleton.1 h
    · cases List.mem_singleton.1 h
      rfl
  | patchResult k result => cases result <;> cases List.mem_singleton.1 h <;> rfl
  | subscriptionCreated k result => exact hcreated k _ h
  | subscriptionUpdated k result =>
    rw [eq_of_mem_ownerMoves h]
    rfl
  | timeout request =>
    cases request with
    | createResource k =>
      cases List.mem_singleton.1 h
      rfl
    | patchResource k =>
      cases List.mem_singleton.1 h
      rfl
    | createSubscription k => exact hcreated k (.error .timedOut) h
    | updateSubscription k =>
      rw [eq_of_mem_ownerMoves h]
      rfl

-- What takes an answer is the first and only step of an event.
theorem event_of_request? {a : Action} {before after : List Transition} {request : TimeoutTarget}
    (h : c.script a = before ++ .moved key m :: after) (hm : m.request? key = some request) :
    before = [] ∧ ∃ e, a = .event e ∧ e.request = request := by
  have hmem : .moved key m ∈ c.script a := h ▸ List.mem_append_cons_self
  obtain ⟨e, rfl⟩ : ∃ e, a = .event e := by
    cases makes_of_mem_script hmem with
    | patched hanswer =>
      unfold Action.patchAnswer? at hanswer
      split at hanswer
      · exact ⟨_, rfl⟩
      · exact ⟨_, rfl⟩
      · exact ⟨_, rfl⟩
      · cases hanswer
    | created => exact ⟨_, rfl⟩
    | refused => exact ⟨_, rfl⟩
    | timedOut => exact ⟨_, rfl⟩
    | confirmed => exact ⟨_, rfl⟩
    | failed => exact ⟨_, rfl⟩
    | updated => exact ⟨_, rfl⟩
    | _ => cases hm
  refine ⟨?_, e, rfl, Option.some.inj ((request?_of_mem_handleMoves hmem).symm.trans hm)⟩
  have hlength := length_handleMoves_le c e
  rw [show c.handleMoves e = before ++ .moved key m :: after from h, List.length_append,
    List.length_cons] at hlength
  exact List.eq_nil_of_length_eq_zero (by omega)

-- A subscription is taken over if a transfer succeeds, or it is new.
theorem transferSubscription_of_takeOver {k : SubscriptionKey} {target : SessionKey}
    {sub : Subscription}
    (h : .moved key (.takeOver sub) ∈ c.script (.transferSubscription k target)) :
    sub.key = k ∧ ∃ c', c.transferSubscription k target = .ok c' := by
  rcases transferSubscription_cases c k target with
    ⟨e, -, hnone⟩ | ⟨o, s, found, holder, t, -, hd, -, hmoves, hok⟩
  · rw [script, hnone] at h
    cases h
  · rw [script, hmoves] at h
    obtain ⟨-, rfl⟩ : key = target ∧ sub = found := by simpa using h
    exact ⟨(Session.mem_of_detach? hd).2, _, hok⟩

end Context

namespace World

/-- What frees a target, given the request that was sent for it. -/
inductive Frees (w : World) (i : Intent) : Target → Action → Prop
  /-- The creation is answered or has timed out. -/
  | created {key e} (hrequest : e.request = .createResource key)
      (hwaits : w.context.Awaits e.request) : w.Frees i (.creation key) (.event e)
  /-- The patch is answered or has timed out. -/
  | patched {key e} (hrequest : e.request = .patchResource key)
      (hwaits : w.context.Awaits e.request) : w.Frees i (.patch key) (.event e)
  /-- The session is removed and created anew. -/
  | recreated {key s a} (ha : a.Pushes key) (hs : w.context.session? key = some s)
      (h : s.Recreates) : w.Frees i (.patch key) a
  /-- The creation of the subscription is answered or has timed out. -/
  | confirmed {k e} (hrequest : e.request = .createSubscription k)
      (hwaits : w.context.Awaits e.request) : w.Frees i (.subscription k) (.event e)
  /-- The change of the subscription is answered or has timed out. -/
  | updated {k e} (hrequest : e.request = .updateSubscription k)
      (hwaits : w.context.Awaits e.request) : w.Frees i (.subscription k) (.event e)
  /-- The subscription rode on a creation that is answered or has timed out. -/
  | rode {k key e} (hi : i.creates? = some key) (hrequest : e.request = .createResource key)
      (hwaits : w.context.Awaits e.request) : w.Frees i (.subscription k) (.event e)
  /-- Another session, or the same one, takes the subscription over. -/
  | transferred {k target c} (h : w.context.transferSubscription k target = .ok c) :
      w.Frees i (.subscription k) (.transferSubscription k target)
  /-- The session that has the subscription is removed and created anew. -/
  | requeued {k key s a} (ha : a.Pushes key) (hs : w.context.session? key = some s)
      (h : s.Recreates) (hk : k ∈ s.wantedKeys) : w.Frees i (.subscription k) a

end World

/-- The keys of a target have been handed out. -/
def Context.Issued (c : Context) : Target → Prop
  | .creation key => key < c.nextSession
  | .patch key => key < c.nextSession
  | .subscription k => k < c.nextSubscription

namespace World

variable {w : World} {i : Intent} {t : Target} {a : Action}

-- A new session has a key of its own.
theorem not_mem_targets_of_issued {c : Context} (h : c.Issued t) :
    t ∉ ({ key := c.nextSession } : Session).targets := by
  intro ht
  cases t with
  | creation key =>
    obtain rfl := Session.creation_mem_targets.1 ht
    exact Nat.lt_irrefl _ h
  | patch key =>
    obtain rfl := Session.patch_mem_targets.1 ht
    exact Nat.lt_irrefl _ h
  | subscription k => cases Session.subscription_mem_targets.1 ht

-- A step of an action frees a target only where the action does.
theorem frees_of_step (hk : w.view.Keyed) (ht : w.context.Issued t)
    {before after : List Transition} {tr : Transition}
    (hscript : w.context.script a = before ++ tr :: after)
    (h : (before.foldl View.apply w.view).Frees i t tr) : w.Frees i t a := by
  have hmem : tr ∈ w.context.script a := hscript ▸ List.mem_append_cons_self
  cases tr with
  | opened =>
    cases Context.makes_of_mem_script hmem
    obtain rfl : before = [] := by
      simp only [Context.script] at hscript
      split at hscript
      · simp at hscript
      · rcases List.append_eq_singleton_iff.1 hscript.symm with ⟨hnil, -⟩ | ⟨-, hcons⟩
        · exact hnil
        · cases hcons
    -- a new session has a key of its own
    exact absurd h (not_mem_targets_of_issued ht)
  | moved key m =>
    obtain ⟨s, hs, hfrees⟩ := h
    have hown : s.key = key := (View.keyed_foldl hk before).own hs
    subst hown
    have hevent : ∀ request, m.request? s.key = some request →
        w.context.session? s.key = some s ∧ ∃ e, a = .event e ∧ e.request = request := by
      intro request hrequest
      obtain ⟨rfl, hevent⟩ := Context.event_of_request? hscript hrequest
      exact ⟨hs, hevent⟩
    cases hfrees with
    | answered hm hstate =>
      obtain ⟨hs, e, rfl, hrequest⟩ := hevent _ (hm.request? s.key)
      exact .created hrequest (hrequest ▸ ⟨s, hs, hstate⟩)
    | patched hstate hwaits =>
      obtain ⟨hs, e, rfl, hrequest⟩ := hevent _ rfl
      exact .patched hrequest (hrequest ▸ ⟨s, hs, hstate, hwaits⟩)
    | confirmed hstate hwaits =>
      obtain ⟨hs, e, rfl, hrequest⟩ := hevent _ rfl
      exact .confirmed hrequest (hrequest ▸ ⟨s.key, s, hs, hstate, hwaits⟩)
    | updated hwaits =>
      obtain ⟨hs, e, rfl, hrequest⟩ := hevent _ rfl
      exact .updated hrequest (hrequest ▸ ⟨s.key, s, hs, hwaits⟩)
    | rode hi hm hstate =>
      obtain ⟨hs, e, rfl, hrequest⟩ := hevent _ (hm.request? s.key)
      exact .rode hi hrequest (hrequest ▸ ⟨s, hs, hstate⟩)
    | takenOver =>
      rename_i sub
      have hmakes := Context.makes_of_mem_script hmem
      generalize hkey : s.key = key at hmakes hmem
      cases hmakes with
      | added =>
        -- the key of an addition has not been handed out before
        have hnew : sub.key = w.context.nextSubscription := by
          have hmoved := (Transition.moved.inj (List.mem_singleton.1 hmem)).2
          rw [Session.Move.takeOver.inj hmoved]
          rfl
        rw [hnew] at ht
        exact absurd ht (Nat.lt_irrefl _)
      | takenOver =>
        obtain ⟨rfl, c', hc'⟩ := Context.transferSubscription_of_takeOver hmem
        exact .transferred hc'
    | recreated hrecreates =>
      obtain ⟨ha, hget⟩ := Context.get?_before_push (v := w.view) hscript
      exact .recreated ha (hget.symm.trans hs) hrecreates
    | requeued hrecreates hwanted =>
      obtain ⟨ha, hget⟩ := Context.get?_before_push (v := w.view) hscript
      exact .requeued ha (hget.symm.trans hs) hrecreates hwanted
  | orphaned intents => exact h.elim

/-! ### What has been handed out -/

theorem nextSession_le_foldl (v : View) (ts : List Transition) :
    v.nextSession ≤ (ts.foldl View.apply v).nextSession := by
  induction ts generalizing v with
  | nil => exact Nat.le_refl _
  | cons tr ts ih => exact Nat.le_trans (View.nextSession_le_apply v tr) (ih (v.apply tr))

theorem nextSubscription_le_act (c : Context) (a : Action) :
    c.nextSubscription ≤ (c.act a).nextSubscription := by
  by_cases hadd : ∃ session data, a = .addSubscription session data
  · obtain ⟨session, data, rfl⟩ := hadd
    cases hs : c.sessions.get? session with
    | none =>
      rw [Context.act_addSubscription_of_none hs]
    | some s =>
      rw [Context.nextSubscription_addSubscription hs data]
      exact Nat.le_succ _
  · rw [Context.nextSubscription_act c a fun session data heq => hadd ⟨session, data, heq⟩]

theorem issued_act (hk : w.view.Keyed) (h : w.context.Issued t) (a : Action) :
    (w.act a).context.Issued t := by
  have hsessions : w.context.nextSession ≤ (w.act a).context.nextSession := by
    show w.view.nextSession ≤ (w.act a).view.nextSession
    rw [view_act hk]
    exact nextSession_le_foldl _ _
  cases t with
  | creation key => exact Nat.lt_of_lt_of_le h hsessions
  | patch key => exact Nat.lt_of_lt_of_le h hsessions
  | subscription k => exact Nat.lt_of_lt_of_le h (nextSubscription_le_act w.context a)

/-- A target has been handed out, and all sessions that have it wait for the answer to a request. -/
structure Busy (w : World) (i : Intent) (t : Target) : Prop where
  issued : w.context.Issued t
  waits : w.view.All (·.Busy i t)

/-! ## 3. Along a run -/

variable {config : ClientConfig} {actions : List Action}

-- What a session asks for has been handed out.
theorem issued_of_mem_targets {key : SessionKey} {s : Session}
    (hs : (run config actions).context.session? key = some s) (ht : t ∈ s.targets) :
    (run config actions).context.Issued t := by
  have hk := keyed_run config actions
  have hbelow : s.key < (run config actions).context.nextSession := by
    rw [hk.own hs]
    exact hk.below hs
  cases t with
  | creation k => exact Session.creation_mem_targets.1 ht ▸ hbelow
  | patch k => exact Session.patch_mem_targets.1 ht ▸ hbelow
  | subscription k =>
    have hheld := Session.mem_subscriptionKeys.2 (.inl (Session.subscription_mem_targets.1 ht))
    exact lt_nextSubscription_of_holds ⟨s, hs, hheld⟩

theorem busy_of_sent (hi : i ∈ (run config actions).sent a) (ht : t ∈ i.targets) :
    ((run config actions).act a).Busy i t := by
  have hk := keyed_run config actions
  have honce := count_subscribers_run config actions
  obtain ⟨key, ha⟩ := pushes_of_sent hk hi ht
  obtain ⟨keys, hn, hscript⟩ := Context.script_of_pushes (c := (run config actions).context) ha
  rw [sent_eq hk, hscript] at hi
  constructor
  · obtain ⟨key, -, s, hs, hi⟩ := (View.mem_sent_pushes hn).1 hi
    exact issued_act hk (issued_of_mem_targets hs (Session.mem_targets_of_sent hi ht)) a
  · rw [view_act hk, hscript]
    exact View.busy_of_sent_pushes hk honce hn hi ht

-- No step of an action frees a target that the action does not free.
theorem not_frees_of_step (hk : w.view.Keyed) (h : w.Busy i t) (hfree : ¬ w.Frees i t a)
    {before after : List Transition} {tr : Transition}
    (hscript : w.context.script a = before ++ tr :: after) :
    ¬ (before.foldl View.apply w.view).Frees i t tr :=
  fun hfrees => hfree (frees_of_step hk h.issued hscript hfrees)

theorem busy_act (hk : w.view.Keyed) (h : w.Busy i t) (hfree : ¬ w.Frees i t a) :
    (w.act a).Busy i t := by
  refine ⟨issued_act hk h.issued a, ?_⟩
  rw [view_act hk]
  exact View.busy_foldl h.waits fun _ _ _ => not_frees_of_step hk h hfree

-- Nothing is sent for a target that is waited for.
theorem not_sent_of_busy (hk : w.view.Keyed) (h : w.Busy i t) (hfree : ¬ w.Frees i t a) :
    ∀ j ∈ w.sent a, t ∉ j.targets := by
  intro j hj ht
  rw [sent_eq hk] at hj
  obtain ⟨before, tr, after, hscript, hj⟩ := View.exists_of_mem_sent hj
  have hmakes := Context.makes_of_mem_script (hscript ▸ List.mem_append_cons_self)
  obtain ⟨key, s, -, rfl, hs, hj⟩ := hmakes.push_of_targets hj ht
  -- up to this step all sessions have kept the mark
  have hbusy : (before.foldl View.apply w.view).All (·.Busy i t) := by
    refine View.busy_foldl h.waits fun first tr rest heq => ?_
    rw [heq, List.append_assoc, List.cons_append] at hscript
    exact not_frees_of_step hk h hfree hscript
  have hkept : ¬ s.Frees i t (.push w.context.config) :=
    fun hfrees => not_frees_of_step hk h hfree hscript ⟨s, hs, hfrees⟩
  exact Session.not_sent_of_busy (hbusy key s hs) ((hbusy key s hs).not_recreated hkept) j hj ht

theorem busy_run {before : List Action} (hi : i ∈ (run config before).sent a) (ht : t ∈ i.targets)
    {between : List Action} (hfree : ∀ mid c rest, between = mid ++ c :: rest →
      ¬ (run config (before ++ a :: mid)).Frees i t c) :
    (run config (before ++ a :: between)).Busy i t := by
  induction between using List.reverseRecOn with
  | nil =>
    rw [run_snoc]
    exact busy_of_sent hi ht
  | append_singleton between b ih =>
    have hbusy := ih fun mid c rest heq =>
      hfree mid c (rest ++ [b]) (by rw [heq, List.append_assoc, List.cons_append])
    rw [← List.cons_append, ← List.append_assoc, run_snoc]
    exact busy_act (keyed_run config _) hbusy (hfree between b [] rfl)

/-- **One request at a time.** No action of a run sends two requests for one target. And between two
requests for one target, at the latest by the action that sends the second one, the target is freed:
the creation is answered or has timed out; the patch is, or the session is created anew; what the
subscription waits for is, the creation that it rode on among it, or the subscription is
transferred, or its session is created anew. -/
theorem one_outstanding (config : ClientConfig) (before : List Action) (a : Action) :
    (((run config before).sent a).flatMap Intent.targets).Nodup ∧
      ∀ between b i j t, i ∈ (run config before).sent a →
        j ∈ (run config (before ++ a :: between)).sent b → t ∈ i.targets → t ∈ j.targets →
        ∃ mid c rest, between ++ [b] = mid ++ c :: rest ∧
          (run config (before ++ a :: mid)).Frees i t c := by
  refine ⟨nodup_targets_sent config before a, fun between b i j t hi hj hti htj => ?_⟩
  by_contra hnone
  have hfree : ∀ mid c rest, between ++ [b] = mid ++ c :: rest →
      ¬ (run config (before ++ a :: mid)).Frees i t c :=
    fun mid c rest heq hfrees => hnone ⟨mid, c, rest, heq, hfrees⟩
  have hbusy : (run config (before ++ a :: between)).Busy i t := by
    refine busy_run hi hti fun mid c rest heq => ?_
    exact hfree mid c (rest ++ [b]) (by rw [heq, List.append_assoc, List.cons_append])
  exact not_sent_of_busy (keyed_run config _) hbusy (hfree between b [] rfl) j hj htj

/-- A registered session gets a subscription. -/
def subscribed : List Action :=
  [.newSession, .push 1, .event (.createResult 1 (.ok { resourceId := "a" })),
    .addSubscription 1 {}]

/-- What the next push sends. -/
def subscription1 : Intent := .createSubscription 1 1 "a" { mbsSessionId := some {} }

/-- The subscription is sent, times out, and is sent again. -/
theorem one_outstanding_timedOut :
    ∃ mid c rest, [.event (.timeout (.createSubscription 1)), .push 1] = mid ++ c :: rest ∧
      (run {} (subscribed ++ .push 1 :: mid)).Frees subscription1 (.subscription 1) c :=
  (one_outstanding {} subscribed (.push 1)).2 [.event (.timeout (.createSubscription 1))] (.push 1)
    subscription1 subscription1 (.subscription 1) (List.mem_singleton_self _)
    (List.mem_singleton_self _) (List.mem_singleton_self _) (List.mem_singleton_self _)

end World

end MbsClient
