import MbsClient.Proofs.Context.Echo
import MbsClient.Proofs.Context.Stale
import MbsClient.Proofs.Context.Traffic
import MbsClient.Proofs.Session.Identity
import MbsClient.Simulator

/-!
# Acknowledged — what is acknowledged is what was sent

A session that waits for its creation accepts one answer, and takes the body that it has sent last
for acknowledged, with the TMGI that the answer names. Nothing else that happens to a session
changes the identity that it takes for acknowledged (`acknowledged_is_sent`).
-/

namespace MbsClient

open Intent

/-! ## 1. Moves that keep the identity -/

-- Of the moves that leave a session there, only an accepted creation changes the identity.
theorem Session.identity_of_moved {s s' : Session} {m : Move} (hm : ∀ answer, m ≠ .created answer)
    (h : (s.moved m).1 = some s') : s'.identity = s.identity := by
  have hplain : m.Plain → s'.identity = s.identity := by
    intro hm
    obtain ⟨t, ht, hidentity⟩ := s.identity_moved hm
    rw [ht] at h
    rw [← Option.some.inj h, hidentity]
  cases m with
  | push config => exact identity_of_push h
  | release => cases h
  | created answer => exact absurd rfl (hm answer)
  | timedOut =>
    simp only [moved] at h
    split at h
    · cases h
    · rw [← Option.some.inj h]
  | _ => exact hplain trivial

namespace View

/-- The session under a key, if it is there, takes an identity for acknowledged. -/
def Identified (key : SessionKey) (identity : MbsSessionId) (v : View) : Prop :=
  key < v.nextSession ∧ ∀ s, v.sessions.get? key = some s → s.identity = identity

theorem identified_apply {v : View} {key : SessionKey} {identity : MbsSessionId}
    (h : Identified key identity v) {t : Transition}
    (ht : ∀ answer, t ≠ .moved key (.created answer)) :
    Identified key identity (v.apply t) := by
  obtain ⟨hbelow, hidentity⟩ := h
  refine ⟨Nat.lt_of_lt_of_le hbelow (nextSession_le_apply v t), fun s' h => ?_⟩
  cases sessionFrom h with
  | kept hs => exact hidentity s' hs
  | opened hkey =>
    -- a session that has gone does not come back under its key
    exact absurd hkey (Nat.ne_of_lt hbelow)
  | moved hs hm =>
    rw [Session.identity_of_moved (fun answer hm => ht answer (hm ▸ rfl)) hm, hidentity _ hs]

theorem identified_foldl {v : View} {key : SessionKey} {identity : MbsSessionId}
    (h : Identified key identity v) {ts : List Transition}
    (hts : ∀ t ∈ ts, ∀ answer, t ≠ .moved key (.created answer)) :
    Identified key identity (ts.foldl apply v) := by
  induction ts generalizing v with
  | nil => exact h
  | cons t ts ih =>
    exact ih (identified_apply h (hts t List.mem_cons_self))
      fun u hu => hts u (List.mem_cons_of_mem _ hu)

end View

/-! ## 2. Accepted answers -/

-- A creation is taken in where the session waits for it, and nowhere else.
theorem Context.awaits_of_created_mem_script {c : Context} {a : Action} {key : SessionKey}
    {answer : SessionCreated} (h : .moved key (.created answer) ∈ c.script a) :
    a = .event (.createResult key (.ok answer)) ∧ c.Awaits (.createResource key) := by
  cases makes_of_mem_script h with
  | created =>
    refine ⟨rfl, ?_⟩
    simp only [script, handleMoves, sessionCreatedMoves] at h
    split at h
    · rename_i hwaits
      obtain ⟨w, hw⟩ := Option.isSome_iff_exists.1 hwaits
      obtain ⟨s, hs, hwait⟩ := Option.bind_eq_some_iff.1 hw
      exact ⟨s, hs, Session.state_of_waitingFor? hwait⟩
    · cases List.mem_singleton.1 h

namespace World

variable {w : World} {key : SessionKey} {s s' : Session}

theorem acknowledged_of_awaits (hk : w.view.Keyed) (hsent : w.view.Sent)
    (h : w.context.Awaits (.createResource key)) (answer : SessionCreated) :
    ∃ sent s', lastAsked? key w.emitted = some sent ∧
      (w.act (.event (.createResult key (.ok answer)))).context.session? key = some s' ∧
      s'.acknowledged? = some (sent.withAllocated answer.tmgi) ∧
      s'.identity = (sent.withAllocated answer.tmgi).mbsSessionId := by
  obtain ⟨s, hs, hstate⟩ := h
  obtain ⟨body, bundled, hwait⟩ := Session.waitingFor?_of_state hstate
  have hown : s.key = key := hk.own hs
  have hasked : lastAsked? s.key w.emitted = some body :=
    hsent key s hs body bundled (Session.remote_of_waitingFor? hwait).2
  have hview := view_act_created hk hs hwait answer
  refine ⟨body, (s.created body bundled answer).1, hown ▸ hasked, ?_, rfl, rfl⟩
  show (w.act _).view.sessions.get? key = _
  rw [hview]
  exact SortedMap.get?_insert_self _ _ _

theorem identity_act (hk : w.view.Keyed) {a : Action}
    (ha : ¬ ∃ answer, a = .event (.createResult key (.ok answer)) ∧
      w.context.Awaits (.createResource key))
    (hs : w.context.session? key = some s) (hs' : (w.act a).context.session? key = some s') :
    s'.identity = s.identity := by
  have hstart : View.Identified key s.identity w.view := by
    refine ⟨hk.below hs, fun t ht => ?_⟩
    have hst : some s = some t := hs.symm.trans ht
    rw [Option.some.inj hst]
  have hend : View.Identified key s.identity (w.act a).view := by
    rw [view_act hk]
    refine View.identified_foldl hstart ?_
    rintro t ht answer rfl
    exact ha ⟨answer, Context.awaits_of_created_mem_script ht⟩
  exact hend.2 s' hs'

end World

/-! ## 3. Along a run -/

/-- **What is acknowledged is what was sent.** After any run, the answer that a session waits for
makes it take the body of the last request for its creation for acknowledged, with the TMGI that the
answer names in place of its own and no request for one any more; without a TMGI in the answer it is
the body as it was sent. The acknowledged SSM and TMGI are those of this record. No other action
changes the acknowledged SSM or TMGI of a session that is there before and after it. -/
theorem World.acknowledged_is_sent (config : ClientConfig) (actions : List Action)
    (key : SessionKey) :
    (∀ answer, (run config actions).context.Awaits (.createResource key) →
      ∃ sent record s', lastAsked? key (run config actions).emitted = some sent ∧
        ((run config actions).act
          (.event (.createResult key (.ok answer)))).context.session? key = some s' ∧
        s'.acknowledged? = some record ∧
        record = sent.withAllocated answer.tmgi ∧
        (∀ tmgi, answer.tmgi = some tmgi →
          record = { sent with
            mbsSessionId := { sent.mbsSessionId with tmgi := some tmgi }
            tmgiAllocReq := false }) ∧
        (answer.tmgi = none → record = sent) ∧
        s'.identity.ssm = record.ssm ∧ s'.identity.tmgi = record.tmgi) ∧
    ∀ a s s', (run config actions).context.session? key = some s →
      ((run config actions).act a).context.session? key = some s' →
      (¬ ∃ answer, a = .event (.createResult key (.ok answer)) ∧
        (run config actions).context.Awaits (.createResource key)) →
      s'.identity.ssm = s.identity.ssm ∧ s'.identity.tmgi = s.identity.tmgi := by
  have hk := keyed_run config actions
  constructor
  · intro answer h
    obtain ⟨sent, s', hasked, hs', hacked, hidentity⟩ :=
      acknowledged_of_awaits hk (bodySent_run config actions) h answer
    refine ⟨sent, sent.withAllocated answer.tmgi, s', hasked, hs', hacked, rfl, ?_, ?_,
      congrArg MbsSessionId.ssm hidentity, congrArg MbsSessionId.tmgi hidentity⟩
    · intro tmgi htmgi
      rw [htmgi]
      rfl
    · intro htmgi
      rw [htmgi]
      rfl
  · intro a s s' hs hs' ha
    rw [identity_act hk ha hs hs']
    exact ⟨rfl, rfl⟩

/-- A session asks for a TMGI and is pushed; then it gets another group and an area session. -/
def askedThenChanged : List Action :=
  [.newSession, .changeSession 1 (.ssm (some (multicastGroup 1))),
    .changeSession 1 (.tmgiAllocReq true), .push 1,
    .changeSession 1 (.ssm (some (multicastGroup 2))), .changeSession 1 (.areaSessionId (some 3))]

/-- The answer to the creation, with a TMGI. -/
def allocation (n : Nat) : Action :=
  .event (.createResult 1 (.ok { resourceId := "r", tmgi := some (Simulator.tmgi n) }))

/-- The answer acknowledges the first group with the TMGI. Another answer, which comes late, leaves
them alone. -/
theorem World.acknowledged_is_sent_allocated :
    (run {} askedThenChanged).context.Awaits (.createResource 1) ∧
    (∃ s', ((run {} askedThenChanged).act (allocation 1)).context.session? 1 = some s' ∧
      s'.acknowledged? = some
        { mbsSessionId := { ssm := some (multicastGroup 1), tmgi := some (Simulator.tmgi 1) } } ∧
      s'.identity.ssm = some (multicastGroup 1) ∧
      s'.identity.tmgi = some (Simulator.tmgi 1) ∧
      s'.data.ssm = some (multicastGroup 2) ∧ s'.data.areaSessionId = some 3) ∧
    ∃ s s', (run {} (askedThenChanged ++ [allocation 1])).context.session? 1 = some s ∧
      ((run {} (askedThenChanged ++ [allocation 1])).act
        (allocation 2)).context.session? 1 = some s' ∧
      s'.identity.ssm = s.identity.ssm ∧ s'.identity.tmgi = s.identity.tmgi := by
  have hawaits : (run {} askedThenChanged).context.Awaits (.createResource 1) := ⟨_, rfl, rfl⟩
  refine ⟨hawaits, ?_, ?_⟩
  · obtain ⟨sent, record, s', hasked, hs', hacked, -, hrecord, -, hssm, htmgi⟩ :=
      (acknowledged_is_sent {} askedThenChanged 1).1
        { resourceId := "r", tmgi := some (Simulator.tmgi 1) } hawaits
    have hsent : lastAsked? 1 (run {} askedThenChanged).emitted = some
        { mbsSessionId := { ssm := some (multicastGroup 1) }, tmgiAllocReq := true } := rfl
    obtain rfl := Option.some.inj (hsent.symm.trans hasked)
    obtain rfl := hrecord _ rfl
    refine ⟨s', hs', hacked, hssm, htmgi, ?_⟩
    obtain rfl := Option.some.inj hs'
    exact ⟨rfl, rfl⟩
  · -- the session is registered by then, so no creation is waited for
    refine ⟨_, _, rfl, rfl, ?_⟩
    refine (acknowledged_is_sent {} (askedThenChanged ++ [allocation 1]) 1).2
      (allocation 2) _ _ rfl rfl ?_
    rintro ⟨answer, -, s, hs, hstate⟩
    obtain rfl := Option.some.inj hs
    cases hstate

end MbsClient
