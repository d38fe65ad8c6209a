import MbsClient.Proofs.Context.Ledger
import MbsClient.Proofs.Context.Subscribers
import MbsClient.Proofs.Session.Creation

/-!
# Echoes — what an accepted creation does to the local record

The answer to a creation should leave the record as the application has made it in the meantime.
Only a TMGI that the MB-SMF has allocated, which neither the request nor the record had, is to be
filled in. This fails for an answer that names a TMGI where the request had one that has been
cleared since, and for no other reason (`records_kept_iff_none_restored`).
-/

namespace MbsClient

open Intent

/-- The record after an answer that names a TMGI, where the creation has been sent with another
body: an allocated TMGI is filled in, and nothing else happens to it. -/
def MbsSession.settled (sent data : MbsSession) (tmgi : Option Tmgi) : MbsSession :=
  if sent.tmgi.isNone && data.tmgi.isNone then data.withAllocated tmgi else data

-- An answer to a creation changes the record to what it should be, unless it brings back a TMGI.
theorem Session.data_created (s : Session) (body : MbsSession) (bundled : Option SubscriptionKey)
    (answer : SessionCreated) :
    (s.created body bundled answer).1.data = body.settled s.data answer.tmgi ↔
      ¬ (body.tmgi.isSome ∧ s.data.tmgi = none ∧ answer.tmgi.isSome) := by
  have hdata : (s.created body bundled answer).1.data =
      if s.data.tmgi.isNone then s.data.withAllocated answer.tmgi else s.data := rfl
  rw [hdata, MbsSession.settled]
  cases hlocal : s.data.tmgi with
  | some tmgi => simp
  | none =>
    cases hbody : body.tmgi with
    | none => simp
    | some tmgi =>
      cases hanswer : answer.tmgi with
      | none => simp [MbsSession.withAllocated]
      | some allocated =>
        have hchanged : s.data.withAllocated (some allocated) ≠ s.data := by
          intro heq
          have htmgi : some allocated = s.data.tmgi := congrArg MbsSession.tmgi heq
          rw [hlocal] at htmgi
          cases htmgi
        simpa using hchanged

namespace View

/-- Every session that waits for its creation keeps the body that was sent last. -/
def Sent (v : View) : Prop := ∀ key s, v.sessions.get? key = some s → s.Sent v.emitted

theorem sent_apply {v : View} (hk : v.Keyed) (hv : v.Sent) {t : Transition}
    (horphans : ∀ intents, t = .orphaned intents → ∀ i ∈ intents, ∀ key, i.asks? key = none) :
    (v.apply t).Sent := by
  intro key s' h
  cases sessionFrom h with
  | kept hs hother =>
    rw [emitted_apply_eq]
    refine (hv key s' hs).append fun i hi => ?_
    cases sentBy hi with
    | moved hs₀ hmem =>
      cases hasks : i.asks? s'.key with
      | none => rfl
      | some body =>
        -- a session asks for its own creation only
        have hkey := Session.key_of_asks? hmem hasks
        rw [hk.own hs, hk.own hs₀] at hkey
        exact absurd (by rw [hkey]) (hother _)
    | orphaned hmem => exact horphans _ rfl i hmem _
  | opened hkey hs => exact hs ▸ Session.sent_new _ key
  | moved hs hm =>
    rw [apply_moved hs]
    exact Session.sent_moved (hv key _ hs) hm

theorem sent_foldl {v : View} (hk : v.Keyed) (hv : v.Sent) {ts : List Transition}
    (horphans : ∀ intents, .orphaned intents ∈ ts → ∀ i ∈ intents, ∀ key, i.asks? key = none) :
    (ts.foldl apply v).Sent := by
  induction ts generalizing v with
  | nil => exact hv
  | cons t ts ih =>
    refine ih (keyed_apply hk t) (sent_apply hk hv ?_) fun intents hi =>
      horphans intents (List.mem_cons_of_mem _ hi)
    rintro intents rfl
    exact horphans intents List.mem_cons_self

end View

theorem Context.asks?_of_mem_script {c : Context} {a : Action} {intents : List Intent}
    (h : .orphaned intents ∈ c.script a) : ∀ i ∈ intents, ∀ key, i.asks? key = none := by
  intro i hi key
  rcases (makes_of_mem_script h).orphans i hi with ⟨_, _, rfl⟩ | ⟨_, rfl⟩ <;> rfl

namespace World

/-- The body that a waiting session keeps is that of the last request to create it. -/
theorem bodySent_run (config : ClientConfig) (actions : List Action) :
    (run config actions).view.Sent := by
  induction actions using List.reverseRecOn with
  | nil =>
    intro key s h
    simp [run, acts, view, Context.view] at h
  | append_singleton actions a ih =>
    rw [run_snoc, view_act (keyed_run config actions)]
    exact View.sent_foldl (keyed_run config actions) ih fun intents =>
      Context.asks?_of_mem_script

/-- An answer to the creation of a session that waits for it finds the body that was sent last, and
leaves the record as it should be. -/
def KeepsRecord (w : World) : Action → Prop
  | .event (.createResult key (.ok answer)) =>
      ∀ s, w.context.session? key = some s → s.state = .createPending →
        ∃ sent s', lastAsked? key w.emitted = some sent ∧
          (w.act (.event (.createResult key (.ok answer)))).context.session? key = some s' ∧
          s'.data = sent.settled s.data answer.tmgi
  | _ => True

/-- The session that gets a TMGI back which was sent and has been cleared since. -/
def restored (w : World) : Action → List SessionKey
  | .event (.createResult key (.ok answer)) =>
      match w.context.session? key, lastAsked? key w.emitted with
      | some s, some sent =>
          if s.state = .createPending ∧ sent.tmgi.isSome ∧ s.data.tmgi = none ∧
              answer.tmgi.isSome then [key] else []
      | _, _ => []
  | _ => []

theorem keepsRecord_iff {w : World} (hk : w.view.Keyed) (hsent : w.view.Sent) (a : Action) :
    w.KeepsRecord a ↔ w.restored a = [] := by
  unfold restored
  split
  · rename_i key answer
    cases hs : w.context.session? key with
    | none => simp [KeepsRecord, hs]
    | some s =>
      by_cases hstate : s.state = .createPending
      · obtain ⟨body, bundled, hwait⟩ := Session.waitingFor?_of_state hstate
        have hkey : s.key = key := hk.own hs
        have hlast : lastAsked? key w.emitted = some body := by
          rw [← hkey]
          exact hsent key s hs body bundled (Session.remote_of_waitingFor? hwait).2
        have hget : (w.act (.event (.createResult key (.ok answer)))).context.session? key =
            some (s.created body bundled answer).1 := by
          have hview := view_act_created hk hs hwait answer
          show (w.act (.event (.createResult key (.ok answer)))).view.sessions.get? key = _
          rw [hview]
          exact SortedMap.get?_insert_self ..
        have hkeeps : w.KeepsRecord (.event (.createResult key (.ok answer))) ↔
            (s.created body bundled answer).1.data = body.settled s.data answer.tmgi := by
          simp [KeepsRecord, hs, hstate, hlast, hget]
        rw [hkeeps, Session.data_created, hlast]
        simp [hstate]
      · simp only [KeepsRecord, hs]
        refine ⟨fun _ => ?_, fun _ t ht hwaits => ?_⟩
        · split
          · rename_i hsome _
            rw [← Option.some.inj hsome]
            exact if_neg fun hwaits => hstate hwaits.1
          · rfl
        · rw [← Option.some.inj ht] at hwaits
          exact absurd hwaits hstate
  · rename_i hother
    refine ⟨fun _ => rfl, fun _ => ?_⟩
    unfold KeepsRecord
    split
    · rename_i key answer
      exact absurd rfl (hother key answer)
    · trivial

end World

/-- **The answers to creations keep the local records throughout a run exactly if none brings back a
TMGI that was sent and has been cleared since.** -/
theorem records_kept_iff_none_restored (config : ClientConfig) (actions : List Action) :
    World.Throughout World.KeepsRecord { context := { config } } actions ↔
      World.along World.restored { context := { config } } actions = [] :=
  World.throughout_iff_along fun before a _ _ =>
    World.keepsRecord_iff (World.keyed_run config before) (World.bodySent_run config before) a

/-- The TMGI of a session is cleared, and one asked for instead, while its creation is outstanding;
the answer names the one that was sent. -/
def echoed : List Action :=
  let tmgi : Tmgi := { mbsServiceId := "0000AB", plmnId := { mcc := "001", mnc := "01" } }
  [.newSession, .changeSession 1 (.tmgi (some tmgi)), .push 1, .changeSession 1 (.tmgi none),
    .changeSession 1 (.tmgiAllocReq true),
    .event (.createResult 1 (.ok { resourceId := "r", tmgi := some tmgi }))]

/-- The record gets the TMGI back. -/
theorem record_restored_echoed :
    ¬ World.Throughout World.KeepsRecord { context := {} } echoed := by
  rw [records_kept_iff_none_restored]
  have hrestored : World.along World.restored { context := {} } echoed = [1] := rfl
  rw [hrestored]
  simp

end MbsClient
