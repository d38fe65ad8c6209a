import MbsClient.Proofs.Context.Pending
import MbsClient.Proofs.Session.Agreement

/-!
# Identity along a run — acknowledged as a whole, and never patched

The identity of a session is known to the MB-SMF as a whole or not at all: no patch of any run has a
step on it, and a push of a session with another identity takes the resource down and asks for a new
one (`identity_acknowledged_as_a_whole`).
-/

namespace MbsClient

open Patch

namespace Session

/-- The patches among the intents leave the identity alone. -/
def SparesIdentity : Intent → Prop
  | .patchResource _ _ ops => ∀ op ∈ ops, ¬ op.TouchesIdentity
  | _ => True

theorem sparesIdentity_of_mem_moved {s : Session} (h : s.Agreed) {m : Move} {i : Intent}
    (hi : i ∈ (s.moved m).2) : SparesIdentity i := by
  cases i with
  | patchResource key id ops => exact h.not_touchesIdentity (patches_of_mem_moved hi)
  | _ => trivial

theorem identityChanged_of_ne {s : Session}
    (h : s.data.ssm ≠ s.identity.ssm ∨ s.data.tmgi ≠ s.identity.tmgi) :
    s.identityChanged = true := by
  rw [identityChanged, bne_iff_ne]
  intro hsame
  rcases h with h | h
  · exact h (congrArg MbsSessionId.ssm hsame)
  · exact h (congrArg MbsSessionId.tmgi hsame)

-- A session with another identity is removed and created anew, dirty or not.
theorem push_of_identityChanged {s : Session} {r : Resource} (hkept : s.deleted = false)
    (hr : s.remote = .registered r) (hchanged : s.identityChanged = true)
    (config : ClientConfig) : ∃ bundled, (s.push config).2 =
      [.removeResource s.key r.id, .createResource s.key s.data bundled] := by
  have hrelease : s.release = [.removeResource s.key r.id] := by rw [release, hr]
  refine ⟨(bundleFirst s.data.mbsSessionId config.notificationServers
    s.requeue.pendingNew).1, ?_⟩
  simp only [push, hkept, hr, hchanged, hrelease, Bool.false_eq_true, if_false, if_true]
  rfl

end Session

namespace World

theorem agreed_run (config : ClientConfig) (actions : List Action) :
    (run config actions).view.All Session.Agreed :=
  all_run Session.agreed_new (fun _ _ _ _ _ h hs' => Session.agreed_moved h hs') actions

theorem sparesIdentity_run (config : ClientConfig) (actions : List Action) :
    ∀ i ∈ (run config actions).emitted, Session.SparesIdentity i :=
  sent_run Session.agreed_new (fun _ _ _ _ _ h hs' => Session.agreed_moved h hs')
    (fun _ _ h _ hi => Session.sparesIdentity_of_mem_moved h hi) (fun _ _ => trivial)
    (fun _ => trivial) actions

end World

/-- **The identity is acknowledged as a whole and never patched.** The acknowledged record of a
registered session, and the body that an outstanding patch leads to, have the SSM and the TMGI that
the session takes as acknowledged. No patch of the run has a step on the identity. And a registered
session that has another SSM or TMGI by now is removed and created anew by a push, which sends
nothing else, whether it is dirty or not. -/
theorem identity_acknowledged_as_a_whole (config : ClientConfig) (actions : List Action) :
    (∀ key s, (World.run config actions).context.session? key = some s → s.state = .registered →
      ∃ acked, s.acknowledged? = some acked ∧
        acked.ssm = s.identity.ssm ∧ acked.tmgi = s.identity.tmgi ∧
        ∀ body, (s.resource?.bind Resource.patching) = some body →
          body.ssm = s.identity.ssm ∧ body.tmgi = s.identity.tmgi) ∧
    (∀ key id ops, .patchResource key id ops ∈ (World.run config actions).emitted →
      ∀ op ∈ ops, ¬ op.TouchesIdentity) ∧
    (∀ key s, (World.run config actions).context.session? key = some s → s.state = .registered →
      s.data.ssm ≠ s.identity.ssm ∨ s.data.tmgi ≠ s.identity.tmgi →
      ∃ id bundled, s.resourceId? = some id ∧
        ((World.run config actions).act (.push key)).emitted =
          (World.run config actions).emitted ++
            [.removeResource key id, .createResource key s.data bundled]) := by
  refine ⟨fun key s hs hstate => ?_, fun key id ops hops => ?_, fun key s hs hstate hne => ?_⟩
  · obtain ⟨-, r, hr⟩ := Session.registered_of_state hstate
    have hagrees := World.agreed_run config actions key s hs r hr
    have hresource : s.resource? = some r := by rw [Session.resource?, hr]; rfl
    refine ⟨r.acked, by rw [Session.acknowledged?, hresource]; rfl,
      congrArg MbsSessionId.ssm hagrees.acked, congrArg MbsSessionId.tmgi hagrees.acked,
      fun body hbody => ?_⟩
    rw [hresource, Option.bind_some] at hbody
    have hidentity := hagrees.patching body hbody
    exact ⟨congrArg MbsSessionId.ssm hidentity, congrArg MbsSessionId.tmgi hidentity⟩
  · exact World.sparesIdentity_run config actions _ hops
  · obtain ⟨hkept, r, hr⟩ := Session.registered_of_state hstate
    have hkeyed := World.keyed_run config actions
    obtain ⟨bundled, hsent⟩ := Session.push_of_identityChanged hkept hr
      (Session.identityChanged_of_ne hne) (World.run config actions).context.config
    have hkey : s.key = key := hkeyed.own hs
    refine ⟨r.id, bundled, by rw [Session.resourceId?, Session.resource?, hr]; rfl, ?_⟩
    rw [World.emitted_push hkeyed hs, hsent, hkey]

end MbsClient
