import MbsClient.Proofs.Patch.Paths
import MbsClient.Proofs.Session.Traffic

/-!
# Agreement — the identity is acknowledged as a whole

What a session keeps as the acknowledged identity is that of the acknowledged record and of the
body that the outstanding patch leads to (`agreed_moved`). A patch is only sent where the record has
that identity as well, so it has no step on the identity (`patch_avoids_identity`).
-/

namespace MbsClient

open Patch

namespace Session

/-! ## 1. The acknowledged identity -/

/-- The resource has been acknowledged, and will be changed, under the acknowledged identity. -/
structure Resource.Agrees (identity : MbsSessionId) (r : Resource) : Prop where
  acked : r.acked.mbsSessionId = identity
  patching : ∀ body ∈ r.patching, body.mbsSessionId = identity

def Agreed (s : Session) : Prop := ∀ r, s.remote = .registered r → Resource.Agrees s.identity r

theorem agreed_new (key : SessionKey) : Agreed { key } := by
  intro r hr
  cases hr

theorem agreed_of_not_registered {s : Session} (h : ∀ r, s.remote ≠ .registered r) : s.Agreed :=
  fun r hr => absurd hr (h r)

theorem agreed_of_registered {s : Session} {r : Resource} (hr : s.remote = .registered r)
    (h : Resource.Agrees s.identity r) : s.Agreed := by
  intro r' hr'
  rw [hr] at hr'
  rwa [← Remote.registered.inj hr']

-- The subscriptions of the resource have no part in it.
theorem Agreed.of_sameBody {s s' : Session} (h : s.Agreed) (hsame : SameBody s s') : s'.Agreed := by
  intro r' hr'
  have hremote := hsame.remote
  rw [hr'] at hremote
  cases hr : s.remote with
  | absent =>
    rw [hr] at hremote
    cases hremote
  | creating body bundled =>
    rw [hr] at hremote
    cases hremote
  | registered r =>
    rw [hr] at hremote
    obtain ⟨-, hacked, hpatching, -⟩ := Resource.mk.inj (Remote.registered.inj hremote)
    obtain ⟨hagrees, hbody⟩ := h r hr
    rw [hsame.identity]
    exact ⟨by rw [hacked]; exact hagrees, by rw [hpatching]; exact hbody⟩

theorem mbsSessionId_of_identityChanged {s : Session} (h : s.identityChanged = false) :
    s.data.mbsSessionId = s.identity :=
  bne_eq_false_iff_eq.1 h

/-! ### Pushes -/

theorem agreed_pushSubscriptions {s : Session} {r : Resource} (h : Resource.Agrees s.identity r)
    (config : ClientConfig) : (s.pushSubscriptions config r).1.Agreed :=
  agreed_of_registered rfl ⟨h.acked, h.patching⟩

-- A patch leads to the record as it is, which has the acknowledged identity.
theorem agreed_reconcile {s : Session} {r : Resource} (h : Resource.Agrees s.identity r)
    (hsame : s.identityChanged = false) (config : ClientConfig) :
    (s.reconcile config r).1.Agreed := by
  simp only [reconcile]
  apply agreed_pushSubscriptions
  split
  · unfold pushBody
    split
    · exact h
    · split
      · exact h
      · refine ⟨h.acked, fun body hbody => ?_⟩
        rw [← Option.some.inj hbody]
        exact mbsSessionId_of_identityChanged hsame
  · exact h

theorem agreed_push {s s' : Session} (h : s.Agreed) {config : ClientConfig}
    (hs' : (s.push config).1 = some s') : s'.Agreed := by
  have hpushes := s.pushes config
  generalize s.push config = q at hpushes hs'
  cases hpushes with
  | removed => cases hs'
  | created =>
    rw [← Option.some.inj hs']
    exact agreed_of_not_registered fun _ => Remote.noConfusion
  | recreated =>
    rw [← Option.some.inj hs']
    exact agreed_of_not_registered fun _ => Remote.noConfusion
  | reconciled _ hremote hsame =>
    rw [← Option.some.inj hs']
    exact agreed_reconcile (h _ hremote) hsame config
  | idle => rwa [← Option.some.inj hs']

/-! ### Answers -/

-- The identity is that of the record that the answer acknowledges.
theorem agreed_created (s : Session) (body : MbsSession) (bundled : Option SubscriptionKey)
    (answer : SessionCreated) : (s.created body bundled answer).1.Agreed :=
  agreed_of_registered rfl ⟨rfl, fun _ hbody => nomatch hbody⟩

theorem agreed_patched {s : Session} (h : s.Agreed) (result : OperationResult) :
    (s.patched result).1.Agreed := by
  unfold patched
  split
  · rename_i r _ hremote
    split
    · rename_i body hpatching
      have hagrees := h r hremote
      refine agreed_of_registered rfl ⟨?_, fun _ hbody => nomatch hbody⟩
      show (if result.isOk then body else r.acked).mbsSessionId = s.identity
      split
      · exact hagrees.patching body hpatching
      · exact hagrees.acked
    · exact h
  · exact h

/-- **The acknowledged identity is that of the acknowledged record** and of the outstanding patch,
whatever happens to a session. -/
theorem agreed_moved {s s' : Session} (h : s.Agreed) {m : Move} (hs' : (s.moved m).1 = some s') :
    s'.Agreed := by
  cases m with
  | change c =>
    rw [← Option.some.inj hs']
    cases hc : s.change c with
    | error e => exact h
    | ok t =>
      obtain ⟨data, dirty, rfl⟩ := eq_of_change hc
      exact h
  | markDeleted =>
    rw [← Option.some.inj hs']
    exact h
  | push config => exact agreed_push h hs'
  | release => simp [moved] at hs'
  | created answer =>
    simp only [moved] at hs'
    split at hs' <;> rw [← Option.some.inj hs']
    · exact agreed_created s _ _ answer
    · exact h
  | refused problem =>
    simp only [moved] at hs'
    split at hs' <;> rw [← Option.some.inj hs']
    · exact agreed_of_not_registered fun _ => Remote.noConfusion
    · exact h
  | timedOut =>
    simp only [moved] at hs'
    split at hs'
    · simp at hs'
    · rwa [← Option.some.inj hs']
  | patched result =>
    rw [← Option.some.inj hs']
    exact agreed_patched h result
  | _ =>
    refine h.of_sameBody (sameBody_moved ?_ hs')
    exact trivial

/-! ## 2. Patches -/

-- Requests about subscriptions are no patches of the session.
theorem not_mem_pushSubscriptions (config : ClientConfig) (s : Session) (r : Resource)
    (key : SessionKey) (id : String) (ops : List Operation) :
    .patchResource key id ops ∉ (s.pushSubscriptions config r).2 := by
  intro h
  cases subscriptionRequest_of_mem h

/-- A patch leads from the acknowledged record to the record as it is, which have one identity. -/
structure Patches (s : Session) (ops : List Operation) : Prop where
  identified : s.identityChanged = false
  differs : ∃ r, s.remote = .registered r ∧ ops = Diff.values r.acked s.data

theorem patches_of_mem_push {s : Session} {config : ClientConfig} {key : SessionKey} {id : String}
    {ops : List Operation} (h : .patchResource key id ops ∈ (s.push config).2) :
    s.Patches ops := by
  have hrelease : .patchResource key id ops ∉ s.release := by
    intro h
    obtain ⟨id', -, heq⟩ := exists_of_mem_release h
    cases heq
  have hpushes := s.pushes config
  generalize s.push config = q at hpushes h
  cases hpushes with
  | removed => exact absurd h hrelease
  | created => cases List.mem_singleton.1 h
  | recreated =>
    rcases List.mem_append.1 h with h | h
    · exact absurd h hrelease
    · cases List.mem_singleton.1 h
  | @reconciled r hkept hremote hsame =>
    simp only [reconcile, List.mem_append] at h
    rcases h with h | h
    · refine ⟨hsame, r, hremote, ?_⟩
      split at h
      · unfold pushBody at h
        split at h
        · cases h
        · split at h
          · cases h
          · cases List.mem_singleton.1 h
            rfl
      · cases h
    · exact (not_mem_pushSubscriptions _ _ _ _ _ _ h).elim
  | idle => cases h

-- Only a push sends patches.
theorem patches_of_mem_moved {s : Session} {m : Move} {key : SessionKey} {id : String}
    {ops : List Operation} (h : .patchResource key id ops ∈ (s.moved m).2) : s.Patches ops := by
  cases sends_of_mem h with
  | pushed h => exact patches_of_mem_push h

end Session

/-! ## 3. Where the steps of a patch lie -/

theorem MbsSession.inside_members :
    ∀ m ∈ (Record.members : List (Member MbsSession)), m.Inside := by
  simp [Record.members]

-- The one member of that name compares the identities only.
theorem MbsSession.identity_edits {old new : MbsSession}
    (hsame : old.mbsSessionId = new.mbsSessionId) {m : Member MbsSession}
    (hm : m ∈ Record.members) (hname : m.name = "mbsSessionId") : m.edits old new = [] := by
  have hmembers : ∀ m ∈ (Record.members : List (Member MbsSession)),
      m = .always "mbsSessionId" mbsSessionId ∨ m.name ≠ "mbsSessionId" := by
    simp [Record.members, Member.always, Member.optional, Member.flag, Member.sequence]
  rcases hmembers m hm with rfl | hother
  · show Patch.under "mbsSessionId" (Diff.edits old.mbsSessionId new.mbsSessionId) = []
    rw [hsame, Diff.Steady.edits_self, Diff.under_nil]
  · exact absurd hname hother

theorem MbsSession.name_ne_empty :
    ∀ m ∈ (Record.members : List (Member MbsSession)), m.name ≠ "" := by
  simp [Record.members, Member.always, Member.optional, Member.flag, Member.sequence]

theorem Patch.Pointer.text_identity : Pointer.text ["mbsSessionId"] = "/mbsSessionId" := by
  decide

/-- A step on the identity, on the whole record, or within the identity. -/
def Patch.Operation.TouchesIdentity (op : Operation) : Prop :=
  op.isRoot = true ∨ Pointer.Within "/mbsSessionId" op.path

-- Records of one identity differ elsewhere.
theorem not_touchesIdentity {old new : MbsSession} (hsame : old.mbsSessionId = new.mbsSessionId)
    {op : Operation} (h : op ∈ Diff.values old new) : ¬ op.TouchesIdentity := by
  obtain ⟨e, he, rfl⟩ := List.mem_map.1 h
  have he : e ∈ Member.differences Record.members old new := he
  rintro (hroot | hwithin)
  · obtain ⟨m, hm, hem⟩ := List.mem_flatMap.1 he
    have hhead := MbsSession.inside_members m hm old new e hem
    exact Pointer.text_ne_root (MbsSession.name_ne_empty m hm) hhead (of_decide_eq_true hroot)
  · have hwithin : Pointer.Within (Pointer.text ["mbsSessionId"]) (Pointer.text e.path) := by
      rw [Pointer.text_identity]
      exact hwithin
    obtain ⟨m, hm, hname, hem⟩ :=
      Member.member_of_within MbsSession.inside_members (by simp) he hwithin
    rw [MbsSession.identity_edits hsame hm hname] at hem
    cases hem

theorem Session.Agreed.not_touchesIdentity {s : Session} (h : s.Agreed) {ops : List Operation}
    (hpatches : s.Patches ops) : ∀ op ∈ ops, ¬ op.TouchesIdentity := by
  intro op hop
  obtain ⟨hidentified, r, hremote, rfl⟩ := hpatches
  refine MbsClient.not_touchesIdentity ?_ hop
  rw [(h r hremote).acked, mbsSessionId_of_identityChanged hidentified]

end MbsClient
