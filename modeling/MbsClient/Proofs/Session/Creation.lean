import MbsClient.Proofs.Session.Traffic

/-!
# Creations — the body that an outstanding creation was sent with

A session keeps the body of the creation it waits for. It is the body of the last request to create
the session, whatever has happened to the record since (`sent_moved`).
-/

namespace MbsClient

namespace Intent

/-- The body that the session is to be created with. -/
def asks? (key : SessionKey) : Intent → Option MbsSession
  | .createResource session body _ => if session = key then some body else none
  | _ => none

/-- The body that the session was last to be created with. -/
def lastAsked? (key : SessionKey) (intents : List Intent) : Option MbsSession :=
  (intents.filterMap (asks? key)).getLast?

variable {key : SessionKey} {before after : List Intent}

theorem lastAsked?_append_of_none (h : ∀ i ∈ after, i.asks? key = none) :
    lastAsked? key (before ++ after) = lastAsked? key before := by
  have hnone : after.filterMap (asks? key) = [] := List.filterMap_eq_nil_iff.2 h
  rw [lastAsked?, List.filterMap_append, hnone, List.append_nil, lastAsked?]

theorem lastAsked?_concat (before : List Intent) (body : MbsSession)
    (bundled : Option BundledSubscription) :
    lastAsked? key (before ++ [.createResource key body bundled]) = some body := by
  simp [lastAsked?, asks?]

end Intent

namespace Session

open Intent

/-- The creation that the session waits for was sent with the body that it keeps. -/
def Sent (log : List Intent) (s : Session) : Prop :=
  ∀ body bundled, s.remote = .creating body bundled → lastAsked? s.key log = some body

theorem sent_new (log : List Intent) (key : SessionKey) : Sent log { key } := by
  intro body bundled h
  cases h

theorem sent_of_not_creating {log : List Intent} {s : Session}
    (h : ∀ body bundled, s.remote ≠ .creating body bundled) : s.Sent log :=
  fun body bundled hremote => absurd hremote (h body bundled)

-- What else is sent changes nothing.
theorem Sent.append {log more : List Intent} {s : Session} (h : s.Sent log)
    (hmore : ∀ i ∈ more, i.asks? s.key = none) : s.Sent (log ++ more) := by
  intro body bundled hremote
  rw [lastAsked?_append_of_none hmore]
  exact h body bundled hremote

-- The subscription that rides along has no part in it.
theorem Sent.of_bare {log : List Intent} {s s' : Session} (h : s.Sent log) (hkey : s'.key = s.key)
    (hremote : s'.remote.bare = s.remote.bare) : s'.Sent log := by
  intro body bundled hs'
  rw [hs'] at hremote
  rw [hkey]
  cases hr : s.remote with
  | absent =>
    rw [hr] at hremote
    cases hremote
  | creating body' bundled' =>
    rw [hr] at hremote
    rw [(Remote.creating.inj hremote).1]
    exact h body' bundled' hr
  | registered r =>
    rw [hr] at hremote
    cases hremote

theorem sent_create (config : ClientConfig) (s : Session) (log : List Intent) :
    (s.create config).1.Sent (log ++ [(s.create config).2]) := by
  intro body bundled hremote
  obtain ⟨rfl, -⟩ := Remote.creating.inj hremote
  exact lastAsked?_concat log s.data _

theorem remote_reconcile (config : ClientConfig) (s : Session) (r : Resource) :
    ∃ r', (s.reconcile config r).1.remote = .registered r' := by
  obtain ⟨p, -, heq⟩ := reconcile_eq config s r
  rw [heq]
  exact ⟨_, rfl⟩

theorem sent_push {s s' : Session} {log : List Intent} (h : s.Sent log) {config : ClientConfig}
    (hs' : (s.push config).1 = some s') : s'.Sent (log ++ (s.push config).2) := by
  have hpushes := s.pushes config
  generalize s.push config = q at hpushes hs' ⊢
  cases hpushes with
  | removed => cases hs'
  | created =>
    rw [← Option.some.inj hs']
    exact sent_create config s log
  | recreated =>
    rw [← Option.some.inj hs']
    have hsent := sent_create config s.requeue (log ++ s.release)
    rwa [List.append_assoc] at hsent
  | @reconciled r =>
    rw [← Option.some.inj hs']
    obtain ⟨r', hr'⟩ := remote_reconcile config s r
    exact sent_of_not_creating fun body bundled hremote => by
      rw [hr'] at hremote
      cases hremote
  | idle =>
    rw [← Option.some.inj hs', List.append_nil]
    exact h

-- Of the moves that are not pushes none asks for a creation.
theorem asks?_of_mem_moved {s : Session} {m : Move} (hm : ∀ config, m ≠ .push config) {i : Intent}
    (h : i ∈ (s.moved m).2) (key : SessionKey) : i.asks? key = none := by
  cases sends_of_mem h with
  | letGo => rfl
  | pushed => exact absurd rfl (hm _)
  | released => rfl

-- A session asks for its own creation only.
theorem key_of_asks? {s : Session} {m : Move} {i : Intent} (h : i ∈ (s.moved m).2)
    {key : SessionKey} {body : MbsSession} (hbody : i.asks? key = some body) : key = s.key := by
  refine speaks_of_moved h key ?_
  unfold asks? at hbody
  split at hbody
  · split at hbody
    · rename_i hkey
      exact congrArg some hkey
    · cases hbody
  · cases hbody

-- Other moves than pushes leave the outstanding creation as it is, or end it.
theorem sent_of_moved {s s' : Session} {log : List Intent} (h : s.Sent log) {m : Move}
    (hm : ∀ config, m ≠ .push config) (hs' : (s.moved m).1 = some s') : s'.Sent log := by
  cases m with
  | push config => exact absurd rfl (hm config)
  | change c =>
    rw [← Option.some.inj hs']
    cases hc : s.change c with
    | error e => exact h
    | ok t =>
      obtain ⟨data, dirty, rfl⟩ := eq_of_change hc
      exact h
  | markDeleted =>
    rw [← Option.some.inj hs']
    exact h
  | release => simp [moved] at hs'
  | created answer =>
    simp only [moved] at hs'
    split at hs' <;> rw [← Option.some.inj hs']
    · exact sent_of_not_creating fun _ _ => Remote.noConfusion
    · exact h
  | refused problem =>
    simp only [moved] at hs'
    split at hs' <;> rw [← Option.some.inj hs']
    · exact sent_of_not_creating fun _ _ => Remote.noConfusion
    · exact h
  | timedOut =>
    simp only [moved] at hs'
    split at hs'
    · simp at hs'
    · rwa [← Option.some.inj hs']
  | patched result =>
    rw [← Option.some.inj hs']
    unfold patched
    split
    · split
      · exact sent_of_not_creating fun _ _ => Remote.noConfusion
      · exact h
    · exact h
  | _ =>
    refine h.of_bare (key_of_moved hs') (sameBody_moved ?_ hs').remote
    exact trivial

/-- **The body that a session keeps of the creation it waits for is the one that was sent last**,
whatever happens to the session. -/
theorem sent_moved {s s' : Session} {log : List Intent} (h : s.Sent log) {m : Move}
    (hs' : (s.moved m).1 = some s') : s'.Sent (log ++ (s.moved m).2) := by
  by_cases hm : ∃ config, m = .push config
  · obtain ⟨config, rfl⟩ := hm
    exact sent_push h hs'
  · have hm : ∀ config, m ≠ .push config := fun config hconfig => hm ⟨config, hconfig⟩
    exact (sent_of_moved h hm hs').append fun i hi => asks?_of_mem_moved hm hi _

end Session

end MbsClient
