import MbsClient.Proofs.Session.Body

/-!
# Traffic — the messages about the records of sessions

What passes between sessions and the MB-SMF about records is kept as one list, oldest first. An
answer to a patch names the session alone; which patch it answers is given beside the list. As long
as no answer is taken for one to another patch, the acknowledged record is the one that the
messages since the last creation speak of (`told_push`, `told_patched`).
-/

namespace MbsClient

inductive Message where
  /-- The session is to be created with a body. -/
  | create (session : SessionKey) (body : MbsSession)
  /-- The session takes in the answer to its creation. -/
  | created (session : SessionKey) (answer : SessionCreated)
  /-- The resource is to be changed, so that the session has a body. -/
  | patch (session : SessionKey) (resource : String) (body : MbsSession)
  /-- A patch has been answered, and it has been applied or not. -/
  | patched (session : SessionKey) (applied : Bool)

namespace Message

/-- The session that a request is made for. -/
def sender? : Message → Option SessionKey
  | .create session _ => some session
  | .patch session _ _ => some session
  | _ => none

end Message

/-- What a request says of a record. A patch is made of steps; the record that they lead to is the
one the session has. -/
def Intent.message? (record : SessionKey → Option MbsSession) : Intent → Option Message
  | .createResource key body _ => some (.create key body)
  | .patchResource key resource _ => (record key).map (.patch key resource)
  | _ => none

namespace Traffic

/-! ## 1. What messages say -/

/-- Every answer to a patch has its patch, which was sent before for the same session, and no patch
is answered twice. The position of the patch is found by that of the answer. -/
structure Answers (p : Nat → Nat) (log : List Message) : Prop where
  sent : ∀ {m key applied}, log[m]? = some (.patched key applied) →
    p m < m ∧ ∃ resource body, log[p m]? = some (.patch key resource body)
  once : ∀ {m n key key' applied applied'}, log[m]? = some (.patched key applied) →
    log[n]? = some (.patched key' applied') → p m = p n → m = n

/-- The creation of the session that was sent last, by its position. -/
def Latest (log : List Message) (key : SessionKey) (i : Nat) (body : MbsSession) : Prop :=
  log[i]? = some (.create key body) ∧
    ∀ j body', i < j → log[j]? ≠ some (.create key body')

/-- The patch at the position has been answered. -/
def Answered (p : Nat → Nat) (log : List Message) (n : Nat) : Prop :=
  ∃ m key applied, log[m]? = some (.patched key applied) ∧ p m = n

/-- The acknowledged record of a resource is the body of the creation, with the TMGI that the answer
names, or the body of a patch that was sent for the resource and has been applied. -/
def GenuineSince (p : Nat → Nat) (log : List Message) (key : SessionKey) (i : Nat)
    (body : MbsSession) (r : Resource) : Prop :=
  (∃ m answer, i < m ∧ log[m]? = some (.created key answer) ∧ answer.resourceId = r.id ∧
    r.acked = body.withAllocated answer.tmgi) ∨
  ∃ m, i < p m ∧ log[p m]? = some (.patch key r.id r.acked) ∧ log[m]? = some (.patched key true)

def Genuine (p : Nat → Nat) (log : List Message) (key : SessionKey) (r : Resource) : Prop :=
  ∃ i body, Latest log key i body ∧ GenuineSince p log key i body r

/-- All patches since a position have been answered but the one that the resource waits for. -/
def Outstanding (p : Nat → Nat) (log : List Message) (key : SessionKey) (i : Nat) (r : Resource) :
    Prop :=
  match r.patching with
  | none => ∀ n resource body, i < n → log[n]? = some (.patch key resource body) →
      Answered p log n
  | some sent => ∃ k, i < k ∧ log[k]? = some (.patch key r.id sent) ∧
      ∀ n resource body, i < n → log[n]? = some (.patch key resource body) →
        n = k ∨ Answered p log n

/-- What the messages say is what the session keeps of it. -/
def Known (p : Nat → Nat) (log : List Message) (key : SessionKey) : Remote → Prop
  | .absent => True
  | .creating body _ => ∃ i, Latest log key i body ∧
      ∀ n resource sent, i < n → log[n]? ≠ some (.patch key resource sent)
  | .registered r => ∃ i body, Latest log key i body ∧ GenuineSince p log key i body r ∧
      Outstanding p log key i r

variable {p : Nat → Nat} {log more : List Message} {key : SessionKey}

theorem Answers.of_append (h : Answers p (log ++ more)) : Answers p log where
  sent := by
    intro m key applied hm
    have hlength := (List.getElem?_eq_some_iff.1 hm).1
    rw [← List.getElem?_append_left hlength] at hm
    obtain ⟨hbefore, resource, body, hpatch⟩ := h.sent hm
    rw [List.getElem?_append_left (Nat.lt_trans hbefore hlength)] at hpatch
    exact ⟨hbefore, resource, body, hpatch⟩
  once := by
    intro m n key key' applied applied' hm hn
    have hlength := (List.getElem?_eq_some_iff.1 hm).1
    have hlength' := (List.getElem?_eq_some_iff.1 hn).1
    rw [← List.getElem?_append_left hlength] at hm
    rw [← List.getElem?_append_left hlength'] at hn
    exact h.once hm hn

theorem known_bare {remote : Remote} : Known p log key remote.bare ↔ Known p log key remote := by
  cases remote <;> exact Iff.rfl

/-! ## 2. Messages of others -/

theorem get?_append {n : Nat} {d : Message} (h : log[n]? = some d) :
    (log ++ more)[n]? = some d := by
  rw [List.getElem?_append_left (List.getElem?_eq_some_iff.1 h).1]
  exact h

-- A message of the session is not among those of others.
theorem get?_of_append {n : Nat} {d : Message} (hmore : ∀ d ∈ more, d.sender? ≠ some key)
    (hd : d.sender? = some key) (h : (log ++ more)[n]? = some d) : log[n]? = some d := by
  rcases Nat.lt_or_ge n log.length with hn | hn
  · rwa [List.getElem?_append_left hn] at h
  · rw [List.getElem?_append_right hn] at h
    exact absurd hd (hmore d (List.mem_of_getElem? h))

theorem get?_concat_of_gt {d : Message} {n : Nat} (h : log.length < n) :
    (log ++ [d])[n]? = none := by
  apply List.getElem?_eq_none
  rw [List.length_append, List.length_singleton]
  exact h

theorem answered_append {n : Nat} (h : Answered p log n) : Answered p (log ++ more) n := by
  obtain ⟨m, key, applied, hm, hp⟩ := h
  exact ⟨m, key, applied, get?_append hm, hp⟩

theorem latest_append (hmore : ∀ d ∈ more, d.sender? ≠ some key) {i : Nat} {body : MbsSession}
    (h : Latest log key i body) : Latest (log ++ more) key i body :=
  ⟨get?_append h.1, fun j body' hj hcreate => h.2 j body' hj (get?_of_append hmore rfl hcreate)⟩

theorem genuineSince_append {i : Nat} {body : MbsSession} {r : Resource}
    (h : GenuineSince p log key i body r) : GenuineSince p (log ++ more) key i body r := by
  rcases h with ⟨m, answer, hi, hm, hid, hacked⟩ | ⟨m, hi, hpatch, hm⟩
  · exact .inl ⟨m, answer, hi, get?_append hm, hid, hacked⟩
  · exact .inr ⟨m, hi, get?_append hpatch, get?_append hm⟩

theorem outstanding_append (hmore : ∀ d ∈ more, d.sender? ≠ some key) {i : Nat} {r : Resource}
    (h : Outstanding p log key i r) : Outstanding p (log ++ more) key i r := by
  unfold Outstanding at h ⊢
  cases hr : r.patching with
  | none =>
    rw [hr] at h
    intro n resource body hi hn
    exact answered_append (h n resource body hi (get?_of_append hmore rfl hn))
  | some sent =>
    rw [hr] at h
    obtain ⟨k, hk, hpatch, hothers⟩ := h
    refine ⟨k, hk, get?_append hpatch, fun n resource body hi hn => ?_⟩
    exact (hothers n resource body hi (get?_of_append hmore rfl hn)).imp_right answered_append

theorem known_append (hmore : ∀ d ∈ more, d.sender? ≠ some key) {remote : Remote}
    (h : Known p log key remote) : Known p (log ++ more) key remote := by
  cases remote with
  | absent => trivial
  | creating body bundled =>
    obtain ⟨i, hlatest, hnone⟩ := h
    exact ⟨i, latest_append hmore hlatest, fun n resource sent hi hn =>
      hnone n resource sent hi (get?_of_append hmore rfl hn)⟩
  | registered r =>
    obtain ⟨i, body, hlatest, hgenuine, houtstanding⟩ := h
    exact ⟨i, body, latest_append hmore hlatest, genuineSince_append hgenuine,
      outstanding_append hmore houtstanding⟩

/-! ## 3. Messages of the session -/

-- A creation is the latest one, and nothing has been sent since.
theorem known_create (body : MbsSession) (bundled : Option SubscriptionKey) :
    Known p (log ++ [.create key body]) key (.creating body bundled) := by
  refine ⟨log.length, ⟨List.getElem?_concat_length .., fun j body' hj => ?_⟩,
    fun n resource sent hn => ?_⟩
  · rw [get?_concat_of_gt hj]
    exact nofun
  · rw [get?_concat_of_gt hn]
    exact nofun

theorem known_created {body : MbsSession} {bundled : Option SubscriptionKey}
    (h : Known p log key (.creating body bundled)) (answer : SessionCreated) :
    Known p (log ++ [.created key answer]) key
      (.registered { id := answer.resourceId, acked := body.withAllocated answer.tmgi }) := by
  obtain ⟨i, hlatest, hnone⟩ := h
  have hmore : ∀ d ∈ [Message.created key answer], d.sender? ≠ some key := by
    simp [Message.sender?]
  have hi : i < log.length := (List.getElem?_eq_some_iff.1 hlatest.1).1
  refine ⟨i, body, latest_append hmore hlatest,
    .inl ⟨log.length, answer, hi, List.getElem?_concat_length .., rfl, rfl⟩, ?_⟩
  intro n resource sent hn hpatch
  exact absurd (get?_of_append hmore rfl hpatch) (hnone n resource sent hn)

-- A patch is sent only when all that were sent before have been answered.
theorem known_patch {r : Resource} (h : Known p log key (.registered r))
    (hpatching : r.patching = none) (body : MbsSession) :
    Known p (log ++ [.patch key r.id body]) key (.registered { r with patching := some body }) := by
  obtain ⟨i, created, hlatest, hgenuine, houtstanding⟩ := h
  have hi : i < log.length := (List.getElem?_eq_some_iff.1 hlatest.1).1
  refine ⟨i, created, ⟨get?_append hlatest.1, fun j body' hj hcreate => ?_⟩,
    genuineSince_append hgenuine, log.length, hi, List.getElem?_concat_length ..,
    fun n resource sent hn hpatch => ?_⟩
  · rcases Nat.lt_or_ge j log.length with hlt | hge
    · rw [List.getElem?_append_left hlt] at hcreate
      exact hlatest.2 j body' hj hcreate
    · rw [List.getElem?_append_right hge] at hcreate
      have hmem := List.mem_of_getElem? hcreate
      simp at hmem
  · rcases Nat.lt_trichotomy n log.length with hlt | rfl | hgt
    · rw [List.getElem?_append_left hlt] at hpatch
      rw [Outstanding, hpatching] at houtstanding
      exact .inr (answered_append (houtstanding n resource sent hn hpatch))
    · exact .inl rfl
    · rw [get?_concat_of_gt hgt] at hpatch
      cases hpatch

/-- The patch that the next answer is one to was sent before the session was last created, so for a
resource that has been removed. -/
def Overtaken (p : Nat → Nat) (log : List Message) (key : SessionKey) : Prop :=
  ∃ j body, p log.length < j ∧ log[j]? = some (.create key body)

-- An answer that has not been overtaken is one to the patch that the session waits for.
theorem known_patched {r : Resource} (h : Known p log key (.registered r)) {body : MbsSession}
    (hpatching : r.patching = some body) {applied : Bool}
    (hanswers : Answers p (log ++ [.patched key applied])) (htime : ¬ Overtaken p log key) :
    Known p (log ++ [.patched key applied]) key
      (.registered { r with acked := if applied then body else r.acked, patching := none }) := by
  obtain ⟨i, created, hlatest, hgenuine, houtstanding⟩ := h
  rw [Outstanding, hpatching] at houtstanding
  obtain ⟨k, hk, hpatch, hothers⟩ := houtstanding
  have hmore : ∀ d ∈ [Message.patched key applied], d.sender? ≠ some key := by
    simp [Message.sender?]
  have hlast : (log ++ [Message.patched key applied])[log.length]? = some (.patched key applied) :=
    List.getElem?_concat_length ..
  obtain ⟨hbefore, resource, sent, hanswered⟩ := hanswers.sent hlast
  have hanswered := get?_of_append hmore rfl hanswered
  -- the patch was sent after the creation
  have hsince : i < p log.length := by
    rcases Nat.lt_trichotomy i (p log.length) with hlt | heq | hgt
    · exact hlt
    · rw [← heq, hlatest.1] at hanswered
      simp at hanswered
    · exact absurd ⟨i, created, hgt, hlatest.1⟩ htime
  have hcurrent : p log.length = k := by
    rcases hothers (p log.length) resource sent hsince hanswered with heq | hold
    · exact heq
    · -- it has not been answered before
      obtain ⟨m, key', applied', hm, hp⟩ := hold
      have hsame := hanswers.once (get?_append hm) hlast hp
      rw [hsame] at hm
      exact absurd (List.getElem?_eq_some_iff.1 hm).1 (Nat.lt_irrefl _)
  refine ⟨i, created, latest_append hmore hlatest, ?_, ?_⟩
  · cases applied with
    | false => exact genuineSince_append hgenuine
    | true =>
      refine .inr ⟨log.length, hsince, ?_, hlast⟩
      rw [hcurrent]
      exact get?_append hpatch
  · intro n resource' sent' hn hpatch'
    rcases hothers n resource' sent' hn (get?_of_append hmore rfl hpatch') with rfl | hold
    · exact ⟨log.length, key, applied, hlast, hcurrent⟩
    · exact answered_append hold

end Traffic

namespace Session

open Traffic

/-! ## 4. Sessions and their messages -/

/-- What the messages say is what the session keeps of it, unless it is to be taken down. -/
def Told (p : Nat → Nat) (log : List Message) (s : Session) : Prop :=
  s.deleted = false → Known p log s.key s.remote

variable {p : Nat → Nat} {log : List Message} {s s' : Session}

theorem told_new (key : SessionKey) : Told p log { key } := fun _ => trivial

theorem told_of_deleted (h : s.deleted = true) : s.Told p log := fun hkept => by simp [h] at hkept

theorem Told.of_sameBody (h : s.Told p log) (hkey : s'.key = s.key) (hsame : SameBody s s') :
    s'.Told p log := by
  intro hkept
  rw [hsame.deleted] at hkept
  rw [hkey, ← known_bare, hsame.remote, known_bare]
  exact h hkept

theorem Told.append (h : s.Told p log) {more : List Message}
    (hmore : ∀ d ∈ more, d.sender? ≠ some s.key) : s.Told p (log ++ more) :=
  fun hkept => known_append hmore (h hkept)

/-- Moves that say nothing of the record to the MB-SMF and take no answer about it in, but for a
refusal. -/
def Move.Mute : Move → Prop
  | .push _ => False
  | .created _ => False
  | .patched _ => False
  | _ => True

theorem told_moved {m : Move} (hm : m.Mute) (h : s.Told p log) (hs' : (s.moved m).1 = some s') :
    s'.Told p log := by
  cases m with
  | change c =>
    rw [← Option.some.inj hs']
    cases hc : s.change c with
    | error e => exact h
    | ok t =>
      rcases change_cases hc with rfl | ⟨data, rfl⟩
      · exact h
      · exact h
  | markDeleted =>
    rw [← Option.some.inj hs']
    exact told_of_deleted rfl
  | push config => exact hm.elim
  | release => simp [moved] at hs'
  | created answer => exact hm.elim
  | refused problem =>
    simp only [moved] at hs'
    split at hs' <;> rw [← Option.some.inj hs']
    · exact fun _ => trivial
    · exact h
  | timedOut =>
    simp only [moved] at hs'
    split at hs'
    · simp at hs'
    · rwa [← Option.some.inj hs']
  | patched result => exact hm.elim
  | _ =>
    refine h.of_sameBody (key_of_moved hs') (sameBody_moved ?_ hs')
    exact trivial

theorem told_created (h : s.Told p log) {body : MbsSession} {bundled : Option SubscriptionKey}
    (hwait : s.waitingFor? = some (body, bundled)) (answer : SessionCreated) :
    (s.created body bundled answer).1.Told p (log ++ [.created s.key answer]) := by
  obtain ⟨hkept, hremote⟩ := remote_of_waitingFor? hwait
  have hknown := h hkept
  rw [hremote] at hknown
  exact fun _ => known_bare.1 (known_created hknown answer)

theorem told_patched (h : s.Told p log) (result : OperationResult)
    (hanswers : Answers p (log ++ [.patched s.key result.isOk]))
    (htime : s.state = .registered → s.patching?.isSome →
      ¬ Overtaken p log s.key) :
    (s.patched result).1.Told p (log ++ [.patched s.key result.isOk]) := by
  have hmore : ∀ d ∈ [Message.patched s.key result.isOk], d.sender? ≠ some s.key := by
    simp [Message.sender?]
  unfold patched
  split
  · rename_i r hkept hremote
    split
    · rename_i body hpatching
      have hknown := h hkept
      rw [hremote] at hknown
      have hstate : s.state = .registered := by simp [state, hkept, hremote]
      have hsome : s.patching?.isSome := by
        rw [patching?_of_registered hremote, hpatching]
        rfl
      exact fun _ => known_patched hknown hpatching hanswers (htime hstate hsome)
    · exact h.append hmore
  · exact h.append hmore

-- The answer to a patch counts if a registered session waits for it.
theorem patched_eq_self (h : ¬ (s.state = .registered ∧ s.patching?.isSome = true))
    (result : OperationResult) : s.patched result = (s, []) := by
  unfold patched
  split
  · rename_i r hkept hremote
    split
    · rename_i body hpatching
      refine absurd ⟨?_, ?_⟩ h
      · simp [state, hkept, hremote]
      · simp [patching?_of_registered hremote, hpatching]
    · rfl
  · rfl

theorem patching?_patched (h : s.state = .registered) (result : OperationResult) :
    (s.patched result).1.patching? = none := by
  obtain ⟨hkept, r, hremote⟩ := registered_of_state h
  cases hpatching : r.patching with
  | none =>
    simp only [patched, hkept, hremote, hpatching]
    exact (patching?_of_registered hremote).trans hpatching
  | some body =>
    simp only [patched, hkept, hremote, hpatching]
    rfl

/-! ## 5. Pushes -/

variable {record : SessionKey → Option MbsSession} {config : ClientConfig}

theorem messages_release (s : Session) : s.release.filterMap (Intent.message? record) = [] := by
  unfold release
  split <;> rfl

-- Nothing that is sent about subscriptions says anything of the record.
theorem messages_pushSubscriptions (config : ClientConfig) (s : Session) (r : Resource) :
    (s.pushSubscriptions config r).2.filterMap (Intent.message? record) = [] := by
  rw [List.filterMap_eq_nil_iff]
  intro i hi
  cases subscriptionRequest_of_mem hi <;> rfl

theorem data_of_push (hs' : (s.push config).1 = some s') : s'.data = s.data := by
  have hpushes := s.pushes config
  generalize s.push config = q at hpushes hs'
  cases hpushes with
  | removed => cases hs'
  | created =>
    rw [← Option.some.inj hs']
    rfl
  | recreated =>
    rw [← Option.some.inj hs']
    rfl
  | @reconciled r =>
    rw [← Option.some.inj hs']
    obtain ⟨q, hbody, heq⟩ := reconcile_eq config s r
    rw [heq]
    exact hbody.data
  | idle => rw [← Option.some.inj hs']

-- A session speaks for itself only.
theorem sender?_of_push {d : Message}
    (hd : d ∈ (s.push config).2.filterMap (Intent.message? record)) : d.sender? = some s.key := by
  obtain ⟨i, hi, hmessage⟩ := List.mem_filterMap.1 hd
  have hspeaks := speaks_of_push hi
  cases i with
  | createResource key body bundled =>
    rw [← Option.some.inj hmessage]
    exact congrArg some (hspeaks key rfl)
  | patchResource key resource ops =>
    obtain ⟨body, -, rfl⟩ := Option.map_eq_some_iff.1 hmessage
    exact congrArg some (hspeaks key rfl)
  | _ => cases hmessage

theorem told_pushSubscriptions {r : Resource}
    (h : s.deleted = false → Known p log s.key (.registered r)) :
    (s.pushSubscriptions config r).1.Told p log :=
  fun hkept => known_bare.1 (known_bare.2 (h hkept))

-- The body is sent only where no patch is outstanding.
theorem told_reconcile (hrecord : record s.key = some s.data) {r : Resource}
    (h : Known p log s.key (.registered r)) :
    (s.reconcile config r).1.Told p
      (log ++ (s.reconcile config r).2.filterMap (Intent.message? record)) := by
  simp only [reconcile, List.filterMap_append, messages_pushSubscriptions, List.append_nil]
  apply told_pushSubscriptions
  intro _
  split
  · unfold pushBody
    split
    · rwa [List.filterMap_nil, List.append_nil]
    · rename_i hpatching
      split
      · rwa [List.filterMap_nil, List.append_nil]
      · simp only [List.filterMap_cons, List.filterMap_nil, Intent.message?, hrecord,
          Option.map_some]
        exact known_patch h hpatching s.data
  · rwa [List.filterMap_nil, List.append_nil]

/-- **A push sends the record as it is**, in a creation or in a patch to what the resource has. -/
theorem told_push (h : s.Told p log) (hrecord : record s.key = some s.data)
    (hs' : (s.push config).1 = some s') :
    s'.Told p (log ++ (s.push config).2.filterMap (Intent.message? record)) := by
  have hpushes := s.pushes config
  generalize s.push config = q at hpushes hs'
  cases hpushes with
  | removed => cases hs'
  | created =>
    rw [← Option.some.inj hs']
    exact fun _ => known_create s.data _
  | recreated =>
    rw [← Option.some.inj hs', List.filterMap_append, messages_release]
    exact fun _ => known_create s.data _
  | reconciled hkept hremote =>
    rw [← Option.some.inj hs']
    have hknown := h hkept
    rw [hremote] at hknown
    exact told_reconcile hrecord hknown
  | idle => rwa [← Option.some.inj hs', List.filterMap_nil, List.append_nil]

end Session

end MbsClient
