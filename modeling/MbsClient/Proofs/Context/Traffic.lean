import MbsClient.Proofs.Context.Invariant
import MbsClient.Proofs.Context.Ledger
import MbsClient.Proofs.Session.Traffic

/-!
# Traffic along a run — which record is the acknowledged one

An answer to a patch should count for the resource that the patch was sent for. Since it names the
session alone, this fails for an answer that comes when the session has been created anew and waits
for the answer to another patch, and for no other reason (`patchesKept_iff_none_misread`).
-/

namespace MbsClient

open Traffic

namespace World

/-! ## 1. The messages of a run -/

/-- The answer that an action brings, if it is one about a record. The answer to a creation is one
if the session waits for it. -/
def answer? (w : World) : Action → Option Message
  | .event (.createResult key (.ok answer)) =>
      if ((w.context.session? key).bind Session.waitingFor?).isSome then
        some (.created key answer)
      else none
  | a => a.patchAnswer?.map fun (key, result) => .patched key result.isOk

/-- The records of the sessions. -/
def record (w : World) (key : SessionKey) : Option MbsSession :=
  (w.context.session? key).map Session.data

/-- What passes about records in an action: an answer, or the requests that are emitted. -/
def messages (w : World) (a : Action) : List Message :=
  (w.answer? a).toList ++
    ((w.act a).emitted.drop w.emitted.length).filterMap (Intent.message? w.record)

/-- What passes about records in a run. -/
def traffic (config : ClientConfig) (actions : List Action) : List Message :=
  along messages { context := { config } } actions

theorem traffic_snoc (config : ClientConfig) (actions : List Action) (a : Action) :
    traffic config (actions ++ [a]) =
      traffic config actions ++ (run config actions).messages a := by
  rw [traffic, along_append, along, along, List.append_nil]
  rfl

/-! ## 2. Genuine records and late answers -/

/-- The record that a registered session takes for acknowledged is the one that was created, or
the one that a patch to its resource led to. -/
def Genuine (p : Nat → Nat) (config : ClientConfig) (actions : List Action) : Prop :=
  ∀ key s, (run config actions).context.session? key = some s → s.state = .registered →
    ∃ r, s.resource? = some r ∧ Traffic.Genuine p (traffic config actions) key r

/-- The action answers a patch that was sent before the session was last created. -/
def Late (p : Nat → Nat) (config : ClientConfig) (actions : List Action) (a : Action)
    (key : SessionKey) : Prop :=
  (∃ result, a.patchAnswer? = some (key, result)) ∧ Overtaken p (traffic config actions) key

/-- A late answer changes neither the acknowledged record nor the patch that is waited for. -/
def LateIgnored (p : Nat → Nat) (config : ClientConfig) (actions : List Action) (a : Action) :
    Prop :=
  ∀ key s, Late p config actions a key → (run config actions).context.session? key = some s →
    ∃ s', (run config (actions ++ [a])).context.session? key = some s' ∧
      s'.acknowledged? = s.acknowledged? ∧ s'.patching? = s.patching?

/-- A late answer comes while a session waits for the answer to another patch. -/
def Misread (p : Nat → Nat) (config : ClientConfig) (actions : List Action) (a : Action) : Prop :=
  ∃ key s, Late p config actions a key ∧ (run config actions).context.session? key = some s ∧
    s.state = .registered ∧ s.patching?.isSome

end World

/-! ## 3. Actions that say nothing -/

/-- Neither sends a record nor brings an answer about one. -/
def Action.Mute : Action → Prop
  | .push _ => False
  | .pushAll => False
  | .event (.createResult _ (.ok _)) => False
  | a => a.patchAnswer? = none

theorem Action.patchAnswer?_of_mute {a : Action} (h : a.Mute) : a.patchAnswer? = none := by
  unfold Mute at h
  split at h
  · exact h.elim
  · exact h.elim
  · exact h.elim
  · exact h

namespace Transition

/-- A step in which no record is sent and no answer about one is taken in. -/
def Mute : Transition → Prop
  | .opened => True
  | .moved _ m => m.Mute
  | .orphaned intents => ∀ record, intents.filterMap (Intent.message? record) = []

theorem mute_removeOrphan (key : SessionKey) (answer : SessionCreated) :
    (orphaned (Context.removeOrphan key (.ok answer))).Mute := by
  intro record
  rw [List.filterMap_eq_nil_iff]
  intro i hi
  rcases List.mem_cons.1 hi with rfl | hi
  · rfl
  · obtain ⟨id, -, rfl⟩ := List.mem_map.1 hi
    rfl

end Transition

theorem Context.mute_script {c : Context} {a : Action} (ha : a.Mute) :
    ∀ t ∈ c.script a, t.Mute := by
  intro t ht
  cases Context.makes_of_mem_script ht with
  | pushed => exact ha.elim
  | allPushed => exact ha.elim
  | created => exact ha.elim
  | abandoned => exact ha.elim
  | patched hanswer =>
    rw [Action.patchAnswer?_of_mute ha] at hanswer
    cases hanswer
  | unclaimed => exact fun record => rfl
  | _ => trivial

theorem Session.messages_of_mute {m : Session.Move} (hm : m.Mute) (s : Session)
    (record : SessionKey → Option MbsSession) :
    (s.moved m).2.filterMap (Intent.message? record) = [] := by
  rcases m.silent_or with hsilent | ⟨key, rfl⟩ | ⟨config, rfl⟩ | rfl
  · rw [moved_of_silent s hsilent]
    rfl
  · simp only [moved]
    split
    · rename_i sub t hdetach
      cases sub.id <;> rfl
    · rfl
  · exact hm.elim
  · exact messages_release s

namespace View

variable {p : Nat → Nat} {log : List Message} {v : View}

theorem messages_foldl_of_mute {ts : List Transition} (hts : ∀ t ∈ ts, t.Mute) (v : View)
    (record : SessionKey → Option MbsSession) :
    ∃ more, (ts.foldl apply v).emitted = v.emitted ++ more ∧
      more.filterMap (Intent.message? record) = [] := by
  induction ts generalizing v with
  | nil => exact ⟨[], (List.append_nil _).symm, rfl⟩
  | cons t ts ih =>
    have hfirst : ∃ more, (v.apply t).emitted = v.emitted ++ more ∧
        more.filterMap (Intent.message? record) = [] := by
      have ht := hts t List.mem_cons_self
      cases t with
      | opened => exact ⟨[], (List.append_nil _).symm, rfl⟩
      | moved key m =>
        cases h : v.sessions.get? key with
        | none =>
          rw [apply_moved_none h]
          exact ⟨[], (List.append_nil _).symm, rfl⟩
        | some s =>
          rw [apply_moved h]
          exact ⟨_, rfl, Session.messages_of_mute ht s record⟩
      | orphaned intents => exact ⟨intents, rfl, ht record⟩
    obtain ⟨first, hemitted, hnone⟩ := hfirst
    obtain ⟨rest, hrest, hnone'⟩ := ih (fun u hu => hts u (List.mem_cons_of_mem _ hu)) (v.apply t)
    refine ⟨first ++ rest, ?_, ?_⟩
    · rw [List.foldl_cons, hrest, hemitted, List.append_assoc]
    · rw [List.filterMap_append, hnone, hnone']
      rfl

/-! ## 4. Pushes -/

-- Of each session the push says what it has, and the records stay as they are.
theorem told_pushes {config : ClientConfig} (record : SessionKey → Option MbsSession)
    (hk : v.Keyed) (hrecord : ∀ key s, v.sessions.get? key = some s → record key = some s.data)
    (hv : v.All (Session.Told p log)) (keys : List SessionKey) :
    ∃ more, ((keys.map fun key => Transition.moved key (.push config)).foldl apply v).emitted =
        v.emitted ++ more ∧
      ((keys.map fun key => Transition.moved key (.push config)).foldl apply v).All
        (Session.Told p (log ++ more.filterMap (Intent.message? record))) := by
  induction keys generalizing v log with
  | nil => exact ⟨[], (List.append_nil _).symm, by simpa using hv⟩
  | cons key keys ih =>
    rw [List.map_cons, List.foldl_cons]
    cases h : v.sessions.get? key with
    | none =>
      rw [apply_moved_none h]
      exact ih hk hrecord hv
    | some s =>
      have hkey := hk.own h
      have hrecord' : ∀ k t, (v.put key (s.push config).1 (s.push config).2).sessions.get? k =
          some t → record k = some t.data := by
        intro k t ht
        rcases get?_put ht with ⟨rfl, hs'⟩ | ⟨-, ht⟩
        · rw [Session.data_of_push hs']
          exact hrecord k s h
        · exact hrecord k t ht
      have htold : (v.put key (s.push config).1 (s.push config).2).All (Session.Told p
          (log ++ (s.push config).2.filterMap (Intent.message? record))) := by
        intro k t ht
        rcases get?_put ht with ⟨rfl, hs'⟩ | ⟨hne, ht⟩
        · refine Session.told_push (hv k s h) ?_ hs'
          rw [hkey]
          exact hrecord k s h
        · refine (hv k t ht).append fun d hd hsender => hne ?_
          rw [Session.sender?_of_push hd, hkey, hk.own ht] at hsender
          exact (Option.some.inj hsender).symm
      have hk' := keyed_apply hk (.moved key (.push config))
      rw [apply_moved h] at hk' ⊢
      obtain ⟨rest, hemitted, htold'⟩ := ih hk' hrecord' htold
      refine ⟨(s.push config).2 ++ rest, ?_, ?_⟩
      · rw [← List.append_assoc]
        exact hemitted
      · rwa [List.filterMap_append, ← List.append_assoc]

end View

/-! ## 5. Runs -/

namespace World

variable {p : Nat → Nat} {config : ClientConfig} {actions : List Action} {a : Action}

theorem answer?_of_mute (w : World) (ha : a.Mute) : w.answer? a = none := by
  unfold answer?
  split
  · exact ha.elim
  · rw [Action.patchAnswer?_of_mute ha]
    rfl

-- What an action emits is behind what has been emitted before.
theorem messages_eq {w : World} {more : List Intent}
    (h : (w.act a).view.emitted = w.view.emitted ++ more) :
    w.messages a = (w.answer? a).toList ++ more.filterMap (Intent.message? w.record) := by
  have hemitted : (w.act a).emitted = w.emitted ++ more := h
  rw [messages, hemitted, List.drop_left]

theorem record_of_session {w : World} {key : SessionKey} {s : Session}
    (h : w.context.session? key = some s) : w.record key = some s.data := by
  rw [record, h]
  rfl

/-- The messages tell what the sessions keep. -/
def Told (p : Nat → Nat) (config : ClientConfig) (actions : List Action) : Prop :=
  (run config actions).view.All (Session.Told p (traffic config actions))

theorem told_of_mute (h : Told p config actions) (ha : a.Mute) :
    Told p config (actions ++ [a]) := by
  have hmute := Context.mute_script (c := (run config actions).context) ha
  have hk := keyed_run config actions
  obtain ⟨more, hemitted, hnone⟩ := View.messages_foldl_of_mute hmute (run config actions).view
    (run config actions).record
  rw [← view_act hk] at hemitted
  rw [Told, traffic_snoc, messages_eq hemitted, hnone, answer?_of_mute _ ha]
  simp only [Option.toList_none, List.append_nil]
  refine all_act Session.told_new h fun t ht => ?_
  have ht := hmute t ht
  cases t with
  | moved key m => exact fun s s' _ hs hs' => Session.told_moved ht hs hs'
  | opened => trivial
  | orphaned intents => trivial

theorem told_of_pushes (h : Told p config actions) (keys : List SessionKey)
    (hscript : (run config actions).context.script a =
      keys.map fun key => .moved key (.push (run config actions).context.config))
    (hanswer : (run config actions).answer? a = none) : Told p config (actions ++ [a]) := by
  have hk := keyed_run config actions
  obtain ⟨more, hemitted, htold⟩ := View.told_pushes (run config actions).record hk
    (fun key s hs => record_of_session hs) h keys
  rw [← hscript, ← view_act hk] at hemitted htold
  rwa [Told, traffic_snoc, messages_eq hemitted, hanswer, run_snoc]

theorem told_of_created (h : Told p config actions) (key : SessionKey) (answer : SessionCreated) :
    Told p config (actions ++ [.event (.createResult key (.ok answer))]) := by
  have hk := keyed_run config actions
  rw [Told, traffic_snoc, run_snoc]
  cases hwait : ((run config actions).context.session? key).bind Session.waitingFor? with
  | none =>
    have hview := view_act_orphan hk hwait answer
    rw [messages_eq (congrArg View.emitted hview), hview, Transition.mute_removeOrphan]
    simp only [answer?, hwait, Option.isSome_none, Bool.false_eq_true, if_false,
      Option.toList_none, List.append_nil]
    exact h
  | some waiting =>
    obtain ⟨s, hs, hwaits⟩ := Option.bind_eq_some_iff.1 hwait
    have hview := view_act_created hk hs hwaits answer
    rw [messages_eq (congrArg View.emitted hview), hview]
    simp only [answer?, hwait, Option.isSome_some, if_true, Option.toList_some,
      List.filterMap_nil, List.append_nil]
    have hown := hk.own (s := s) hs
    intro k t ht
    rcases View.get?_put ht with ⟨-, hput⟩ | ⟨-, ht⟩
    · rw [← Option.some.inj hput, ← hown]
      exact Session.told_created (h key s hs) hwaits answer
    · exact (h k t ht).append (by simp [Message.sender?])

theorem script_of_patchAnswer? {c : Context} {key : SessionKey} {result : OperationResult}
    (h : a.patchAnswer? = some (key, result)) : c.script a = [.moved key (.patched result)] := by
  unfold Action.patchAnswer? at h
  split at h <;> cases h <;> rfl

theorem answer?_of_patchAnswer? (w : World) {key : SessionKey} {result : OperationResult}
    (h : a.patchAnswer? = some (key, result)) :
    w.answer? a = some (.patched key result.isOk) := by
  unfold answer?
  split
  · cases h
  · rw [h]
    rfl

-- Only the session that the answer names takes it in.
theorem view_act_patched {w : World} (hk : w.view.Keyed) {key : SessionKey}
    {result : OperationResult} (h : a.patchAnswer? = some (key, result)) :
    (w.act a).view = w.view.apply (.moved key (.patched result)) := by
  rw [view_act hk, script_of_patchAnswer? h]
  rfl

theorem told_of_patched (h : Told p config actions) {key : SessionKey} {result : OperationResult}
    (ha : a.patchAnswer? = some (key, result))
    (hanswers : Answers p (traffic config (actions ++ [a])))
    (hread : ¬ Misread p config actions a) : Told p config (actions ++ [a]) := by
  have hk := keyed_run config actions
  have hview := view_act_patched hk ha
  have hmessages : (run config actions).messages a = [.patched key result.isOk] := by
    have hemitted : ((run config actions).act a).view.emitted =
        (run config actions).view.emitted ++ [] := by
      rw [hview, List.append_nil]
      cases hs : (run config actions).view.sessions.get? key with
      | none => rw [View.apply_moved_none hs]
      | some s =>
        rw [View.apply_moved hs]
        exact List.append_nil _
    rw [messages_eq hemitted, answer?_of_patchAnswer? _ ha]
    rfl
  rw [traffic_snoc, hmessages] at hanswers
  rw [Told, traffic_snoc, hmessages, run_snoc, hview]
  cases hs : (run config actions).view.sessions.get? key with
  | none =>
    rw [View.apply_moved_none hs]
    exact fun k t ht => (h k t ht).append (by simp [Message.sender?])
  | some s =>
    have hown := hk.own hs
    rw [View.apply_moved hs]
    intro k t ht
    rcases View.get?_put ht with ⟨-, hput⟩ | ⟨-, ht⟩
    · rw [← Option.some.inj hput, ← hown]
      rw [← hown] at hanswers
      refine Session.told_patched (h key s hs) result hanswers fun hstate hsome hlate => hread ?_
      rw [hown] at hlate
      exact ⟨key, s, ⟨⟨result, ha⟩, hlate⟩, hs, hstate, hsome⟩
    · exact (h k t ht).append (by simp [Message.sender?])

/-- **The messages tell what the sessions keep** as long as no answer is misread. -/
theorem told_run (hanswers : Answers p (traffic config actions))
    (hread : ∀ before a, before ++ [a] <+: actions → ¬ Misread p config before a) :
    Told p config actions := by
  induction actions using List.reverseRecOn with
  | nil => exact all_empty config
  | append_singleton actions a ih =>
    have hbefore : Told p config actions := by
      refine ih ?_ fun before b hb => hread before b (hb.trans (List.prefix_append actions [a]))
      rw [traffic_snoc] at hanswers
      exact hanswers.of_append
    cases hpatch : a.patchAnswer? with
    | some answer => exact told_of_patched hbefore hpatch hanswers (hread actions a List.prefix_rfl)
    | none =>
      by_cases hmute : a.Mute
      · exact told_of_mute hbefore hmute
      · unfold Action.Mute at hmute
        split at hmute
        · exact told_of_pushes hbefore [_] rfl rfl
        · exact told_of_pushes hbefore _ rfl rfl
        · exact told_of_created hbefore _ _
        · exact absurd hpatch hmute

theorem genuine_of_told (h : Told p config actions) : Genuine p config actions := by
  intro key s hs hstate
  obtain ⟨hkept, r, hremote⟩ := Session.registered_of_state hstate
  have hown := (keyed_run config actions).own (s := s) hs
  have hknown := h key s hs hkept
  rw [hremote, hown] at hknown
  obtain ⟨i, body, hlatest, hgenuine, -⟩ := hknown
  exact ⟨r, Session.resource?_of_registered hremote, i, body, hlatest, hgenuine⟩

theorem session?_act_patched {w : World} (hk : w.view.Keyed) {key : SessionKey} {s : Session}
    {result : OperationResult} (h : a.patchAnswer? = some (key, result))
    (hs : w.context.session? key = some s) :
    (w.act a).context.session? key = some (s.patched result).1 := by
  have hget : w.view.sessions.get? key = some s := hs
  show (w.act a).view.sessions.get? key = _
  rw [view_act_patched hk h, View.apply_moved hget]
  exact SortedMap.get?_insert_self ..

theorem lateIgnored_iff : LateIgnored p config actions a ↔ ¬ Misread p config actions a := by
  have hk := keyed_run config actions
  constructor
  · rintro hignored ⟨key, s, hlate, hs, hstate, hsome⟩
    obtain ⟨s', hs', -, hpatching⟩ := hignored key s hlate hs
    obtain ⟨⟨result, ha⟩, -⟩ := hlate
    rw [run_snoc, session?_act_patched hk ha hs] at hs'
    rw [← hpatching, ← Option.some.inj hs', Session.patching?_patched hstate] at hsome
    cases hsome
  · intro hread key s hlate hs
    obtain ⟨⟨result, ha⟩, hovertaken⟩ := hlate
    have hself : s.patched result = (s, []) := by
      refine Session.patched_eq_self (fun hwaits => ?_) result
      exact hread ⟨key, s, ⟨⟨result, ha⟩, hovertaken⟩, hs, hwaits⟩
    exact ⟨s, by rw [run_snoc, session?_act_patched hk ha hs, hself], rfl, rfl⟩

end World

/-- **Answers to patches count for the resource that the patch was sent for, throughout a run,
exactly if no answer is misread**, that is, comes when the session has been created anew and waits
for the answer to another patch. -/
theorem patchesKept_iff_none_misread (p : Nat → Nat) (config : ClientConfig)
    (actions : List Action) (hanswers : Answers p (World.traffic config actions)) :
    ((∀ before, before <+: actions → World.Genuine p config before) ∧
      ∀ before a, before ++ [a] <+: actions → World.LateIgnored p config before a) ↔
    ∀ before a, before ++ [a] <+: actions → ¬ World.Misread p config before a := by
  constructor
  · rintro ⟨-, hignored⟩ before a hprefix
    exact World.lateIgnored_iff.1 (hignored before a hprefix)
  · intro hread
    refine ⟨?_, fun before a hprefix => World.lateIgnored_iff.2 (hread before a hprefix)⟩
    rintro before ⟨after, rfl⟩
    apply World.genuine_of_told
    apply World.told_run
    · rw [World.traffic, World.along_append] at hanswers
      exact hanswers.of_append
    · exact fun first b hfirst => hread first b (hfirst.trans (List.prefix_append before after))

/-- A multicast group of one source. -/
def multicastGroup (n : UInt8) : Ssm := ⟨.v4 ⟨10, 0, 0, 1⟩, .v4 ⟨232, 1, 1, n⟩, rfl, rfl⟩

/-- A session is created anew while a patch is outstanding, and sends another one. Then the answer
to the first comes. -/
def crossed : List Action :=
  [.newSession, .changeSession 1 (.ssm (some (multicastGroup 1))), .push 1,
    .event (.createResult 1 (.ok { resourceId := "r1" })),
    .changeSession 1 (.associatedSessionId (some "a")), .push 1,
    .changeSession 1 (.ssm (some (multicastGroup 2))), .push 1,
    .event (.createResult 1 (.ok { resourceId := "r2" })),
    .changeSession 1 (.associatedSessionId (some "b")), .push 1,
    .event (.patchResult 1 (.ok ()))]

/-- The session takes it for the answer to the second. -/
theorem patch_misread_crossed :
    Answers (fun _ => 2) (World.traffic { sessionBodyPatch := true } crossed) ∧
      ¬ ((∀ before, before <+: crossed →
          World.Genuine (fun _ => 2) { sessionBodyPatch := true } before) ∧
        ∀ before a, before ++ [a] <+: crossed →
          World.LateIgnored (fun _ => 2) { sessionBodyPatch := true } before a) := by
  obtain ⟨first, second, third, fourth, fifth, sixth, hlog⟩ :
      ∃ first second third fourth fifth sixth,
        World.traffic { sessionBodyPatch := true } crossed =
          [.create 1 first, .created 1 second, .patch 1 "r1" third, .create 1 fourth,
            .created 1 fifth, .patch 1 "r2" sixth, .patched 1 true] :=
    ⟨_, _, _, _, _, _, rfl⟩
  have hlast : ∀ {m key applied},
      (World.traffic { sessionBodyPatch := true } crossed)[m]? = some (.patched key applied) →
        m = 6 ∧ key = 1 := by
    intro m key applied hm
    rw [hlog] at hm
    rcases m with _ | _ | _ | _ | _ | _ | _ | m <;> cases hm
    exact ⟨rfl, rfl⟩
  have hanswers : Answers (fun _ => 2) (World.traffic { sessionBodyPatch := true } crossed) := by
    refine ⟨fun {m key applied} hm => ?_, fun hm hn _ => ?_⟩
    · obtain ⟨rfl, rfl⟩ := hlast hm
      exact ⟨by decide, "r1", third, by rw [hlog]; rfl⟩
    · rw [(hlast hm).1, (hlast hn).1]
  refine ⟨hanswers, fun h => ?_⟩
  refine (patchesKept_iff_none_misread _ _ _ hanswers).1 h crossed.dropLast
    (.event (.patchResult 1 (.ok ()))) List.prefix_rfl ?_
  exact ⟨1, _, ⟨⟨.ok, rfl⟩, 3, _, by decide, rfl⟩, rfl, rfl, rfl⟩

end MbsClient
