import MbsClient.Proofs.Context.Tmgis

/-!
# Rosters — the sessions of a context in a row

A context that lists its sessions is described by the row alone: to store a session is to replace it
in the row (`Lists.replace`), and to push all sessions is to push each one where it stands
(`Lists.pushAll`).
-/

namespace MbsClient

namespace Context

/-- The sessions of a context in the order of their keys, and every subscription of theirs is found
under its session. -/
structure Lists (c : Context) (ss : List Session) : Prop where
  entries : c.sessions.entries = ss.map fun s => (s.key, s)
  owned : ∀ s ∈ ss, ∀ k ∈ s.subscriptionKeys, c.owners.get? k = some s.key

namespace Lists

variable {c : Context} {ss done todo : List Session} {s s' : Session}

/-! ## 1. Look-ups -/

theorem keys (h : c.Lists ss) : c.sessions.keys = ss.map Session.key := by
  rw [SortedMap.keys, h.entries, List.map_map]
  rfl

theorem values (h : c.Lists ss) : c.sessions.values = ss := by
  rw [SortedMap.values, h.entries, List.map_map]
  exact List.map_id ss

theorem nodup_keys (h : c.Lists ss) : (ss.map Session.key).Nodup := by
  rw [← h.keys]
  exact c.sessions.nodup_keys

theorem session? (h : c.Lists ss) (hs : s ∈ ss) : c.session? s.key = some s := by
  refine SortedMap.mem_entries.1 ?_
  rw [h.entries]
  exact List.mem_map_of_mem hs

theorem session (h : c.Lists ss) (hs : s ∈ ss) : c.session s.key = .ok s :=
  session_of_get? (h.session? hs)

-- No other session has the key.
theorem key_ne (h : c.Lists (done ++ s :: todo)) {t : Session} (ht : t ∈ done ++ todo) :
    t.key ≠ s.key := by
  have hperm : ((done ++ s :: todo).map Session.key).Perm ((s :: (done ++ todo)).map Session.key) :=
    List.perm_middle.map _
  have honce := hperm.nodup_iff.1 h.nodup_keys
  rw [List.map_cons, List.nodup_cons] at honce
  intro heq
  exact honce.1 (heq ▸ List.mem_map_of_mem ht)

/-! ## 2. Replacing a session -/

theorem entries_insert (h : c.Lists (done ++ s :: todo)) (hkey : s'.key = s.key) :
    (c.sessions.insert s'.key s').entries = (done ++ s' :: todo).map fun s => (s.key, s) := by
  have hentries := h.entries
  have hsorted := c.sessions.sorted
  rw [hentries, List.map_append, List.map_cons] at hsorted
  show Entries.insert s'.key s' c.sessions.entries = _
  rw [hentries, List.map_append, List.map_cons, hkey, Entries.insert_middle hsorted,
    List.map_append, List.map_cons, hkey]

-- Subscriptions of the others are found as before, and those of the session if they were his.
theorem replace (h : c.Lists (done ++ s :: todo)) (hkey : s'.key = s.key)
    (hsubs : ∀ k ∈ s'.subscriptionKeys, k ∈ s.subscriptionKeys) {c' : Context}
    (hsessions : c'.sessions = c.sessions.insert s'.key s')
    (howners : ∀ k o, c.owners.get? k = some o → o ≠ s'.key ∨ k ∈ s'.subscriptionKeys →
      c'.owners.get? k = some o) : c'.Lists (done ++ s' :: todo) := by
  refine ⟨?_, fun t ht k hk => ?_⟩
  · rw [hsessions]
    exact h.entries_insert hkey
  · rcases List.mem_cons.1 (List.perm_middle.mem_iff.1 ht) with rfl | hother
    · have hbefore := h.owned s List.mem_append_cons_self k (hsubs k hk)
      exact howners k t.key (hkey ▸ hbefore) (.inr hk)
    · have hbefore := h.owned t (List.perm_middle.mem_iff.2 (List.mem_cons_of_mem s hother)) k hk
      exact howners k t.key hbefore (.inl (hkey ▸ h.key_ne hother))

theorem store (h : c.Lists (done ++ s :: todo)) (hkey : s'.key = s.key)
    (hsubs : ∀ k ∈ s'.subscriptionKeys, k ∈ s.subscriptionKeys) :
    (c.store s').Lists (done ++ s' :: todo) :=
  h.replace hkey hsubs rfl fun _ _ hk _ => hk

-- A new look at what the session holds takes nothing from it.
theorem reindex (h : c.Lists (done ++ s :: todo)) (hkey : s'.key = s.key)
    (hsubs : ∀ k ∈ s'.subscriptionKeys, k ∈ s.subscriptionKeys) {c' : Context}
    (hsessions : c'.sessions = c.sessions.insert s'.key s') (howners : c'.owners = c.owners) :
    (c'.reindex s').Lists (done ++ s' :: todo) := by
  refine h.replace hkey hsubs hsessions fun k o hk hstays => SortedMap.get?_filter ?_ ?_
  · rw [howners, hk]
  · simpa [bne_iff_ne] using hstays

theorem settle (h : c.Lists (done ++ s :: todo)) (hkey : s'.key = s.key)
    (hsubs : ∀ k ∈ s'.subscriptionKeys, k ∈ s.subscriptionKeys) :
    (c.settle s').Lists (done ++ s' :: todo) :=
  h.reindex hkey hsubs (sessions_indexTmgi (c.store s') s') (owners_indexTmgi (c.store s') s')

/-! ## 3. Pushing -/

theorem push (h : c.Lists (done ++ s :: todo)) {intents : List Intent}
    (hpush : s.push c.config = (some s', intents)) :
    c.push s.key = .ok (((c.store s').emit intents).reindex s') := by
  simp only [Context.push, h.session List.mem_append_cons_self, bind, Except.bind, hpush]
  rfl

section

variable {f : Session → Session} {g : Session → List Intent}

-- The sessions are pushed one after the other, each where it stands.
theorem foldl_push (done : List Session) (h : c.Lists (done ++ todo))
    (hpush : ∀ s ∈ todo, s.push c.config = (some (f s), g s))
    (hkey : ∀ s ∈ todo, (f s).key = s.key)
    (hsubs : ∀ s ∈ todo, (f s).subscriptionKeys = s.subscriptionKeys) {c' : Context}
    (hc' : (todo.map Session.key).foldl (fun c key => (c.push key).toOption.getD c) c = c') :
    c'.Lists (done ++ todo.map f) ∧ c'.config = c.config ∧
      c'.outbox = c.outbox ++ todo.flatMap g := by
  induction todo generalizing done c with
  | nil =>
    rw [← hc', List.flatMap_nil, List.append_nil]
    exact ⟨h, rfl, rfl⟩
  | cons s todo ih =>
    obtain ⟨hfirst, hrest⟩ := List.forall_mem_cons.1 hpush
    rw [List.map_cons, List.foldl_cons, h.push hfirst] at hc'
    have hpushed : (((c.store (f s)).emit (g s)).reindex (f s)).Lists
        ((done ++ [f s]) ++ todo) := by
      rw [List.append_assoc]
      exact h.reindex (hkey s List.mem_cons_self)
        (fun k hk => hsubs s List.mem_cons_self ▸ hk) rfl rfl
    obtain ⟨hlists, hconfig, houtbox⟩ := ih _ hpushed hrest
      (fun t ht => hkey t (List.mem_cons_of_mem s ht))
      (fun t ht => hsubs t (List.mem_cons_of_mem s ht)) hc'
    refine ⟨?_, hconfig, ?_⟩
    · rwa [List.append_assoc] at hlists
    · rw [houtbox, List.flatMap_cons, ← List.append_assoc]
      rfl

/-- **To push all is to push each one**; the intents are in the order of the sessions. -/
theorem pushAll (h : c.Lists ss) (hpush : ∀ s ∈ ss, s.push c.config = (some (f s), g s))
    (hkey : ∀ s ∈ ss, (f s).key = s.key)
    (hsubs : ∀ s ∈ ss, (f s).subscriptionKeys = s.subscriptionKeys) :
    c.pushAll.Lists (ss.map f) ∧ c.pushAll.config = c.config ∧
      c.pushAll.outbox = c.outbox ++ ss.flatMap g := by
  refine foldl_push [] h hpush hkey hsubs ?_
  rw [Context.pushAll, h.keys]

end

end Lists

end Context

end MbsClient
