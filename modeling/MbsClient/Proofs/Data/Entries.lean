import MbsClient.Data.SortedMap

/-!
# Lists of entries, seen through look-ups

A sorted list is determined by what it has under each key, so an insertion that changes nothing
and a second insertion under one key need no look at the list.
-/

namespace MbsClient.Entries

variable {κ ν : Type} [KeyOrder κ]

theorem get?_cons (k : κ) (e : κ × ν) (rest : List (κ × ν)) :
    get? k (e :: rest) = if k = e.1 then some e.2 else get? k rest := rfl

theorem sorted_nil : Sorted ([] : List (κ × ν)) := List.Pairwise.nil

theorem get?_insert (k k' : κ) (v : ν) (entries : List (κ × ν)) :
    get? k' (insert k v entries) = if k' = k then some v else get? k' entries := by
  by_cases h : k' = k
  · subst h
    rw [get?_insert_self, if_pos rfl]
  · rw [get?_insert_of_ne h, if_neg h]

theorem insert_eq_self {k : κ} {v : ν} {entries : List (κ × ν)} (hs : Sorted entries)
    (h : get? k entries = some v) : insert k v entries = entries := by
  apply eq_of_get?_eq (sorted_insert k v hs) hs
  intro k'
  rw [get?_insert]
  split
  · rename_i hk
    rw [hk, h]
  · rfl

theorem insert_insert {k : κ} (v w : ν) {entries : List (κ × ν)} (hs : Sorted entries) :
    insert k w (insert k v entries) = insert k w entries := by
  apply eq_of_get?_eq (sorted_insert k w (sorted_insert k v hs)) (sorted_insert k w hs)
  intro k'
  simp only [get?_insert]
  split <;> rfl

theorem insert_cons_of_lt {k : κ} {e : κ × ν} (h : KeyOrder.lt e.1 k = true) (v : ν)
    (rest : List (κ × ν)) : insert k v (e :: rest) = e :: insert k v rest := by
  have hnot : ¬KeyOrder.lt k e.1 = true := by
    rw [KeyOrder.not_lt_of_lt h]
    exact Bool.noConfusion
  rw [insert, if_neg (KeyOrder.ne_of_lt h).symm, if_neg hnot]

-- An insertion under a key that is there leaves all other entries in their places.
theorem insert_middle {before after : List (κ × ν)} {k : κ} {v : ν}
    (hs : Sorted (before ++ (k, v) :: after)) (w : ν) :
    insert k w (before ++ (k, v) :: after) = before ++ (k, w) :: after := by
  induction before with
  | nil => rw [List.nil_append, insert, if_pos rfl, List.nil_append]
  | cons e before ih =>
    obtain ⟨hfirst, hrest⟩ := List.pairwise_cons.1 hs
    have hlt : KeyOrder.lt e.1 k = true := hfirst (k, v) List.mem_append_cons_self
    rw [List.cons_append, insert_cons_of_lt hlt, ih hrest, List.cons_append]

theorem insert_last {entries : List (κ × ν)} {k : κ}
    (h : ∀ e ∈ entries, KeyOrder.lt e.1 k = true) (v : ν) :
    insert k v entries = entries ++ [(k, v)] := by
  induction entries with
  | nil => rfl
  | cons e entries ih =>
    rw [insert_cons_of_lt (h e List.mem_cons_self),
      ih fun e he => h e (List.mem_cons_of_mem _ he), List.cons_append]

theorem mem_of_get? {k : κ} {v : ν} {entries : List (κ × ν)} (h : get? k entries = some v) :
    (k, v) ∈ entries := by
  induction entries with
  | nil => simp at h
  | cons e rest ih =>
    rw [get?_cons] at h
    split at h
    · rename_i hk
      rw [hk, ← Option.some.inj h]
      exact List.mem_cons_self
    · exact List.mem_cons_of_mem _ (ih h)

theorem get?_of_mem {k : κ} {v : ν} {entries : List (κ × ν)}
    (hn : (entries.map Prod.fst).Nodup) (h : (k, v) ∈ entries) : get? k entries = some v := by
  induction entries with
  | nil => simp at h
  | cons e rest ih =>
    rw [List.map_cons, List.nodup_cons] at hn
    rcases List.mem_cons.1 h with rfl | hmem
    · rw [get?_cons, if_pos rfl]
    · have hne : k ≠ e.1 := by
        rintro rfl
        exact hn.1 (List.mem_map.2 ⟨_, hmem, rfl⟩)
      rw [get?_cons, if_neg hne]
      exact ih hn.2 hmem

theorem isSome_get? {k : κ} {entries : List (κ × ν)} :
    (get? k entries).isSome = true ↔ k ∈ entries.map Prod.fst := by
  constructor
  · intro h
    obtain ⟨v, hv⟩ := Option.isSome_iff_exists.1 h
    exact List.mem_map.2 ⟨_, mem_of_get? hv, rfl⟩
  · intro h
    induction entries with
    | nil => simp at h
    | cons e rest ih =>
      rw [get?_cons]
      split
      · rfl
      · rename_i hne
        rw [List.map_cons, List.mem_cons] at h
        exact ih (h.resolve_left hne)

theorem get?_eq_none_of_not_mem {k : κ} {entries : List (κ × ν)}
    (h : k ∉ entries.map Prod.fst) : get? k entries = none := by
  rwa [← isSome_get?, Bool.not_eq_true, Option.isSome_eq_false_iff, Option.isNone_iff_eq_none] at h

theorem nodup_keys {entries : List (κ × ν)} (hs : Sorted entries) :
    (entries.map Prod.fst).Nodup := by
  rw [List.Nodup, List.pairwise_map]
  exact hs.imp KeyOrder.ne_of_lt

-- A sorted list has one entry under a key.
theorem filter_eq_singleton {k : κ} {v : ν} {p : κ × ν → Bool} (hp : ∀ e, p e = true ↔ e.1 = k)
    {entries : List (κ × ν)} (hs : Sorted entries) (h : get? k entries = some v) :
    entries.filter p = [(k, v)] := by
  induction entries with
  | nil => simp at h
  | cons e rest ih =>
    have hcons := List.pairwise_cons.1 hs
    rw [get?_cons] at h
    split at h
    · rename_i hk
      have hnone : rest.filter p = [] := by
        rw [List.filter_eq_nil_iff]
        intro e' he' hpe
        exact KeyOrder.ne_of_lt (hcons.1 e' he') (hk.symm.trans ((hp e').1 hpe).symm)
      rw [List.filter_cons_of_pos ((hp e).2 hk.symm), hnone, hk, ← Option.some.inj h]
    · rename_i hk
      rw [List.filter_cons_of_neg fun hpe => hk ((hp e).1 hpe).symm]
      exact ih hcons.2 h

theorem get?_map {μ : Type} (f : κ → ν → μ) (k : κ) (entries : List (κ × ν)) :
    get? k (entries.map fun e => (e.1, f e.1 e.2)) = (get? k entries).map (f k) := by
  induction entries with
  | nil => rfl
  | cons e rest ih =>
    simp only [List.map_cons, get?_cons]
    split
    · rename_i hk
      rw [hk]
      rfl
    · exact ih

/-! ## Entries put in one after the other -/

theorem sorted_foldl_insert (added : List (κ × ν)) {entries : List (κ × ν)}
    (hs : Sorted entries) : Sorted (added.foldl (fun acc e => insert e.1 e.2 acc) entries) := by
  induction added generalizing entries with
  | nil => exact hs
  | cons e rest ih => exact ih (sorted_insert e.1 e.2 hs)

theorem get?_foldl_insert_of_not_mem {k : κ} {added : List (κ × ν)}
    (h : k ∉ added.map Prod.fst) (entries : List (κ × ν)) :
    get? k (added.foldl (fun acc e => insert e.1 e.2 acc) entries) = get? k entries := by
  induction added generalizing entries with
  | nil => rfl
  | cons e rest ih =>
    rw [List.map_cons, List.mem_cons, not_or] at h
    rw [List.foldl_cons, ih h.2, get?_insert_of_ne h.1]

theorem isSome_get?_foldl_insert {k : κ} (added entries : List (κ × ν)) :
    (get? k (added.foldl (fun acc e => insert e.1 e.2 acc) entries)).isSome = true ↔
      k ∈ added.map Prod.fst ∨ (get? k entries).isSome = true := by
  induction added generalizing entries with
  | nil => simp
  | cons e rest ih =>
    rw [List.foldl_cons, ih, get?_insert, List.map_cons, List.mem_cons]
    split
    · rename_i hk
      simp [hk]
    · rename_i hk
      simp [hk]

-- With distinct keys, what is put in is what is found.
theorem get?_foldl_insert {k : κ} {added : List (κ × ν)} (hn : (added.map Prod.fst).Nodup) :
    get? k (added.foldl (fun acc e => insert e.1 e.2 acc) []) = get? k added := by
  suffices h : ∀ entries, k ∈ added.map Prod.fst →
      get? k (added.foldl (fun acc e => insert e.1 e.2 acc) entries) = get? k added by
    by_cases hk : k ∈ added.map Prod.fst
    · exact h [] hk
    · rw [get?_foldl_insert_of_not_mem hk, get?_eq_none_of_not_mem hk, get?_nil]
  intro entries hk
  induction added generalizing entries with
  | nil => simp at hk
  | cons e rest ih =>
    rw [List.map_cons, List.nodup_cons] at hn
    rw [List.foldl_cons, get?_cons]
    split
    · rename_i hke
      rw [hke, get?_foldl_insert_of_not_mem hn.1, get?_insert_self]
    · rename_i hke
      rw [List.map_cons, List.mem_cons] at hk
      exact ih hn.2 _ (hk.resolve_left hke)

/-! ## Entries that may be missing -/

/-- The entries that have a value. -/
def present (entries : List (κ × Option ν)) : List (κ × ν) :=
  entries.filterMap fun e => e.2.map (e.1, ·)

omit [KeyOrder κ] in
theorem sublist_keys_present (entries : List (κ × Option ν)) :
    ((present entries).map Prod.fst).Sublist (entries.map Prod.fst) := by
  unfold present
  induction entries with
  | nil => exact .slnil
  | cons e entries ih =>
    obtain ⟨k, v⟩ := e
    cases v with
    | none => simpa using ih.cons k
    | some v => simpa using ih.cons_cons k

theorem get?_present {entries : List (κ × Option ν)} (hn : (entries.map Prod.fst).Nodup) {k : κ}
    {v : Option ν} (h : (k, v) ∈ entries) : get? k (present entries) = v := by
  have hpresent := hn.sublist (sublist_keys_present entries)
  cases v with
  | some v => exact get?_of_mem hpresent (List.mem_filterMap.2 ⟨_, h, rfl⟩)
  | none =>
    -- a second entry of the key would have to be this one
    apply get?_eq_none_of_not_mem
    intro hmem
    obtain ⟨⟨_, v⟩, hv, rfl⟩ := List.mem_map.1 hmem
    obtain ⟨⟨k', v'⟩, he, heq⟩ := List.mem_filterMap.1 hv
    obtain ⟨v'', rfl, heq⟩ := Option.map_eq_some_iff.1 heq
    obtain ⟨rfl, rfl⟩ := Prod.mk.inj heq
    have hfound := get?_of_mem hn he
    rw [get?_of_mem hn h] at hfound
    exact absurd hfound (by simp)

end MbsClient.Entries
