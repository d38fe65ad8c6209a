import Mathlib.Data.List.Nodup
import MbsClient.Proofs.Data.Entries

/-!
# Keys and contents of maps

What the values of a map hold together changes with an insertion by what comes in and what it
replaces (`count_insert`), with an erasure by what goes (`count_erase`).
-/

namespace MbsClient

namespace Entries

variable {κ ν α : Type} [KeyOrder κ] [BEq α]

theorem count_insert (f : ν → List α) (a : α) (k : κ) (v : ν) {entries : List (κ × ν)}
    (hs : Sorted entries) :
    ((insert k v entries).flatMap fun e => f e.2).count a +
        (((get? k entries).map f).getD []).count a =
      (entries.flatMap fun e => f e.2).count a + (f v).count a := by
  fun_induction insert k v entries with
  | case1 => simp
  | case2 v' rest =>
    simp only [List.flatMap_cons, List.count_append, get?_cons, if_pos, Option.map_some,
      Option.getD_some]
    omega
  | case3 k' v' rest hne hlt =>
    have hnone : get? k ((k', v') :: rest) = none := by
      apply get?_eq_none_of_lt
      intro e he
      rcases List.mem_cons.1 he with rfl | he
      · exact hlt
      · exact KeyOrder.lt_trans hlt ((List.pairwise_cons.1 hs).1 e he)
    rw [hnone]
    simp only [List.flatMap_cons, List.count_append, Option.map_none, Option.getD_none,
      List.count_nil]
    omega
  | case4 k' v' rest hne hlt ih =>
    have hrest := ih (List.pairwise_cons.1 hs).2
    rw [get?_cons, if_neg hne]
    simp only [List.flatMap_cons, List.count_append]
    omega

theorem count_erase (f : ν → List α) (a : α) (k : κ) {entries : List (κ × ν)}
    (hs : Sorted entries) :
    ((erase k entries).flatMap fun e => f e.2).count a +
        (((get? k entries).map f).getD []).count a =
      (entries.flatMap fun e => f e.2).count a := by
  induction entries with
  | nil => simp [erase]
  | cons e rest ih =>
    have hcons := List.pairwise_cons.1 hs
    have hrest := ih hcons.2
    rw [get?_cons]
    by_cases hk : k = e.1
    · have hnone : get? k rest = none := by
        rw [hk]
        exact get?_eq_none_of_lt hcons.1
      rw [hnone] at hrest
      have herase : erase k (e :: rest) = erase k rest := by simp [erase, hk]
      rw [if_pos hk, herase]
      simp only [List.flatMap_cons, List.count_append, Option.map_some, Option.getD_some,
        Option.map_none, Option.getD_none, List.count_nil] at hrest ⊢
      omega
    · have herase : erase k (e :: rest) = e :: erase k rest := by simp [erase, hk]
      rw [if_neg hk, herase]
      simp only [List.flatMap_cons, List.count_append]
      omega

end Entries

namespace SortedMap

variable {κ ν : Type} [KeyOrder κ]

theorem nodup_keys (m : SortedMap κ ν) : m.keys.Nodup := Entries.nodup_keys m.sorted

theorem isSome_get? {m : SortedMap κ ν} {k : κ} : (m.get? k).isSome = true ↔ k ∈ m.keys :=
  Entries.isSome_get?

theorem mem_entries {m : SortedMap κ ν} {k : κ} {v : ν} :
    (k, v) ∈ m.entries ↔ m.get? k = some v :=
  ⟨Entries.get?_of_mem m.nodup_keys, Entries.mem_of_get?⟩

theorem mem_values {m : SortedMap κ ν} {v : ν} : v ∈ m.values ↔ ∃ k, m.get? k = some v := by
  rw [values, List.mem_map]
  constructor
  · rintro ⟨e, he, rfl⟩
    exact ⟨e.1, mem_entries.1 he⟩
  · rintro ⟨k, hk⟩
    exact ⟨(k, v), mem_entries.2 hk, rfl⟩

-- The values, key by key.
theorem flatMap_keys (m : SortedMap κ ν) :
    (m.keys.flatMap fun k => (m.get? k).toList) = m.values := by
  have hget : ∀ e ∈ m.entries, (m.get? e.1).toList = [e.2] := by
    intro e he
    rw [mem_entries.1 he]
    rfl
  rw [keys, values, List.flatMap_map, List.flatMap_congr hget]
  exact List.flatMap_pure_eq_map Prod.snd m.entries

theorem get?_map {μ : Type} (m : SortedMap κ ν) (f : κ → ν → μ) (k : κ) :
    (m.map f).get? k = (m.get? k).map (f k) :=
  Entries.get?_map f k m.entries

@[simp] theorem keys_map {μ : Type} (m : SortedMap κ ν) (f : κ → ν → μ) :
    (m.map f).keys = m.keys := by
  simp [keys, map]

theorem mem_keys_insert {m : SortedMap κ ν} {k k' : κ} {v : ν} :
    k' ∈ (m.insert k v).keys ↔ k' = k ∨ k' ∈ m.keys := by
  rw [← isSome_get?, ← isSome_get?]
  by_cases hk : k' = k
  · simp [hk]
  · rw [get?_insert_of_ne m hk]
    simp [hk]

theorem mem_keys_erase {m : SortedMap κ ν} {k k' : κ} :
    k' ∈ (m.erase k).keys ↔ k' ≠ k ∧ k' ∈ m.keys := by
  rw [← isSome_get?, ← isSome_get?]
  by_cases hk : k' = k
  · simp [hk]
  · rw [get?_erase_of_ne m hk]
    simp [hk]

theorem perm_keys_insert {m : SortedMap κ ν} {k : κ} (h : k ∉ m.keys) (v : ν) :
    (m.insert k v).keys.Perm (k :: m.keys) := by
  rw [List.perm_ext_iff_of_nodup (nodup_keys _) (List.nodup_cons.2 ⟨h, m.nodup_keys⟩)]
  intro k'
  rw [mem_keys_insert, List.mem_cons]

theorem perm_keys_erase {m : SortedMap κ ν} {k : κ} (h : k ∈ m.keys) :
    m.keys.Perm (k :: (m.erase k).keys) := by
  have hk : k ∉ (m.erase k).keys := fun hmem => (mem_keys_erase.1 hmem).1 rfl
  rw [List.perm_ext_iff_of_nodup m.nodup_keys (List.nodup_cons.2 ⟨hk, nodup_keys _⟩)]
  intro k'
  rw [List.mem_cons, mem_keys_erase]
  by_cases heq : k' = k
  · simp [heq, h]
  · simp [heq]

/-! ## Maps that are put together from a list -/

theorem entries_ofList (entries : List (κ × ν)) :
    (ofList entries).entries =
      entries.foldl (fun acc e => Entries.insert e.1 e.2 acc) [] := by
  suffices h : ∀ m : SortedMap κ ν, (entries.foldl (fun m e => m.insert e.1 e.2) m).entries =
      entries.foldl (fun acc e => Entries.insert e.1 e.2 acc) m.entries from h .empty
  induction entries with
  | nil => exact fun _ => rfl
  | cons e entries ih => exact fun m => ih (m.insert e.1 e.2)

theorem get?_ofList {entries : List (κ × ν)} (hn : (entries.map Prod.fst).Nodup) (k : κ) :
    (ofList entries).get? k = Entries.get? k entries := by
  rw [get?, entries_ofList, Entries.get?_foldl_insert hn]

theorem ofList_of_perm {m : SortedMap κ ν} {entries : List (κ × ν)} (h : entries.Perm m.entries) :
    ofList entries = m := by
  have hn : (entries.map Prod.fst).Nodup := (h.map Prod.fst).nodup_iff.2 m.nodup_keys
  apply ext_get?
  intro k
  apply Option.ext
  intro v
  rw [get?_ofList hn, ← mem_entries, ← h.mem_iff]
  exact ⟨Entries.mem_of_get?, Entries.get?_of_mem hn⟩

/-! ## What the values hold together -/

section

variable {α : Type} [BEq α]

theorem count_insert (m : SortedMap κ ν) (f : ν → List α) (a : α) (k : κ) (v : ν) :
    ((m.insert k v).values.flatMap f).count a + (((m.get? k).map f).getD []).count a =
      (m.values.flatMap f).count a + (f v).count a := by
  have h := Entries.count_insert f a k v m.sorted
  simp only [values, List.flatMap_map]
  exact h

theorem count_erase (m : SortedMap κ ν) (f : ν → List α) (a : α) (k : κ) :
    ((m.erase k).values.flatMap f).count a + (((m.get? k).map f).getD []).count a =
      (m.values.flatMap f).count a := by
  have h := Entries.count_erase f a k m.sorted
  simp only [values, List.flatMap_map]
  exact h

end

end SortedMap

end MbsClient
