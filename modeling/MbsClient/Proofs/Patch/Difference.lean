import Mathlib.Data.List.Nodup
import MbsClient.Proofs.Data.SortedMap
import MbsClient.Proofs.Json.Record
import MbsClient.Proofs.Json.Same
import MbsClient.Proofs.Patch.Edits

/-!
# Differences at work — the edits between two values turn one document into the other

A document need not come out equal, only the same: where two zeros differ in sign there is no edit.
`Turns` speaks of the document of a value, `Fills` of one place in an object. The place view is the
one that composes: edits in different places do not see each other (`Fills.all`).
-/

namespace MbsClient

open Patch Json

namespace Diff

/-! ## 1. Whole documents -/

/-- Each edit succeeds, and the last document is the same as `target`. The value as a whole is at
most replaced, so that the edits can also be taken on an item of a list. -/
structure Turns (es : List Edit) (doc target : Json) : Prop where
  reaches : ∃ d, edits? es doc = some d ∧ (d == target) = true
  replaces : ∀ e ∈ es, e.path = [] → e.kind = .replace

namespace Turns

variable {doc target : Json}

theorem nil (h : (doc == target) = true) : Turns [] doc target where
  reaches := ⟨doc, edits?_nil doc, h⟩
  replaces := by simp

theorem replace (h : (target == target) = true) : Turns [.replace [] target] doc target where
  reaches := ⟨target, rfl, h⟩
  replaces e he _ := by
    rw [List.mem_singleton.1 he]
    rfl

-- A value without parts, as long as values that compare equal have the same document.
theorem scalar {α : Type} [Encode α] [BEq α] (hself : ∀ a : α, (encode a == encode a) = true)
    (hsame : ∀ a b : α, (a == b) = true → (encode a == encode b) = true) (old new : α) :
    Turns (Diff.scalar old new) (encode old) (encode new) := by
  unfold Diff.scalar
  split
  · rename_i h
    exact nil (hsame old new h)
  · exact replace (hself new)

end Turns

/-! ## 2. Places in an object -/

/-- Edits that stay under `name` and put `after` where `before` was; no value means no entry. -/
structure Fills (name : String) (before after : Option Json) (es : List Edit) : Prop where
  reaches : ∀ entries, Entries.Sorted entries → Entries.get? name entries = before →
    ∃ entries', edits? es (.object entries) = some (.object entries') ∧
      Entries.Sorted entries' ∧ SameOption (Entries.get? name entries') after ∧
      ∀ other, other ≠ name → Entries.get? other entries' = Entries.get? other entries
  inside : ∀ e ∈ es, ∃ path, e.path = name :: path

namespace Fills

variable {name : String} {before after : Option Json} {doc target : Json}

theorem nil (h : SameOption before after) : Fills name before after [] where
  reaches entries hs hget := ⟨entries, rfl, hs, by rwa [hget], fun _ _ => rfl⟩
  inside := by simp

theorem add (h : (target == target) = true) :
    Fills name before (some target) [.add [name] target] where
  reaches entries hs hget := by
    refine ⟨Entries.insert name target entries, ?_, Entries.sorted_insert _ _ hs, ?_, ?_⟩
    · simp [edits?_cons, Edit.add, edit?, editMember?]
    · rw [Entries.get?_insert_self]
      exact .some h
    · intro other hne
      rw [Entries.get?_insert_of_ne hne]
  inside e he := ⟨[], by rw [List.mem_singleton.1 he]; rfl⟩

theorem remove : Fills name (some doc) none [.remove [name]] where
  reaches entries hs hget := by
    refine ⟨Entries.erase name entries, ?_, Entries.sorted_erase _ hs, ?_, ?_⟩
    · simp [edits?_cons, Edit.remove, edit?, editMember?, hget]
    · rw [Entries.get?_erase_self]
      exact .none
    · intro other hne
      rw [Entries.get?_erase_of_ne hne]
  inside e he := ⟨[], by rw [List.mem_singleton.1 he]; rfl⟩

-- Edits on the value under a name, taken from the object that holds it.
theorem under_of_reaches {es : List Edit}
    (h : ∃ d, edits? es doc = some d ∧ (d == target) = true) :
    Fills name (some doc) (some target) (Patch.under name es) where
  reaches entries hs hget := by
    obtain ⟨d, hd, hsame⟩ := h
    refine ⟨Entries.insert name d entries, edits?_under_member hs hget hd,
      Entries.sorted_insert _ _ hs, ?_, ?_⟩
    · rw [Entries.get?_insert_self]
      exact .some hsame
    · intro other hne
      rw [Entries.get?_insert_of_ne hne]
  inside e he := by
    obtain ⟨f, -, rfl⟩ := List.mem_map.1 he
    exact ⟨f.path, rfl⟩

theorem under {es : List Edit} (h : Turns es doc target) :
    Fills name (some doc) (some target) (Patch.under name es) :=
  under_of_reaches h.reaches

-- A value that may be absent.
theorem presence {α : Type} [Encode α] [Diff α] (hself : ∀ a : α, (encode a == encode a) = true)
    {old new : Option α}
    (h : ∀ a b, old = some a → new = some b → Turns (edits a b) (encode a) (encode b)) :
    Fills name (old.map encode) (new.map encode) (Patch.under name (Diff.presence old new)) := by
  cases old with
  | none =>
    cases new with
    | none => exact nil .none
    | some b => exact add (hself b)
  | some a =>
    cases new with
    | none => exact remove
    | some b => exact under (h a b rfl rfl)

-- Edits in one place after the other. Each finds its own place as it was at the start, since
-- those before it stay in theirs.
theorem all {ι : Type} {names : ι → String} {before after : ι → Option Json}
    {es : ι → List Edit} {items : List ι} (hn : (items.map names).Nodup)
    (h : ∀ i ∈ items, Fills (names i) (before i) (after i) (es i)) {entries : List (String × Json)}
    (hs : Entries.Sorted entries) (hget : ∀ i ∈ items, Entries.get? (names i) entries = before i) :
    ∃ entries', edits? (items.flatMap es) (.object entries) = some (.object entries') ∧
      Entries.Sorted entries' ∧
      (∀ i ∈ items, SameOption (Entries.get? (names i) entries') (after i)) ∧
      ∀ other, other ∉ items.map names →
        Entries.get? other entries' = Entries.get? other entries := by
  induction items generalizing entries with
  | nil => exact ⟨entries, rfl, hs, by simp, fun _ _ => rfl⟩
  | cons i items ih =>
    rw [List.map_cons, List.nodup_cons] at hn
    obtain ⟨mid, hmid, hsmid, hi, hothers⟩ :=
      (h i List.mem_cons_self).reaches entries hs (hget i List.mem_cons_self)
    have hne : ∀ j ∈ items, names j ≠ names i := fun j hj heq =>
      hn.1 (heq ▸ List.mem_map_of_mem hj)
    obtain ⟨entries', hrest, hs', hitems, hframe⟩ :=
      ih hn.2 (fun j hj => h j (List.mem_cons_of_mem _ hj)) hsmid fun j hj => by
        rw [hothers _ (hne j hj)]
        exact hget j (List.mem_cons_of_mem _ hj)
    refine ⟨entries', ?_, hs', ?_, ?_⟩
    · rw [List.flatMap_cons, edits?_append hmid, hrest]
    · intro j hj
      rcases List.mem_cons.1 hj with rfl | hj
      · rw [hframe _ hn.1]
        exact hi
      · exact hitems j hj
    · intro other hother
      rw [List.map_cons, List.mem_cons, not_or] at hother
      rw [hframe _ hother.2, hothers _ hother.1]

-- Two objects that agree in all other places.
theorem turns {ι : Type} (names : ι → String) {before after : ι → Option Json}
    {es : ι → List Edit} {items : List ι} (hn : (items.map names).Nodup)
    (h : ∀ i ∈ items, Fills (names i) (before i) (after i) (es i)) {xs ys : List (String × Json)}
    (hxs : Entries.Sorted xs) (hys : Entries.Sorted ys)
    (hx : ∀ i ∈ items, Entries.get? (names i) xs = before i)
    (hy : ∀ i ∈ items, Entries.get? (names i) ys = after i)
    (hothers : ∀ other, other ∉ items.map names →
      SameOption (Entries.get? other xs) (Entries.get? other ys)) :
    Turns (items.flatMap es) (.object xs) (.object ys) where
  reaches := by
    obtain ⟨entries', hreach, hs', hitems, hframe⟩ := all hn h hxs hx
    refine ⟨.object entries', hreach, same_object hs' hys fun name => ?_⟩
    by_cases hname : name ∈ items.map names
    · obtain ⟨i, hi, rfl⟩ := List.mem_map.1 hname
      rw [hy i hi]
      exact hitems i hi
    · rw [hframe name hname]
      exact hothers name hname
  replaces e he hnil := by
    obtain ⟨i, hi, hei⟩ := List.mem_flatMap.1 he
    obtain ⟨path, hpath⟩ := (h i hi).inside e hei
    rw [hpath] at hnil
    exact absurd hnil (by simp)

end Fills

/-! ## 3. Lists -/

variable {α : Type} [Encode α]

theorem edits?_add_behind (new : List α) (items : List Json) :
    edits? (new.map fun b => .add [behindLast] (encode b)) (.array items) =
      some (.array (items ++ new.map encode)) := by
  induction new generalizing items with
  | nil => simp
  | cons b new ih =>
    rw [List.map_cons, edits?_cons]
    show (edit? .add (some (encode b)) [behindLast] (.array items)).bind _ = _
    rw [edit?, editItem?, if_pos rfl, Option.map_some, Option.bind_some, ih]
    simp

theorem edit?_remove_item (done rest : List Json) (d : Json) :
    edit? .remove none [item done.length] (.array (done ++ d :: rest)) =
      some (.array (done ++ rest)) := by
  simp [edit?, editItem?, index?_item, List.eraseIdx_append]

theorem edits?_remove_rest (old : List α) (done : List Json) :
    edits? (old.map fun _ => .remove [item done.length]) (.array (done ++ old.map encode)) =
      some (.array done) := by
  induction old with
  | nil => simp
  | cons a old ih =>
    rw [List.map_cons, edits?_cons, List.map_cons]
    show (edit? .remove none [item done.length] _).bind _ = _
    rw [edit?_remove_item, Option.bind_some, ih]

-- The items in front of the cursor are done; those behind it become the new ones.
theorem edits?_list [BEq α] [Diff α] (hself : ∀ a : α, (encode a == encode a) = true)
    {cursor : Nat} {old new : List α}
    (h : ∀ a ∈ old, ∀ b ∈ new, Turns (edits a b) (encode a) (encode b)) (done : List Json)
    (hdone : done.length = cursor) :
    ∃ rest, edits? (list cursor old new) (.array (done ++ old.map encode)) =
        some (.array (done ++ rest)) ∧
      List.Forall₂ (fun d e => (d == e) = true) rest (new.map encode) := by
  induction cursor, old, new using list.induct generalizing done with
  | case1 cursor new =>
    refine ⟨new.map encode, ?_, ?_⟩
    · rw [list, List.map_nil, List.append_nil, edits?_add_behind]
    · rw [List.forall₂_same]
      intro d hd
      obtain ⟨b, -, rfl⟩ := List.mem_map.1 hd
      exact hself b
  | case2 cursor a old =>
    refine ⟨[], ?_, .nil⟩
    subst hdone
    rw [list, edits?_remove_rest, List.append_nil]
  | case3 cursor a old b new hdrop ih =>
    obtain ⟨rest, hrest, hsame⟩ :=
      ih (fun a' ha' => h a' (List.mem_cons_of_mem _ ha')) done hdone
    refine ⟨rest, ?_, hsame⟩
    subst hdone
    rw [list, if_pos hdrop, edits?_cons, List.map_cons]
    show (edit? .remove none [item done.length] _).bind _ = _
    rw [edit?_remove_item, Option.bind_some, hrest]
  | case4 cursor a old b new hpair ih =>
    have hab := h a List.mem_cons_self b List.mem_cons_self
    obtain ⟨d, hd, hsamed⟩ := hab.reaches
    obtain ⟨rest, hrest, hsame⟩ := ih
      (fun a' ha' b' hb' => h a' (List.mem_cons_of_mem _ ha') b' (List.mem_cons_of_mem _ hb'))
      (done ++ [d]) (by rw [List.length_append, hdone]; rfl)
    refine ⟨d :: rest, ?_, .cons hsamed hsame⟩
    subst hdone
    have hitem : (done ++ encode a :: old.map encode)[done.length]? = some (encode a) := by simp
    have hset : (done ++ encode a :: old.map encode).set done.length d =
        done ++ [d] ++ old.map encode := by simp
    rw [list, if_neg hpair, List.map_cons,
      edits?_append (edits?_under_item hitem hab.replaces hd), hset, hrest,
      List.append_assoc, List.singleton_append]

-- Every edit of a list is on an item.
theorem path_ne_nil_of_mem_list [BEq α] [Diff α] {cursor : Nat} {old new : List α} {e : Edit}
    (he : e ∈ list cursor old new) : e.path ≠ [] := by
  induction cursor, old, new using list.induct with
  | case1 cursor new =>
    rw [list] at he
    obtain ⟨b, -, rfl⟩ := List.mem_map.1 he
    simp [Edit.add]
  | case2 cursor a old =>
    rw [list] at he
    obtain ⟨a', -, rfl⟩ := List.mem_map.1 he
    simp [Edit.remove]
  | case3 cursor a old b new hdrop ih =>
    rw [list, if_pos hdrop, List.mem_cons] at he
    rcases he with rfl | he
    · simp [Edit.remove]
    · exact ih he
  | case4 cursor a old b new hpair ih =>
    rw [list, if_neg hpair, List.mem_append] at he
    rcases he with he | he
    · obtain ⟨f, -, rfl⟩ := List.mem_map.1 he
      simp [Edit.relocate]
    · exact ih he

-- Lists by position. Which items are paired does not matter.
theorem turns_list [BEq α] [Diff α] (hself : ∀ a : α, (encode a == encode a) = true)
    {old new : List α} (h : ∀ a ∈ old, ∀ b ∈ new, Turns (edits a b) (encode a) (encode b)) :
    Turns (list 0 old new) (encode old) (encode new) where
  reaches := by
    obtain ⟨rest, hrest, hsame⟩ := edits?_list hself h [] rfl
    exact ⟨.array rest, hrest, same_array hsame⟩
  replaces e he hnil := absurd hnil (path_ne_nil_of_mem_list he)

/-! ## 4. Maps -/

section

variable {κ : Type} [MapKey κ]

theorem nodup_eitherKeys {β : Type} (old new : SortedMap κ β) : (eitherKeys old new).Nodup :=
  Entries.nodup_keys (SortedMap.ofList _).sorted

theorem mem_eitherKeys {β : Type} {old new : SortedMap κ β} {k : κ} :
    k ∈ eitherKeys old new ↔ k ∈ old.keys ∨ k ∈ new.keys := by
  rw [eitherKeys, SortedMap.keys, SortedMap.entries_ofList, ← Entries.isSome_get?,
    Entries.isSome_get?_foldl_insert]
  simp

/-- The members that a map is written with. -/
def mapEntries (m : SortedMap κ α) : List (String × Json) :=
  memberEntries (m.entries.map fun e => (MapKey.name e.1, encode e.2))

theorem encode_map_eq (m : SortedMap κ α) : encode m = .object (mapEntries m) := rfl

theorem sorted_mapEntries (m : SortedMap κ α) : Entries.Sorted (mapEntries m) :=
  sorted_memberEntries _

-- The map is written under other names, but the names tell the keys apart.
theorem get?_names (hname : Function.Injective (MapKey.name : κ → String)) (k : κ)
    (entries : List (κ × α)) :
    Entries.get? (MapKey.name k) (entries.map fun e => (MapKey.name e.1, encode e.2)) =
      (Entries.get? k entries).map encode := by
  induction entries with
  | nil => rfl
  | cons e rest ih =>
    rw [List.map_cons, Entries.get?_cons, Entries.get?_cons]
    by_cases hk : k = e.1
    · rw [if_pos hk, if_pos (congrArg MapKey.name hk)]
      rfl
    · rw [if_neg hk, if_neg fun heq => hk (hname heq)]
      exact ih

theorem nodup_names (hname : Function.Injective (MapKey.name : κ → String)) (m : SortedMap κ α) :
    ((m.entries.map fun e => (MapKey.name e.1, encode e.2)).map Prod.fst).Nodup := by
  have hkeys := (Entries.nodup_keys m.sorted).map hname
  simpa [Function.comp_def] using hkeys

theorem get?_mapEntries (hname : Function.Injective (MapKey.name : κ → String)) (m : SortedMap κ α)
    (k : κ) : Entries.get? (MapKey.name k) (mapEntries m) = (m.get? k).map encode := by
  rw [mapEntries, get?_memberEntries (nodup_names hname m), get?_names hname]
  rfl

theorem get?_mapEntries_of_not_mem (hname : Function.Injective (MapKey.name : κ → String))
    {m : SortedMap κ α} {name : String} (h : name ∉ m.keys.map MapKey.name) :
    Entries.get? name (mapEntries m) = none := by
  rw [mapEntries, get?_memberEntries (nodup_names hname m)]
  apply Entries.get?_eq_none_of_not_mem
  simpa [SortedMap.keys, Function.comp_def] using h

-- Edits key by key, in any order of the keys.
theorem turns_keys (hname : Function.Injective (MapKey.name : κ → String))
    {old new : SortedMap κ α} {es : κ → List Edit} {ks : List κ}
    (hks : ks.Perm (eitherKeys old new))
    (h : ∀ k, Fills (MapKey.name k) ((old.get? k).map encode) ((new.get? k).map encode) (es k)) :
    Turns (ks.flatMap es) (encode old) (encode new) := by
  rw [encode_map_eq, encode_map_eq]
  apply Fills.turns MapKey.name
  · exact (hks.nodup_iff.2 (nodup_eitherKeys old new)).map hname
  · exact fun k _ => h k
  · exact sorted_mapEntries old
  · exact sorted_mapEntries new
  · exact fun k _ => get?_mapEntries hname old k
  · exact fun k _ => get?_mapEntries hname new k
  · intro other hother
    have hkeys : ∀ k, k ∈ old.keys ∨ k ∈ new.keys → MapKey.name k ≠ other := by
      rintro k hk rfl
      exact hother (List.mem_map_of_mem (hks.mem_iff.2 (mem_eitherKeys.2 hk)))
    rw [get?_mapEntries_of_not_mem hname, get?_mapEntries_of_not_mem hname]
    · exact .none
    · intro hmem
      obtain ⟨k, hk, heq⟩ := List.mem_map.1 hmem
      exact hkeys k (.inr hk) heq
    · intro hmem
      obtain ⟨k, hk, heq⟩ := List.mem_map.1 hmem
      exact hkeys k (.inl hk) heq

-- Maps by key.
theorem turns_map [Diff α] (hname : Function.Injective (MapKey.name : κ → String))
    (hself : ∀ a : α, (encode a == encode a) = true) {old new : SortedMap κ α}
    (h : ∀ k a b, old.get? k = some a → new.get? k = some b →
      Turns (edits a b) (encode a) (encode b)) :
    Turns (map old new) (encode old) (encode new) :=
  turns_keys hname (List.Perm.refl _) fun k => Fills.presence hself (h k)

end

end Diff

end MbsClient
