import Mathlib.Data.List.Forall2
import MbsClient.Patch.Recorder
import MbsClient.Proofs.Patch.Lawful

/-!
# Fates — what a comparison of lists does with each item

An item is named together with its place in its list, so that items that are equal stay apart.
`fates` says what becomes of the items, and `list_eq_flatMap` that the steps of the comparison are
those of the fates. Whether an item lies where a step looks for it is said by a relation of its own
(`Leads`), along which the list changes item by item; the document changes with it (`edits?_leads`).
-/

namespace MbsClient.Diff

open Json Patch

/-- What becomes of an item of either list, or of one of each. -/
inductive Fate (α : Type) where
  /-- The old item `a` is removed from where it lies by then. -/
  | dropped (a : α × Nat) (index : Nat)
  /-- The old item `a` is turned into the new item `b`, at the place of `b`. -/
  | paired (a b : α × Nat)
  /-- The new item `b` is put behind all others. -/
  | appended (b : α × Nat)

namespace Fate

variable {α : Type}

/-- The old item that it is the fate of. -/
def old? : Fate α → Option (α × Nat)
  | dropped a _ => some a
  | paired a _ => some a
  | appended _ => none

def dropped? : Fate α → Option (α × Nat)
  | dropped a _ => some a
  | _ => none

def paired? : Fate α → Option ((α × Nat) × (α × Nat))
  | paired a b => some (a, b)
  | _ => none

def appended? : Fate α → Option (α × Nat)
  | appended b => some b
  | _ => none

/-- The steps on the document of the list. -/
def edits [Encode α] [Diff α] : Fate α → List Edit
  | dropped _ i => [.remove [item i]]
  | paired a b => under (item b.2) (MbsClient.edits a.1 b.1)
  | appended b => [.add [behindLast] (encode b.1)]

end Fate

variable {α : Type}

/-! ## 1. The walk along both lists -/

-- The places of the items take no part in what is made of each.
theorem map_eq_flatMap_zipIdx {β : Type} (f : α → β) (xs : List α) (i : Nat) :
    xs.map f = (xs.zipIdx i).flatMap fun a => [f a.1] := by
  rw [← List.map_eq_flatMap]
  conv_lhs => rw [← List.zipIdx_map_fst i xs, List.map_map]
  rfl

section

variable [BEq α]

/-- The fates of the items of two lists that go on at the places `i` and `j`. -/
def fates (i j : Nat) : (old new : List α) → List (Fate α)
  | [], new => (new.zipIdx j).map .appended
  | old@(_ :: _), [] => (old.zipIdx i).map fun a => .dropped a j
  | a :: old, b :: new =>
      if new.length < old.length && !(b :: new).contains a then
        .dropped (a, i) j :: fates (i + 1) j old (b :: new)
      else .paired (a, i) (b, j) :: fates (i + 1) (j + 1) old new

theorem list_eq_flatMap [Encode α] [Diff α] (i cursor : Nat) (old new : List α) :
    list cursor old new = (fates i cursor old new).flatMap Fate.edits := by
  induction cursor, old, new using list.induct generalizing i with
  | case1 cursor new =>
    rw [list, fates, List.flatMap_map]
    exact map_eq_flatMap_zipIdx _ new cursor
  | case2 cursor a old =>
    rw [list, fates, List.flatMap_map]
    exact map_eq_flatMap_zipIdx _ (a :: old) i
  | case3 cursor a old b new hdrop ih =>
    rw [list, fates, if_pos hdrop, if_pos hdrop, List.flatMap_cons, ← ih (i + 1)]
    rfl
  | case4 cursor a old b new hpair ih =>
    rw [list, fates, if_neg hpair, if_neg hpair, List.flatMap_cons, ← ih (i + 1)]
    rfl

theorem old?_fates (i j : Nat) (old new : List α) :
    (fates i j old new).filterMap Fate.old? = old.zipIdx i := by
  induction j, old, new using list.induct generalizing i with
  | case1 j new => simp [fates, List.filterMap_map, Function.comp_def, Fate.old?]
  | case2 j a old =>
    rw [fates, List.filterMap_map]
    exact List.filterMap_some
  | case3 j a old b new hdrop ih =>
    rw [fates, if_pos hdrop, List.filterMap_cons, ih]
    rfl
  | case4 j a old b new hpair ih =>
    rw [fates, if_neg hpair, List.filterMap_cons, ih]
    rfl

-- Items are dropped only as long as more old ones are left than new ones.
theorem length_dropped?_fates (i j : Nat) (old new : List α) :
    ((fates i j old new).filterMap Fate.dropped?).length = old.length - new.length := by
  induction j, old, new using list.induct generalizing i with
  | case1 j new => simp [fates, List.filterMap_map, Function.comp_def, Fate.dropped?]
  | case2 j a old =>
    rw [fates, List.filterMap_map]
    show (((a :: old).zipIdx i).filterMap some).length = _
    rw [List.filterMap_some, List.length_zipIdx, List.length_nil, Nat.sub_zero]
  | case3 j a old b new hdrop ih =>
    have hmore : new.length < old.length := of_decide_eq_true (Bool.and_eq_true_iff.1 hdrop).1
    rw [fates, if_pos hdrop, List.filterMap_cons]
    simp only [Fate.dropped?, List.length_cons, ih]
    omega
  | case4 j a old b new hpair ih =>
    rw [fates, if_neg hpair, List.filterMap_cons]
    simp only [Fate.dropped?, List.length_cons, ih]
    omega

-- Where an item is dropped, there are old items enough for all new ones without it.
theorem length_zipIdx_le_of_drop {a b : α} {old new : List α}
    (hdrop : (decide (new.length < old.length) && !(b :: new).contains a) = true) (j : Nat) :
    ((b :: new).zipIdx j).length ≤ old.length ∧
      ((b :: new).zipIdx j).length ≤ (a :: old).length := by
  have hmore : new.length < old.length := of_decide_eq_true (Bool.and_eq_true_iff.1 hdrop).1
  rw [List.length_zipIdx]
  exact ⟨hmore, Nat.le_succ_of_le hmore⟩

theorem paired?_fates (i j : Nat) (old new : List α) :
    ((fates i j old new).filterMap Fate.paired?).map Prod.snd =
      (new.zipIdx j).take old.length := by
  induction j, old, new using list.induct generalizing i with
  | case1 j new => simp [fates, List.filterMap_map, Function.comp_def, Fate.paired?]
  | case2 j a old =>
    rw [fates, List.filterMap_map]
    show (((a :: old).zipIdx i).filterMap fun _ => none).map Prod.snd = _
    simp
  | case3 j a old b new hdrop ih =>
    obtain ⟨hall, hall'⟩ := length_zipIdx_le_of_drop hdrop j
    rw [fates, if_pos hdrop, List.filterMap_cons]
    show ((fates (i + 1) j old (b :: new)).filterMap Fate.paired?).map Prod.snd = _
    rw [ih, List.take_of_length_le hall, List.take_of_length_le hall']
  | case4 j a old b new hpair ih =>
    rw [fates, if_neg hpair, List.filterMap_cons]
    exact congrArg ((b, j) :: ·) (ih (i + 1))

theorem appended?_fates (i j : Nat) (old new : List α) :
    (fates i j old new).filterMap Fate.appended? = (new.zipIdx j).drop old.length := by
  induction j, old, new using list.induct generalizing i with
  | case1 j new =>
    rw [fates, List.filterMap_map]
    exact List.filterMap_some
  | case2 j a old =>
    rw [fates, List.filterMap_map]
    show (((a :: old).zipIdx i).filterMap fun _ => none) = _
    simp
  | case3 j a old b new hdrop ih =>
    obtain ⟨hall, hall'⟩ := length_zipIdx_le_of_drop hdrop j
    rw [fates, if_pos hdrop, List.filterMap_cons]
    show (fates (i + 1) j old (b :: new)).filterMap Fate.appended? = _
    rw [ih, List.drop_eq_nil_of_le hall, List.drop_eq_nil_of_le hall']
  | case4 j a old b new hpair ih =>
    rw [fates, if_neg hpair, List.filterMap_cons]
    exact ih (i + 1)

-- What is dropped does not occur among the new items left.
theorem not_contains_of_dropped {i j k : Nat} {old new : List α} {a : α × Nat}
    {before after : List (Fate α)} (h : fates i j old new = before ++ .dropped a k :: after) :
    (new.drop (before.filterMap Fate.paired?).length).contains a.1 = false := by
  induction j, old, new using list.induct generalizing i before with
  | case1 j new =>
    rw [fates] at h
    have hmem : Fate.dropped a k ∈ (new.zipIdx j).map Fate.appended := by
      rw [h]
      exact List.mem_append_right _ List.mem_cons_self
    obtain ⟨b, -, hb⟩ := List.mem_map.1 hmem
    cases hb
  | case2 j a' old => simp
  | case3 j a' old b new hdrop ih =>
    rw [fates, if_pos hdrop] at h
    cases before with
    | nil =>
      obtain ⟨rfl, -⟩ := Fate.dropped.inj (List.cons.inj h).1
      simpa using (Bool.and_eq_true_iff.1 hdrop).2
    | cons f before =>
      obtain ⟨rfl, hrest⟩ := List.cons.inj h
      have hkept : ((b :: new).drop (before.filterMap Fate.paired?).length).contains a.1 = false :=
        ih hrest
      exact hkept
  | case4 j a' old b new hpair ih =>
    rw [fates, if_neg hpair] at h
    cases before with
    | nil => cases (List.cons.inj h).1
    | cons f before =>
      obtain ⟨rfl, hrest⟩ := List.cons.inj h
      have hkept : (new.drop (before.filterMap Fate.paired?).length).contains a.1 = false :=
        ih hrest
      exact hkept

end

/-! ## 2. The list on its way -/

/-- An item of a list that is on its way from the old list to the new one. -/
inductive Standing (α : Type) where
  | old (a : α × Nat)
  | new (b : α × Nat)

/-- Fates that lead from one list to another: each finds its old item where it looks for it in the
list as it stands by then. -/
inductive Leads : List (Standing α) → List (Fate α) → List (Standing α) → Prop where
  | done {items} : Leads items [] items
  | dropped {items fs final a i} (h : items[i]? = some (.old a))
      (rest : Leads (items.eraseIdx i) fs final) : Leads items (.dropped a i :: fs) final
  | paired {items fs final a b} (h : items[b.2]? = some (.old a))
      (rest : Leads (items.set b.2 (.new b)) fs final) : Leads items (.paired a b :: fs) final
  | appended {items fs final b} (rest : Leads (items ++ [.new b]) fs final) :
      Leads items (.appended b :: fs) final

namespace Leads

variable {items final : List (Standing α)}

theorem append_iff {before after : List (Fate α)} :
    Leads items (before ++ after) final ↔
      ∃ mid, Leads items before mid ∧ Leads mid after final := by
  induction before generalizing items with
  | nil =>
    refine ⟨fun h => ⟨items, .done, h⟩, ?_⟩
    rintro ⟨mid, hmid, h⟩
    cases hmid
    exact h
  | cons f before ih =>
    constructor
    · intro h
      cases h with
      | dropped h rest =>
        obtain ⟨mid, hbefore, hafter⟩ := ih.1 rest
        exact ⟨mid, .dropped h hbefore, hafter⟩
      | paired h rest =>
        obtain ⟨mid, hbefore, hafter⟩ := ih.1 rest
        exact ⟨mid, .paired h hbefore, hafter⟩
      | appended rest =>
        obtain ⟨mid, hbefore, hafter⟩ := ih.1 rest
        exact ⟨mid, .appended hbefore, hafter⟩
    · rintro ⟨mid, hbefore, hafter⟩
      cases hbefore with
      | dropped h rest => exact .dropped h (ih.2 ⟨mid, rest, hafter⟩)
      | paired h rest => exact .paired h (ih.2 ⟨mid, rest, hafter⟩)
      | appended rest => exact .appended (ih.2 ⟨mid, rest, hafter⟩)

-- The first of the old items left lies behind those that are done.
theorem dropped_behind {done : List (Standing α)} {a : α × Nat} {old : List (Standing α)}
    {fs : List (Fate α)} (rest : Leads (done ++ old) fs final) :
    Leads (done ++ .old a :: old) (.dropped a done.length :: fs) final := by
  have herase : (done ++ Standing.old a :: old).eraseIdx done.length = done ++ old := by
    simp [List.eraseIdx_append]
  exact .dropped (by simp) (herase ▸ rest)

theorem map_appended (items : List (Standing α)) (new : List (α × Nat)) :
    Leads items (new.map .appended) (items ++ new.map .new) := by
  induction new generalizing items with
  | nil =>
    rw [List.map_nil, List.map_nil, List.append_nil]
    exact .done
  | cons b new ih =>
    have hrest := ih (items ++ [.new b])
    rw [List.append_assoc, List.singleton_append] at hrest
    exact .appended hrest

-- What is left of the old list moves up to the place of what is dropped.
theorem map_dropped (done : List (Standing α)) (old : List (α × Nat)) :
    Leads (done ++ old.map .old) (old.map fun a => .dropped a done.length) done := by
  induction old with
  | nil =>
    rw [List.map_nil, List.map_nil, List.append_nil]
    exact .done
  | cons a old ih =>
    rw [List.map_cons, List.map_cons]
    exact dropped_behind ih

end Leads

-- The items in front of place `j` are new ones, those behind it are the old ones left.
theorem leads_fates [BEq α] (i j : Nat) (old new : List α) (done : List (Standing α))
    (hdone : done.length = j) :
    Leads (done ++ (old.zipIdx i).map .old) (fates i j old new)
      (done ++ (new.zipIdx j).map .new) := by
  induction j, old, new using list.induct generalizing i done with
  | case1 j new =>
    rw [fates, List.zipIdx_nil, List.map_nil, List.append_nil]
    exact Leads.map_appended done _
  | case2 j a old =>
    rw [fates, List.zipIdx_nil, List.map_nil, List.append_nil, ← hdone]
    exact Leads.map_dropped done _
  | case3 j a old b new hdrop ih =>
    rw [fates, if_pos hdrop, List.zipIdx_cons, List.map_cons]
    subst hdone
    exact Leads.dropped_behind (ih (i + 1) done rfl)
  | case4 j a old b new hpair ih =>
    rw [fates, if_neg hpair, List.zipIdx_cons, List.map_cons]
    subst hdone
    refine .paired (by simp) ?_
    have hset : (done ++ Standing.old (a, i) :: (old.zipIdx (i + 1)).map Standing.old).set
        done.length (.new (b, done.length)) =
          done ++ [.new (b, done.length)] ++ (old.zipIdx (i + 1)).map Standing.old := by
      simp
    have hrest := ih (i + 1) (done ++ [.new (b, done.length)]) (by simp)
    rw [hset]
    simpa using hrest

/-! ## 3. The document on its way -/

section

variable {R : Type} {β : Type} {r : R → β → Prop} {xs : List R} {ys : List β}

theorem getElem?_of_forall₂ (h : List.Forall₂ r xs ys) {i : Nat} {x : R} (hx : xs[i]? = some x) :
    ∃ y, ys[i]? = some y ∧ r x y := by
  induction h generalizing i with
  | nil => cases hx
  | @cons x' y' xs ys hhead _ ih =>
    cases i with
    | zero =>
      obtain rfl := Option.some.inj hx
      exact ⟨y', rfl, hhead⟩
    | succ i => exact ih hx

theorem forall₂_set (h : List.Forall₂ r xs ys) (i : Nat) {x : R} {y : β} (hxy : r x y) :
    List.Forall₂ r (xs.set i x) (ys.set i y) := by
  induction h generalizing i with
  | nil => exact .nil
  | cons hhead htail ih =>
    cases i with
    | zero => exact .cons hxy htail
    | succ i => exact .cons hhead (ih i)

theorem forall₂_eraseIdx (h : List.Forall₂ r xs ys) (i : Nat) :
    List.Forall₂ r (xs.eraseIdx i) (ys.eraseIdx i) := by
  induction h generalizing i with
  | nil => exact .nil
  | cons hhead htail ih =>
    cases i with
    | zero => exact htail
    | succ i => exact .cons hhead (ih i)

end

section

variable [Encode α]

/-- What a document has where the item stands: an old item is as it was, a new one the same. -/
def Shows : Standing α → Json → Prop
  | .old a, d => d = encode a.1
  | .new b, d => (d == encode b.1) = true

variable [Diff α]

-- The document goes through the same changes as the list.
theorem edits?_leads {items final : List (Standing α)} {fs : List (Fate α)} {docs : List Json}
    (h : Leads items fs final) (hself : ∀ a : α, (encode a == encode a) = true)
    (hturns : ∀ a b, .paired a b ∈ fs → Turns (edits a.1 b.1) (encode a.1) (encode b.1))
    (hshows : List.Forall₂ Shows items docs) :
    ∃ docs', edits? (fs.flatMap Fate.edits) (.array docs) = some (.array docs') ∧
      List.Forall₂ Shows final docs' := by
  induction h generalizing docs with
  | done => exact ⟨docs, rfl, hshows⟩
  | @dropped items fs final a i hat _ ih =>
    obtain ⟨d, hd, -⟩ := getElem?_of_forall₂ hshows hat
    obtain ⟨docs', hdocs, hshows'⟩ := ih
      (fun a b hab => hturns a b (List.mem_cons_of_mem _ hab)) (forall₂_eraseIdx hshows i)
    have hlt : i < docs.length := (List.getElem?_eq_some_iff.1 hd).1
    have hstep : edits? (Fate.dropped a i).edits (.array docs) =
        some (.array (docs.eraseIdx i)) := by
      show (edit? .remove none [item i] (.array docs)).bind _ = _
      simp [edit?, editItem?, index?_item, hlt]
    exact ⟨docs', (edits?_append hstep).trans hdocs, hshows'⟩
  | @paired items fs final a b hat _ ih =>
    obtain ⟨d, hd, hold⟩ := getElem?_of_forall₂ hshows hat
    obtain rfl : d = encode a.1 := hold
    have hab := hturns a b List.mem_cons_self
    obtain ⟨d, hedits, hsame⟩ := hab.reaches
    have hnew : Shows (.new b) d := hsame
    obtain ⟨docs', hdocs, hshows'⟩ := ih
      (fun a b hab => hturns a b (List.mem_cons_of_mem _ hab)) (forall₂_set hshows b.2 hnew)
    have hstep : edits? (Fate.paired a b).edits (.array docs) = some (.array (docs.set b.2 d)) :=
      edits?_under_item hd hab.replaces hedits
    exact ⟨docs', (edits?_append hstep).trans hdocs, hshows'⟩
  | @appended items fs final b _ ih =>
    have hnew : Shows (.new b) (encode b.1) := hself b.1
    obtain ⟨docs', hdocs, hshows'⟩ := ih
      (fun a b hab => hturns a b (List.mem_cons_of_mem _ hab))
      (List.rel_append hshows (.cons hnew .nil))
    have hstep : edits? (Fate.appended b).edits (.array docs) =
        some (.array (docs ++ [encode b.1])) := by
      show (edit? .add (some (encode b.1)) [behindLast] (.array docs)).bind _ = _
      simp [edit?, editItem?]
    exact ⟨docs', (edits?_append hstep).trans hdocs, hshows'⟩

end

/-! ## 4. All items -/

-- Pairs take old items in the order of their fates.
theorem sublist_paired?_old? (fs : List (Fate α)) :
    ((fs.filterMap Fate.paired?).map Prod.fst).Sublist (fs.filterMap Fate.old?) := by
  induction fs with
  | nil => exact .slnil
  | cons f fs ih =>
    cases f with
    | dropped a i => exact ih.cons a
    | paired a b => exact ih.cons_cons a
    | appended b => exact ih

/-- Fates that account for all items of two lists. -/
structure Accounts [BEq α] (old new : List α) (fs : List (Fate α)) : Prop where
  drop_count : (fs.filterMap Fate.dropped?).length = old.length - new.length
  append_count : (fs.filterMap Fate.appended?).length = new.length - old.length
  /-- Items are dropped or appended, never both. -/
  one_sided : fs.filterMap Fate.dropped? = [] ∨ fs.filterMap Fate.appended? = []
  pair_count : (fs.filterMap Fate.paired?).length = min old.length new.length
  /-- The new items are paired from the first on, each under its own place; the others follow. -/
  new_items : (fs.filterMap Fate.paired?).map Prod.snd ++ fs.filterMap Fate.appended? = new.zipIdx
  /-- Each old item is dropped or paired. -/
  old_items : fs.filterMap Fate.old? = old.zipIdx
  /-- Old items are paired in their order. -/
  in_order : ((fs.filterMap Fate.paired?).map Prod.fst).Sublist old.zipIdx
  /-- What is dropped is removed from where it lies in the list as it stands by then, and what is
  paired lies at the place of its pair. -/
  leads : Leads (old.zipIdx.map .old) fs (new.zipIdx.map .new)
  /-- What is dropped does not occur among the new items that are not paired by then. -/
  unwanted : ∀ before a i after, fs = before ++ .dropped a i :: after →
    (new.drop (before.filterMap Fate.paired?).length).contains a.1 = false

theorem accounts_fates [BEq α] (old new : List α) : Accounts old new (fates 0 0 old new) := by
  have hdropped := length_dropped?_fates 0 0 old new
  have hpaired := paired?_fates 0 0 old new
  have happended := appended?_fates 0 0 old new
  have hold := old?_fates 0 0 old new
  have hpairs : ((fates 0 0 old new).filterMap Fate.paired?).length = min old.length new.length := by
    have hlength := congrArg List.length hpaired
    rw [List.length_map, List.length_take, List.length_zipIdx] at hlength
    omega
  refine ⟨hdropped, ?_, ?_, hpairs, ?_, hold, ?_, ?_, fun _ _ _ _ => not_contains_of_dropped⟩
  · rw [happended, List.length_drop, List.length_zipIdx]
  · rcases Nat.le_total old.length new.length with hle | hle
    · exact .inl (List.length_eq_zero_iff.1 (hdropped.trans (Nat.sub_eq_zero_of_le hle)))
    · exact .inr (happended.trans (List.drop_eq_nil_of_le (by rwa [List.length_zipIdx])))
  · rw [hpaired, happended, List.take_append_drop]
  · have hsub := sublist_paired?_old? (fates 0 0 old new)
    rwa [hold] at hsub
  · exact leads_fates 0 0 old new [] rfl

section

variable [Encode α] [Diff α] [BEq α]

-- Up to what is dropped next, the document has gone the way of the list.
theorem getElem?_of_dropped {old new : List α} (hself : ∀ a : α, (encode a == encode a) = true)
    (hturns : ∀ a ∈ old, ∀ b ∈ new, Turns (edits a b) (encode a) (encode b))
    {before after : List (Fate α)} {a : α × Nat} {i : Nat}
    (h : fates 0 0 old new = before ++ .dropped a i :: after) :
    ∃ docs, edits? (before.flatMap Fate.edits) (encode old) = some (.array docs) ∧
      docs[i]? = some (encode a.1) := by
  have haccounts := accounts_fates old new
  obtain ⟨mid, hbefore, hafter⟩ := Leads.append_iff.1 (h ▸ haccounts.leads)
  have hpairs : ∀ a b, .paired a b ∈ before →
      Turns (edits a.1 b.1) (encode a.1) (encode b.1) := by
    intro a b hab
    have hmem : (a, b) ∈ (fates 0 0 old new).filterMap Fate.paired? :=
      List.mem_filterMap.2 ⟨_, h ▸ List.mem_append_left _ hab, rfl⟩
    have ha : a ∈ old.zipIdx := haccounts.in_order.subset (List.mem_map_of_mem hmem)
    have hb : b ∈ new.zipIdx := by
      rw [← haccounts.new_items]
      exact List.mem_append_left _ (List.mem_map_of_mem hmem)
    exact hturns _ (List.fst_mem_of_mem_zipIdx ha) _ (List.fst_mem_of_mem_zipIdx hb)
  have hshows : List.Forall₂ Shows (old.zipIdx.map .old) (old.map encode) := by
    rw [← List.zipIdx_map_fst 0 old, List.map_map, List.forall₂_map_left_iff,
      List.forall₂_map_right_iff, List.zipIdx_map_fst]
    exact List.forall₂_same.2 fun _ _ => rfl
  obtain ⟨docs, hdocs, hmid⟩ := edits?_leads hbefore hself hpairs hshows
  cases hafter with
  | dropped hat _ =>
    obtain ⟨d, hd, hold⟩ := getElem?_of_forall₂ hmid hat
    exact ⟨docs, hdocs, hd.trans (congrArg some hold)⟩

/-- Comparing two lists drops old items or appends new ones, never both. The steps are those of
fates that account for all items: as many pairs as the shorter list has items, the `k`-th with the
new item at `k`, and what one list has more dropped or appended. A removal names the place where its
item lies by then; so it does in the document, where pairs lead from one item to the other. -/
theorem compare_drops_or_appends (old new : List α) (r : Recorder) :
    (r.compare old new).recorded = r.recorded ++
        ((fates 0 0 old new).flatMap Fate.edits).map (Edit.relocate r.cursor) ∧
      Accounts old new (fates 0 0 old new) ∧
      ((∀ a : α, (encode a == encode a) = true) →
        (∀ a ∈ old, ∀ b ∈ new, Turns (edits a b) (encode a) (encode b)) →
        ∀ before a i after, fates 0 0 old new = before ++ .dropped a i :: after →
          ∃ docs, edits? (before.flatMap Fate.edits) (encode old) = some (.array docs) ∧
            docs[i]? = some (encode a.1)) := by
  refine ⟨?_, accounts_fates old new,
    fun hself hturns _ _ _ _ h => getElem?_of_dropped hself hturns h⟩
  rw [← list_eq_flatMap]
  rfl

end

/-- Letters that come more than once: the second `a` makes place for a `c`, and the `c` behind it is
dropped. -/
theorem compare_drops_or_appends_repeated :
    (∀ a : String, (encode a == encode a) = true) ∧
      (∀ a ∈ ["a", "b", "a", "c", "b"], ∀ b ∈ ["a", "c", "a"],
        Turns (edits a b) (encode a) (encode b)) ∧
      fates 0 0 ["a", "b", "a", "c", "b"] ["a", "c", "a"] =
        [.paired ("a", 0) ("a", 0), .dropped ("b", 1) 1, .paired ("a", 2) ("c", 1)] ++
          .dropped ("c", 3) 2 :: [.paired ("b", 4) ("a", 2)] ∧
      ∃ docs, edits? (([.paired ("a", 0) ("a", 0), .dropped ("b", 1) 1,
          .paired ("a", 2) ("c", 1)] : List (Fate String)).flatMap Fate.edits)
            (encode ["a", "b", "a", "c", "b"]) = some (.array docs) ∧
        docs[2]? = some (encode "c") := by
  have hself : ∀ a : String, (encode a == encode a) = true := same_self
  have hturns : ∀ a ∈ ["a", "b", "a", "c", "b"], ∀ b ∈ ["a", "c", "a"],
      Turns (edits a b) (encode a) (encode b) := fun a _ b _ => LawfulDiff.turns a b
  have hfates : fates 0 0 ["a", "b", "a", "c", "b"] ["a", "c", "a"] =
      [.paired ("a", 0) ("a", 0), .dropped ("b", 1) 1, .paired ("a", 2) ("c", 1)] ++
        .dropped ("c", 3) 2 :: [.paired ("b", 4) ("a", 2)] := rfl
  exact ⟨hself, hturns, hfates,
    (compare_drops_or_appends _ _ {}).2.2 hself hturns _ _ _ _ hfates⟩

end MbsClient.Diff
