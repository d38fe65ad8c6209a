/-!
# Sorted maps — finite maps as lists of entries in ascending order of key

Two maps with the same look-ups are the same value (`SortedMap.ext_get?`), so a state that holds
maps can be compared with `=`. The list functions of `Entries` ask nothing of the list they work
on; the members of a JSON object are such a list too.
-/

namespace MbsClient

/-- A strict linear order that decides. -/
class KeyOrder (κ : Type) where
  lt : κ → κ → Bool
  lt_irrefl : ∀ a, lt a a = false
  lt_trans : ∀ {a b c}, lt a b = true → lt b c = true → lt a c = true
  eq_of_not_lt : ∀ {a b}, lt a b = false → lt b a = false → a = b

namespace KeyOrder

variable {κ : Type}

theorem ne_of_lt [KeyOrder κ] {a b : κ} (h : lt a b = true) : a ≠ b := by
  rintro rfl
  simp [lt_irrefl] at h

theorem not_lt_of_lt [KeyOrder κ] {a b : κ} (h : lt a b = true) : lt b a = false := by
  cases hb : lt b a
  · rfl
  · exact absurd rfl (ne_of_lt (lt_trans h hb))

instance (priority := low) [KeyOrder κ] : DecidableEq κ := fun a b =>
  if hab : lt a b = true then isFalse (ne_of_lt hab)
  else if hba : lt b a = true then isFalse (ne_of_lt hba).symm
  else isTrue (eq_of_not_lt (by simpa using hab) (by simpa using hba))

/-- The order that counts a key as not above itself. -/
def le [KeyOrder κ] (a b : κ) : Bool := !lt b a

theorem le_total [KeyOrder κ] (a b : κ) : (le a b || le b a) = true := by
  cases hba : lt b a
  · simp [le, hba]
  · simp [le, not_lt_of_lt hba]

theorem le_trans [KeyOrder κ] (a b c : κ) (hab : le a b = true) (hbc : le b c = true) :
    le a c = true := by
  simp only [le, Bool.not_eq_true'] at hab hbc ⊢
  cases hca : lt c a
  · rfl
  -- `c` is below `a`, so `a` is not `b`, and then it is below `b`
  · cases hlt : lt a b
    · rw [eq_of_not_lt hlt hab, hbc] at hca
      cases hca
    · rw [lt_trans hca hlt] at hbc
      cases hbc

theorem le_antisymm [KeyOrder κ] {a b : κ} (hab : le a b = true) (hba : le b a = true) : a = b := by
  simp only [le, Bool.not_eq_true'] at hab hba
  exact eq_of_not_lt hba hab

/-- The order that `<` decides, for a type whose `<` is linear. -/
@[reducible] def ofLT (κ : Type) [LT κ] [LE κ] [DecidableLT κ] [Std.IsLinearOrder κ]
    [Std.LawfulOrderLT κ] : KeyOrder κ where
  lt a b := decide (a < b)
  lt_irrefl a := by simp [Std.lt_irrefl]
  lt_trans hab hbc := by
    simp only [decide_eq_true_eq] at hab hbc ⊢
    exact Std.lt_trans hab hbc
  eq_of_not_lt hab hba := by
    simp only [decide_eq_false_iff_not, Std.not_lt] at hab hba
    exact Std.le_antisymm hba hab

instance : KeyOrder Nat := ofLT Nat
instance : KeyOrder Int := ofLT Int
instance : KeyOrder UInt32 := ofLT UInt32
instance : KeyOrder String := ofLT String

/-- An order by parts: the first parts decide, and the rest does where they are the same. -/
def byFirst [KeyOrder κ] (a b : κ) (rest : Bool) : Bool := lt a b || (decide (a = b) && rest)

section

variable [KeyOrder κ] {a b c : κ} {x y z : Bool}

theorem byFirst_trans (hrest : x = true → y = true → z = true) (hab : byFirst a b x = true)
    (hbc : byFirst b c y = true) : byFirst a c z = true := by
  simp only [byFirst, Bool.or_eq_true, Bool.and_eq_true, decide_eq_true_eq] at hab hbc ⊢
  rcases hab with hab | ⟨rfl, hx⟩ <;> rcases hbc with hbc | ⟨rfl, hy⟩
  · exact .inl (lt_trans hab hbc)
  · exact .inl hab
  · exact .inl hbc
  · exact .inr ⟨rfl, hrest hx hy⟩

theorem same_of_not_byFirst (hab : byFirst a b x = false) (hba : byFirst b a y = false) :
    a = b ∧ x = false ∧ y = false := by
  simp only [byFirst, Bool.or_eq_false_iff, Bool.and_eq_false_iff, decide_eq_false_iff_not]
    at hab hba
  obtain rfl : a = b := eq_of_not_lt hab.1 hba.1
  exact ⟨rfl, hab.2.resolve_left (not_not_intro rfl), hba.2.resolve_left (not_not_intro rfl)⟩

end

/-- Pairs are ordered by the first part, then by the second. -/
instance {α β : Type} [KeyOrder α] [KeyOrder β] : KeyOrder (α × β) where
  lt a b := lt a.1 b.1 || (decide (a.1 = b.1) && lt a.2 b.2)
  lt_irrefl a := by simp [lt_irrefl]
  lt_trans hab hbc := byFirst_trans lt_trans hab hbc
  eq_of_not_lt hab hba := by
    obtain ⟨hfirst, hab, hba⟩ := same_of_not_byFirst hab hba
    exact Prod.ext hfirst (eq_of_not_lt hab hba)

/-- Lists are ordered by the first items that differ; what begins a list is below it. -/
def listLt [KeyOrder κ] : List κ → List κ → Bool
  | _, [] => false
  | [], _ :: _ => true
  | a :: as, b :: bs => byFirst a b (listLt as bs)

theorem listLt_irrefl [KeyOrder κ] (as : List κ) : listLt as as = false := by
  induction as with
  | nil => rfl
  | cons a as ih => simp [listLt, byFirst, lt_irrefl, ih]

theorem listLt_trans [KeyOrder κ] {as bs cs : List κ} (hab : listLt as bs = true)
    (hbc : listLt bs cs = true) : listLt as cs = true := by
  induction as generalizing bs cs with
  | nil =>
    cases cs with
    | nil => simp [listLt] at hbc
    | cons c cs => rfl
  | cons a as ih =>
    cases bs with
    | nil => simp [listLt] at hab
    | cons b bs =>
      cases cs with
      | nil => simp [listLt] at hbc
      | cons c cs => exact byFirst_trans ih hab hbc

theorem eq_of_not_listLt [KeyOrder κ] {as bs : List κ} (hab : listLt as bs = false)
    (hba : listLt bs as = false) : as = bs := by
  induction as generalizing bs with
  | nil =>
    cases bs with
    | nil => rfl
    | cons b bs => cases hab
  | cons a as ih =>
    cases bs with
    | nil => cases hba
    | cons b bs =>
      obtain ⟨rfl, hab, hba⟩ := same_of_not_byFirst hab hba
      rw [ih hab hba]

instance [KeyOrder κ] : KeyOrder (List κ) := ⟨listLt, listLt_irrefl, listLt_trans, eq_of_not_listLt⟩

/-- The order of the images under an injective function. -/
@[reducible] def comap {α β : Type} [KeyOrder β] (f : α → β) (hf : ∀ a b, f a = f b → a = b) :
    KeyOrder α where
  lt a b := lt (f a) (f b)
  lt_irrefl a := lt_irrefl (f a)
  lt_trans hab hbc := lt_trans hab hbc
  eq_of_not_lt hab hba := hf _ _ (eq_of_not_lt hab hba)

end KeyOrder

/-! ## Lists of entries -/

namespace Entries

variable {κ ν : Type} [KeyOrder κ]

/-- The value of the first entry under `k`. -/
def get? (k : κ) : List (κ × ν) → Option ν
  | [] => none
  | (k', v) :: rest => if k = k' then some v else get? k rest

/-- Puts `v` under `k`, in front of the first greater key. -/
def insert (k : κ) (v : ν) : List (κ × ν) → List (κ × ν)
  | [] => [(k, v)]
  | (k', v') :: rest =>
      if k = k' then (k, v) :: rest
      else if KeyOrder.lt k k' then (k, v) :: (k', v') :: rest
      else (k', v') :: insert k v rest

/-- Drops every entry under `k`. -/
def erase (k : κ) (entries : List (κ × ν)) : List (κ × ν) :=
  entries.filter fun e => !decide (k = e.1)

/-- Keys ascend strictly. -/
def Sorted (entries : List (κ × ν)) : Prop :=
  entries.Pairwise fun a b => KeyOrder.lt a.1 b.1 = true

instance (entries : List (κ × ν)) : Decidable (Sorted entries) :=
  inferInstanceAs (Decidable (List.Pairwise _ _))

@[simp] theorem get?_nil (k : κ) : get? k ([] : List (κ × ν)) = none := rfl

theorem get?_insert_self (k : κ) (v : ν) (entries : List (κ × ν)) :
    get? k (insert k v entries) = some v := by
  fun_induction insert k v entries <;> simp_all [get?]

theorem get?_insert_of_ne {k k' : κ} (h : k' ≠ k) (v : ν) (entries : List (κ × ν)) :
    get? k' (insert k v entries) = get? k' entries := by
  fun_induction insert k v entries <;> simp_all [get?]

theorem get?_erase_self (k : κ) (entries : List (κ × ν)) : get? k (erase k entries) = none := by
  induction entries with
  | nil => rfl
  | cons e rest ih =>
    by_cases h : k = e.1 <;> simp_all [erase, get?]

theorem get?_erase_of_ne {k k' : κ} (h : k' ≠ k) (entries : List (κ × ν)) :
    get? k' (erase k entries) = get? k' entries := by
  induction entries with
  | nil => rfl
  | cons e rest ih =>
    by_cases hk : k = e.1
    · have : k' ≠ e.1 := fun h' => h (h'.trans hk.symm)
      simp_all [erase, get?]
    · by_cases hk' : k' = e.1 <;> simp_all [erase, get?]

theorem mem_insert {k : κ} {v : ν} {entries : List (κ × ν)} {e : κ × ν}
    (h : e ∈ insert k v entries) : e = (k, v) ∨ e ∈ entries := by
  fun_induction insert k v entries <;> grind

theorem sorted_insert (k : κ) (v : ν) {entries : List (κ × ν)} (h : Sorted entries) :
    Sorted (insert k v entries) := by
  fun_induction insert k v entries with
  | case1 => simp [Sorted]
  | case2 v' rest => simpa [Sorted] using h
  | case3 k' v' rest hne hlt =>
    simp only [Sorted, List.pairwise_cons] at h ⊢
    refine ⟨?_, h⟩
    intro e he
    rcases List.mem_cons.1 he with rfl | he
    · exact hlt
    · exact KeyOrder.lt_trans hlt (h.1 e he)
  | case4 k' v' rest hne hlt ih =>
    simp only [Sorted, List.pairwise_cons] at h ih ⊢
    refine ⟨?_, ih h.2⟩
    intro e he
    rcases mem_insert he with rfl | he
    · cases hgt : KeyOrder.lt k' k
      · exact absurd (KeyOrder.eq_of_not_lt (by simpa using hlt) hgt) hne
      · rfl
    · exact h.1 e he

theorem sorted_erase (k : κ) {entries : List (κ × ν)} (h : Sorted entries) :
    Sorted (erase k entries) :=
  List.Pairwise.filter _ h

theorem get?_eq_none_of_lt {k : κ} {entries : List (κ × ν)}
    (h : ∀ e ∈ entries, KeyOrder.lt k e.1 = true) : get? k entries = none := by
  induction entries with
  | nil => rfl
  | cons e rest ih =>
    have hne : k ≠ e.1 := KeyOrder.ne_of_lt (h e (by simp))
    simp only [get?, hne, if_false]
    exact ih fun e' he' => h e' (by simp [he'])

/-- Look-ups determine a sorted list. -/
theorem eq_of_get?_eq {a b : List (κ × ν)} (ha : Sorted a) (hb : Sorted b)
    (h : ∀ k, get? k a = get? k b) : a = b := by
  induction a generalizing b with
  | nil =>
    cases b with
    | nil => rfl
    | cons e rest => simpa [get?] using h e.1
  | cons e rest ih =>
    obtain ⟨k, v⟩ := e
    cases b with
    | nil => simpa [get?] using h k
    | cons e' rest' =>
      obtain ⟨k', v'⟩ := e'
      simp only [Sorted, List.pairwise_cons] at ha hb
      have hk : k = k' := by
        apply KeyOrder.eq_of_not_lt
        · cases hlt : KeyOrder.lt k k'
          · rfl
          · have hnone : get? k ((k', v') :: rest') = none := by
              apply get?_eq_none_of_lt
              intro e he
              rcases List.mem_cons.1 he with rfl | he
              · exact hlt
              · exact KeyOrder.lt_trans hlt (hb.1 e he)
            have := h k
            rw [hnone] at this
            simp [get?] at this
        · cases hlt : KeyOrder.lt k' k
          · rfl
          · have hnone : get? k' ((k, v) :: rest) = none := by
              apply get?_eq_none_of_lt
              intro e he
              rcases List.mem_cons.1 he with rfl | he
              · exact hlt
              · exact KeyOrder.lt_trans hlt (ha.1 e he)
            have := h k'
            rw [hnone] at this
            simp [get?] at this
      subst hk
      have hv : v = v' := by simpa [get?] using h k
      subst hv
      congr 1
      refine ih ha.2 hb.2 fun q => ?_
      by_cases hq : q = k
      · subst hq
        rw [get?_eq_none_of_lt ha.1, get?_eq_none_of_lt hb.1]
      · simpa [get?, hq] using h q

end Entries

/-! ## Maps -/

/-- A finite map: entries in ascending order of key. -/
structure SortedMap (κ ν : Type) [KeyOrder κ] where
  entries : List (κ × ν)
  sorted : Entries.Sorted entries

namespace SortedMap

variable {κ ν : Type} [KeyOrder κ]

theorem ext_entries {a b : SortedMap κ ν} (h : a.entries = b.entries) : a = b := by
  cases a; cases b; cases h; rfl

instance [DecidableEq ν] : DecidableEq (SortedMap κ ν) := fun a b =>
  if h : a.entries = b.entries then isTrue (ext_entries h)
  else isFalse fun h' => h (congrArg entries h')

/-- Equal keys in order, with values that compare equal. -/
instance [BEq ν] : BEq (SortedMap κ ν) where
  beq a b := a.entries == b.entries

def empty : SortedMap κ ν := ⟨[], .nil⟩

instance : Inhabited (SortedMap κ ν) := ⟨empty⟩

def get? (m : SortedMap κ ν) (k : κ) : Option ν := Entries.get? k m.entries

def contains (m : SortedMap κ ν) (k : κ) : Bool := (m.get? k).isSome

/-- An earlier value under `k` is replaced. -/
def insert (m : SortedMap κ ν) (k : κ) (v : ν) : SortedMap κ ν :=
  ⟨Entries.insert k v m.entries, Entries.sorted_insert k v m.sorted⟩

def erase (m : SortedMap κ ν) (k : κ) : SortedMap κ ν :=
  ⟨Entries.erase k m.entries, Entries.sorted_erase k m.sorted⟩

/-- Keeps the entries that pass. -/
def filter (m : SortedMap κ ν) (keep : κ → ν → Bool) : SortedMap κ ν :=
  ⟨m.entries.filter fun e => keep e.1 e.2, m.sorted.filter _⟩

/-- Changes every value; the keys stay. -/
def map {μ : Type} (m : SortedMap κ ν) (f : κ → ν → μ) : SortedMap κ μ :=
  ⟨m.entries.map fun e => (e.1, f e.1 e.2), by
    simpa [Entries.Sorted, List.pairwise_map] using m.sorted⟩

/-- Changes the value under `k`, if there is one. -/
def modify (m : SortedMap κ ν) (k : κ) (f : ν → ν) : SortedMap κ ν :=
  match m.get? k with
  | some v => m.insert k (f v)
  | none => m

/-- A later entry replaces an earlier one of the same key. -/
def ofList (entries : List (κ × ν)) : SortedMap κ ν :=
  entries.foldl (fun m e => m.insert e.1 e.2) empty

def keys (m : SortedMap κ ν) : List κ := m.entries.map Prod.fst

def values (m : SortedMap κ ν) : List ν := m.entries.map Prod.snd

def size (m : SortedMap κ ν) : Nat := m.entries.length

@[simp] theorem get?_empty (k : κ) : (empty : SortedMap κ ν).get? k = none := rfl

@[simp] theorem get?_insert_self (m : SortedMap κ ν) (k : κ) (v : ν) :
    (m.insert k v).get? k = some v :=
  Entries.get?_insert_self k v m.entries

theorem get?_insert_of_ne (m : SortedMap κ ν) {k k' : κ} (h : k' ≠ k) (v : ν) :
    (m.insert k v).get? k' = m.get? k' :=
  Entries.get?_insert_of_ne h v m.entries

@[simp] theorem get?_erase_self (m : SortedMap κ ν) (k : κ) : (m.erase k).get? k = none :=
  Entries.get?_erase_self k m.entries

theorem get?_erase_of_ne (m : SortedMap κ ν) {k k' : κ} (h : k' ≠ k) :
    (m.erase k).get? k' = m.get? k' :=
  Entries.get?_erase_of_ne h m.entries

theorem ext_get? {a b : SortedMap κ ν} (h : ∀ k, a.get? k = b.get? k) : a = b :=
  ext_entries (Entries.eq_of_get?_eq a.sorted b.sorted h)

end SortedMap

end MbsClient
