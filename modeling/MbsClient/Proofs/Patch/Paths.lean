import Mathlib.Data.List.TakeWhile
import MbsClient.Patch.Record
import MbsClient.Proofs.Patch.Pointer

/-!
# Paths — where the edits of a record lie

The edits of a member lie under its name, whatever the member holds (`Member.path_of_mem`). So an
edit whose pointer leads into a member is one of that member (`member_of_within`).
-/

namespace MbsClient

namespace Patch.Pointer

/-- The pointer is the outer one, or leads on from it. -/
def Within (outer pointer : String) : Prop :=
  pointer = outer ∨ (outer ++ "/").toList <+: pointer.toList

/-- What a pointer has between its first two slashes. -/
def firstPart (pointer : List Char) : List Char := (pointer.drop 1).takeWhile (· != '/')

-- A part without slashes ends where the pointer does, or at the next slash.
theorem takeWhile_part {part rest : List Char} (h : '/' ∉ part)
    (hrest : ∀ c ∈ rest.head?, c = '/') :
    (part ++ rest).takeWhile (· != '/') = part := by
  have hpart : ∀ c ∈ part, (c != '/') = true := by
    intro c hc
    exact bne_iff_ne.2 (ne_of_mem_of_not_mem hc h)
  rw [List.takeWhile_append_of_pos hpart]
  cases rest with
  | nil => simp
  | cons c rest =>
    have hslash : c = '/' := hrest c rfl
    simp [hslash]

theorem toList_text_cons (segment : String) (path : List String) :
    (text (segment :: path)).toList = '/' :: (segment.toList.flatMap escapeChar ++
      path.flatMap fun segment => '/' :: segment.toList.flatMap escapeChar) := by
  rw [text.eq_2 _ (by simp), String.toList_ofList, List.flatMap_cons, List.cons_append]

theorem firstPart_text (segment : String) (path : List String) :
    firstPart (text (segment :: path)).toList = segment.toList.flatMap escapeChar := by
  rw [firstPart, toList_text_cons, List.drop_one, List.tail_cons]
  apply takeWhile_part (slash_not_mem_escape _)
  cases path <;> simp

theorem firstPart_of_within {name pointer : String} (h : Within (text [name]) pointer) :
    firstPart pointer.toList = name.toList.flatMap escapeChar := by
  rcases h with rfl | ⟨rest, hrest⟩
  · exact firstPart_text name []
  · rw [← hrest, String.toList_append, toList_text_cons, firstPart]
    simp only [List.flatMap_nil, List.append_nil, List.cons_append, List.append_assoc,
      List.drop_one, List.tail_cons]
    exact takeWhile_part (slash_not_mem_escape _) (by simp)

theorem escape_injective {a b : String}
    (h : a.toList.flatMap escapeChar = b.toList.flatMap escapeChar) : a = b := by
  have hread := congrArg unescape? h
  rw [unescape?_escape, unescape?_escape] at hread
  exact String.toList_inj.1 (Option.some.inj hread)

-- Only the empty path and the single empty segment are written as the whole document.
theorem text_ne_root {path : List String} {name : String} (hname : name ≠ "")
    (h : path.head? = some name) : text path ≠ "/" := by
  obtain ⟨path, rfl⟩ := List.head?_eq_some_iff.1 h
  intro heq
  have hfirst := firstPart_text name path
  rw [heq] at hfirst
  exact hname (escape_injective (b := "") hfirst.symm)

-- A pointer that leads into a member is the text of a path that does.
theorem head?_of_within {name : String} (hname : name ≠ "") {path : List String}
    (h : Within (text [name]) (text path)) : path.head? = some name := by
  have hfirst := firstPart_of_within h
  cases path with
  | nil =>
    -- the whole document is in no member
    have hempty : ([] : List Char) = name.toList.flatMap escapeChar := hfirst
    exact absurd (escape_injective (a := "") hempty).symm hname
  | cons segment path =>
    rw [firstPart_text] at hfirst
    rw [List.head?_cons, escape_injective hfirst]

end Patch.Pointer

open Patch

namespace Member

variable {R α : Type} [Encode α]

/-- The edits of the member lie under its name. -/
def Inside (m : Member R) : Prop :=
  ∀ old new, ∀ e ∈ m.edits old new, e.path.head? = some m.name

theorem head?_of_mem_under {name : String} {es : List Edit} {e : Edit} (h : e ∈ under name es) :
    e.path.head? = some name := by
  obtain ⟨inner, -, rfl⟩ := List.mem_map.1 h
  rfl

@[simp] theorem inside_always [Diff α] (name : String) (get : R → α) : (always name get).Inside :=
  fun _ _ _ => head?_of_mem_under

@[simp] theorem inside_optional [Diff α] (name : String) (get : R → Option α) :
    (optional name get).Inside :=
  fun _ _ _ => head?_of_mem_under

@[simp] theorem inside_hidden [Diff α] (name : String) (visible : R → Bool)
    (get : R → Option α) : (hidden name visible get).Inside :=
  fun _ _ _ => head?_of_mem_under

@[simp] theorem inside_flag (name : String) (get : R → Bool) : (flag name get).Inside := by
  intro old new e he
  simp only [flag] at he
  split at he
  · rw [List.mem_singleton.1 he]
    rfl
  · rw [List.mem_singleton.1 he]
    rfl
  · cases he

@[simp] theorem inside_sequence [BEq α] [Diff α] (name : String) (get : R → List α) :
    (sequence name get).Inside := by
  intro old new e he
  simp only [sequence] at he
  split at he
  · cases he
  · rw [List.mem_singleton.1 he]
    rfl
  · rw [List.mem_singleton.1 he]
    rfl
  · exact head?_of_mem_under he

-- What leads into a member comes from a member of that name.
theorem member_of_within {members : List (Member R)} (hinside : ∀ m ∈ members, m.Inside)
    {name : String} (hname : name ≠ "") {old new : R} {e : Edit}
    (he : e ∈ differences members old new)
    (hwithin : Pointer.Within (Pointer.text [name]) (Pointer.text e.path)) :
    ∃ m ∈ members, m.name = name ∧ e ∈ m.edits old new := by
  obtain ⟨m, hm, hem⟩ := List.mem_flatMap.1 he
  have hhead := hinside m hm old new e hem
  rw [Pointer.head?_of_within hname hwithin] at hhead
  exact ⟨m, hm, (Option.some.inj hhead).symm, hem⟩

end Member

end MbsClient
