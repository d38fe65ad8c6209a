import MbsClient.Patch.Difference
import MbsClient.Proofs.Data.Entries
import MbsClient.Proofs.Patch.Pointer

/-!
# Edits at work — what steps on a part do to the whole

Steps that turn a member of an object, or an item of an array, into something else change the whole
in that one place (`edits?_under_member`, `edits?_under_item`). For an item there is a condition: a
step that adds the part as a whole would put it in front of the item instead of replacing it.
-/

namespace MbsClient

open Patch

namespace Json

theorem index?_item (i : Nat) : index? (Diff.item i) = some i := by
  rw [index?, Diff.item, Text.Decimal.text, String.toList_ofList, Text.Decimal.plain?_digits]

/-! ## Sequences of steps -/

/-- The document after steps, each of which has to succeed. -/
def edits? (es : List Edit) (doc : Json) : Option Json :=
  es.foldlM (fun doc e => edit? e.kind e.value e.path doc) doc

@[simp] theorem edits?_nil (doc : Json) : edits? [] doc = some doc := rfl

theorem edits?_cons (e : Edit) (es : List Edit) (doc : Json) :
    edits? (e :: es) doc = (edit? e.kind e.value e.path doc).bind (edits? es) := by
  rw [edits?, List.foldlM_cons]
  rfl

theorem edits?_append {es fs : List Edit} {doc doc' : Json} (h : edits? es doc = some doc') :
    edits? (es ++ fs) doc = edits? fs doc' := by
  rw [edits?, List.foldlM_append]
  show (edits? es doc).bind (edits? fs) = _
  rw [h, Option.bind_some]

-- Steps named by pointer text are the same steps.
theorem patch?_ofEdit {es : List Edit} (h : ∀ e ∈ es, e.path ≠ [""]) (doc : Json) :
    patch? (es.map Operation.ofEdit) doc = edits? es doc := by
  induction es generalizing doc with
  | nil => rfl
  | cons e es ih =>
    rw [edits?_cons, patch?, List.map_cons, List.foldlM_cons]
    simp only [Operation.ofEdit, Pointer.parse?_text (h e List.mem_cons_self)]
    show (edit? e.kind e.value e.path doc).bind (patch? (es.map Operation.ofEdit)) = _
    congr 1
    funext doc'
    exact ih (fun e he => h e (List.mem_cons_of_mem _ he)) doc'

/-! ## Steps on a part -/

theorem edit?_member {kind : Kind} {value : Option Json} {path : List String} {name : String}
    {entries : List (String × Json)} {v v' : Json} (hget : Entries.get? name entries = some v)
    (h : edit? kind value path v = some v') :
    edit? kind value (name :: path) (.object entries) =
      some (.object (Entries.insert name v' entries)) := by
  cases path with
  | nil =>
    rw [edit?] at h
    split at h
    · simp at h
    · rename_i hkind
      subst h
      cases kind with
      | add => simp [edit?, editMember?]
      | replace => simp [edit?, editMember?, hget]
      | remove => exact absurd rfl hkind
  | cons segment path => simp [edit?, hget, h]

theorem edits?_under_member {name : String} {es : List Edit} {entries : List (String × Json)}
    {v v' : Json} (hs : Entries.Sorted entries) (hget : Entries.get? name entries = some v)
    (h : edits? es v = some v') :
    edits? (under name es) (.object entries) =
      some (.object (Entries.insert name v' entries)) := by
  induction es generalizing entries v with
  | nil =>
    rw [edits?_nil] at h
    rw [← Option.some.inj h, Entries.insert_eq_self hs hget]
    rfl
  | cons e es ih =>
    rw [edits?_cons, Option.bind_eq_some_iff] at h
    obtain ⟨w, hw, hrest⟩ := h
    have hstep := edit?_member hget hw
    show edits? (e.relocate [name] :: under name es) _ = _
    rw [edits?_cons]
    simp only [Edit.relocate, List.singleton_append]
    rw [hstep, Option.bind_some,
      ih (Entries.sorted_insert _ _ hs) (Entries.get?_insert_self ..) hrest,
      Entries.insert_insert _ _ hs]

theorem edit?_item {kind : Kind} {value : Option Json} {path : List String} {i : Nat}
    {items : List Json} {v v' : Json} (hget : items[i]? = some v)
    (hwhole : path = [] → kind = .replace) (h : edit? kind value path v = some v') :
    edit? kind value (Diff.item i :: path) (.array items) = some (.array (items.set i v')) := by
  have hlt : i < items.length := (List.getElem?_eq_some_iff.1 hget).1
  cases path with
  | nil =>
    obtain rfl := hwhole rfl
    rw [edit?] at h
    simp only [reduceCtorEq, if_false] at h
    subst h
    simp [edit?, editItem?, index?_item, hlt]
  | cons segment path => simp [edit?, index?_item, hget, h]

theorem edits?_under_item {i : Nat} {es : List Edit} {items : List Json} {v v' : Json}
    (hget : items[i]? = some v) (hwhole : ∀ e ∈ es, e.path = [] → e.kind = .replace)
    (h : edits? es v = some v') :
    edits? (under (Diff.item i) es) (.array items) = some (.array (items.set i v')) := by
  induction es generalizing items v with
  | nil =>
    rw [edits?_nil] at h
    have hself : items.set i v' = items := by
      obtain ⟨hlt, hv⟩ := List.getElem?_eq_some_iff.1 hget
      rw [← Option.some.inj h, ← hv, List.set_getElem_self]
    rw [hself]
    rfl
  | cons e es ih =>
    rw [edits?_cons, Option.bind_eq_some_iff] at h
    obtain ⟨w, hw, hrest⟩ := h
    have hstep := edit?_item hget (hwhole e List.mem_cons_self) hw
    have hget' : (items.set i w)[i]? = some w := by
      obtain ⟨hlt, -⟩ := List.getElem?_eq_some_iff.1 hget
      rw [List.getElem?_set_self hlt]
    show edits? (e.relocate [Diff.item i] :: under (Diff.item i) es) _ = _
    rw [edits?_cons]
    simp only [Edit.relocate, List.singleton_append]
    rw [hstep, Option.bind_some,
      ih hget' (fun e he => hwhole e (List.mem_cons_of_mem _ he)) hrest, List.set_set]

end Json

end MbsClient
