import Mathlib.Data.List.Perm.Basic
import MbsClient.Proofs.Codec.Source
import MbsClient.Proofs.Patch.Lawful
import MbsClient.Proofs.Text.Decimal

/-!
# Decoding maps — entries under the texts of their keys

The document of a map lists the entries in the order of the texts, which is not the order of the
keys. They are put back one by one, so the order does not count.
-/

namespace MbsClient

open Diff Json Text

theorem Json.keyInt?_name (k : UInt32) : keyInt? (MapKey.name k) = some (k.toNat : Int) := by
  have hchars : (MapKey.name k : String).toList = Decimal.digits k.toNat := String.toList_ofList
  have hsign : ∀ ds, Decimal.digits k.toNat ≠ '-' :: ds := fun ds hds =>
    Decimal.not_mem_digits (c := '-') rfl k.toNat (hds ▸ List.mem_cons_self)
  unfold keyInt?
  rw [hchars]
  split
  · rename_i ds hds
    exact absurd hds (hsign ds)
  · rw [Decimal.plain?_digits]
    rfl

variable {α : Type} [Encode α]

-- The entries of the document are those of the map in some order.
theorem exists_perm_mapEntries (m : SortedMap UInt32 α) :
    ∃ entries : List (UInt32 × α), entries.Perm m.entries ∧
      mapEntries m = entries.map fun e => (MapKey.name e.1, encode e.2) := by
  have hnames := nodup_names name_injective_uint32 m
  have hperm : (mapEntries m).Perm (m.entries.map fun e => (MapKey.name e.1, encode e.2)) := by
    have hnodup := Entries.nodup_keys (sorted_mapEntries m)
    rw [List.perm_ext_iff_of_nodup (List.Nodup.of_map _ hnodup) (List.Nodup.of_map _ hnames)]
    rintro ⟨name, d⟩
    have hget := get?_memberEntries hnames name
    exact ⟨fun hmem => Entries.mem_of_get? (hget ▸ Entries.get?_of_mem hnodup hmem),
      fun hmem => Entries.mem_of_get? (hget.trans (Entries.get?_of_mem hnames hmem))⟩
  have hcomp := (congrFun₂ (List.eq_map_comp_perm fun e => (MapKey.name e.1, encode e.2))
    (mapEntries m) m.entries).mpr hperm
  obtain ⟨entries, heq, hentries⟩ := hcomp
  exact ⟨entries, hentries, heq⟩

theorem reads_map [Decode α] {f : α → α} {m : SortedMap UInt32 α}
    (h : ∀ k a, m.get? k = some a → Reads Json a (f a)) :
    Reads Json m (m.map fun _ a => f a) where
  decode_encode := by
    obtain ⟨entries, hperm, heq⟩ := exists_perm_mapEntries m
    have hentry : ∀ e ∈ entries, ((do
        return (← needed ((keyInt? (MapKey.name e.1)).bind fun n =>
          if 0 ≤ n ∧ n < UInt32.size then some (UInt32.ofNat n.toNat) else none),
          ← decode (encode e.2))) : Decoded (UInt32 × α)) = .ok (e.1, f e.2) := by
      intro e he
      have hvalue := (h e.1 e.2 (SortedMap.mem_entries.1 (hperm.mem_iff.1 he))).decode_encode
      have hrange : (0 : Int) ≤ e.1.toNat ∧ (e.1.toNat : Int) < UInt32.size :=
        ⟨Int.natCast_nonneg _, Int.ofNat_lt.2 e.1.toNat_lt⟩
      rw [keyInt?_name, Option.bind_some, if_pos hrange, needed_some, Decoded.ok_bind]
      show ((decode (ofJson (encode e.2) : Json) : Decoded α) >>= _) = _
      rw [hvalue, Decoded.ok_bind, Int.toNat_natCast, UInt32.ofNat_toNat]
      rfl
    show ((List.mapM _ ((mapEntries m).map fun e => (keyInt? e.1, e.2)) :
      Decoded (List (UInt32 × α))) >>= _) = _
    rw [heq, List.map_map, List.mapM_map]
    refine (congrArg (· >>= _) (Decoded.mapM_eq_ok hentry)).trans ?_
    exact congrArg Except.ok (SortedMap.ofList_of_perm (hperm.map _))
  isNull_encode := rfl

end MbsClient
