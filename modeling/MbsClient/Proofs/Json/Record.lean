import MbsClient.Json.Value
import MbsClient.Proofs.Data.Entries

/-!
# Objects that are built, seen through look-ups

An object of members of different names has each of them under its name, and nothing else.
-/

namespace MbsClient.Json

/-- The members of `ofMembers`. -/
def memberEntries (members : List (String × Json)) : List (String × Json) :=
  members.foldl (fun acc e => Entries.insert e.1 e.2 acc) []

theorem sorted_memberEntries (members : List (String × Json)) :
    Entries.Sorted (memberEntries members) :=
  Entries.sorted_foldl_insert members Entries.sorted_nil

theorem get?_memberEntries {members : List (String × Json)} (hn : (members.map Prod.fst).Nodup)
    (name : String) : Entries.get? name (memberEntries members) = Entries.get? name members :=
  Entries.get?_foldl_insert hn

/-! ## Records -/

/-- The members of `record`. -/
def recordEntries (members : List (String × Option Json)) : List (String × Json) :=
  memberEntries (Entries.present members)

theorem record_eq (members : List (String × Option Json)) :
    record members = .object (recordEntries members) := rfl

theorem sorted_recordEntries (members : List (String × Option Json)) :
    Entries.Sorted (recordEntries members) :=
  sorted_memberEntries _

theorem get?_recordEntries_of_not_mem {members : List (String × Option Json)} {name : String}
    (h : name ∉ members.map Prod.fst) : Entries.get? name (recordEntries members) = none := by
  have hpresent : name ∉ (Entries.present members).map Prod.fst :=
    fun hmem => h ((Entries.sublist_keys_present members).subset hmem)
  exact Entries.get?_foldl_insert_of_not_mem hpresent []

theorem get?_recordEntries {members : List (String × Option Json)}
    (hn : (members.map Prod.fst).Nodup) {name : String} {v : Option Json}
    (h : (name, v) ∈ members) : Entries.get? name (recordEntries members) = v := by
  rw [recordEntries, get?_memberEntries (hn.sublist (Entries.sublist_keys_present members)),
    Entries.get?_present hn h]

end MbsClient.Json
