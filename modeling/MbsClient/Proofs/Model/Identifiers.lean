import MbsClient.Proofs.Model.Readable

/-!
# Identifiers and their texts

A text of as many hexadecimal digits as there are to be is read, and is what the number is written
as but for the case of its letters (`FixedHex.parse_eq_ok_iff`, `FixedHex.text_of_parse`). So the
numbers that an identifier can be made of are those that a text can stand for.
-/

namespace MbsClient

open Text

namespace FixedHex

variable {field s : String} {digits v : Nat}

theorem parse_eq_ok_iff (hpos : 0 < digits) (hle : digits ≤ 16) :
    parse field digits s = .ok v ↔ s.toList.length = digits ∧ Hex.value? s.toList = some v := by
  constructor
  · intro h
    unfold parse at h
    simp only at h
    split at h
    · cases h
    rename_i hlength
    split at h
    · cases h
    rename_i w hw
    rw [if_neg (Nat.ne_of_gt hpos)] at h
    split at h
    · obtain rfl := Except.ok.inj h
      exact ⟨Decidable.not_not.1 hlength, hw⟩
    · cases h
  · rintro ⟨hlength, hv⟩
    have hlt : v < 16 ^ digits := hlength ▸ Hex.value?_lt hv
    have hsize : v < UInt64.size := Nat.lt_of_lt_of_le hlt (Nat.pow_le_pow_right (by decide) hle)
    simp only [parse, hv]
    rw [if_neg (not_not_intro hlength), if_neg (Nat.ne_of_gt hpos), if_pos hsize]

theorem exists_parse_eq_ok_iff (hpos : 0 < digits) (hle : digits ≤ 16) :
    (∃ v, parse field digits s = .ok v) ↔
      s.length = digits ∧ ∀ c ∈ s.toList, c ∈ Hex.eitherDigits := by
  simp only [parse_eq_ok_iff hpos hle, exists_and_left, String.length_toList]
  rw [← Option.isSome_iff_exists, Hex.value?, Hex.isSome_valueFrom_iff]

theorem text_of_parse (hpos : 0 < digits) (hle : digits ≤ 16)
    (h : parse field digits s = .ok v) : text digits v = s.toUpper := by
  obtain ⟨hlength, hv⟩ := (parse_eq_ok_iff hpos hle).1 h
  have hne : s.toList ≠ [] := List.length_pos_iff.1 (hlength ▸ hpos)
  have hfixed := Hex.fixed_of_value? hne hv
  rw [hlength] at hfixed
  rw [text, hfixed, String.toUpper, ← String.toList_map, String.ofList_toList]

end FixedHex

namespace Identifier

variable {k : IdentifierKind}

theorem exists_ofNat_eq_ok_iff {n : Nat} : (∃ i, ofNat k n = .ok i) ↔ n ≤ k.max := by
  unfold ofNat
  split
  · rename_i h
    exact iff_of_true ⟨_, rfl⟩ h
  · rename_i h
    exact iff_of_false (by simp) h

-- No bit of what a text denotes is cut off.
theorem parse_of_parse [k.Printed] {s : String} {v : Nat}
    (h : FixedHex.parse k.field k.digits s = .ok v) :
    ∃ i, parse k s = .ok i ∧ i.value = v := by
  have hv : v ≤ k.max := k.le_max_iff.2 (FixedHex.lt_of_parse_eq_ok h)
  unfold parse
  split
  · rename_i w hw
    obtain rfl := Except.ok.inj (h.symm.trans hw)
    exact ⟨_, rfl, IdentifierKind.narrow_eq_self hv⟩
  · rename_i fault hfault
    rw [h] at hfault
    cases hfault

theorem ofNat_iff_parse [k.Printed] {n : Nat} :
    (∃ i, ofNat k n = .ok i) ↔ ∃ s i, parse k s = .ok i ∧ i.value = n := by
  rw [exists_ofNat_eq_ok_iff]
  constructor
  · intro h
    exact ⟨text ⟨n, h⟩, ⟨n, h⟩, parse_text _, rfl⟩
  · rintro ⟨s, i, -, rfl⟩
    exact i.value_le

end Identifier

/-- Numbers in hexadecimal digits of fixed width. What is written has that many digits, and is read
as the number it was written for; a text is read exactly if it has that many digits of either case,
and is then what its number is written as but for the case. An identifier is made of just those
numbers that its texts stand for: none of these is above the largest value or loses a bit in the
word that holds it, and what is encoded is decoded as it was. -/
theorem fixed_width_exact :
    (∀ (field : String) (digits : Nat), 0 < digits → digits ≤ 16 →
      (∀ v < 16 ^ digits, (FixedHex.text digits v).length = digits ∧
        (∀ c ∈ (FixedHex.text digits v).toList, c ∈ Hex.upperDigits) ∧
        FixedHex.parse field digits (FixedHex.text digits v) = .ok v) ∧
      ∀ s : String, ((∃ v, FixedHex.parse field digits s = .ok v) ↔
          s.length = digits ∧ ∀ c ∈ s.toList, c ∈ Hex.eitherDigits) ∧
        ∀ v, FixedHex.parse field digits s = .ok v → FixedHex.text digits v = s.toUpper) ∧
    ∀ k ∈ [IdentifierKind.nrCellId, .nid, .fsaId, .tac],
      (∀ n, (∃ i, Identifier.ofNat k n = .ok i) ↔
        ∃ s i, Identifier.parse k s = .ok i ∧ i.value = n) ∧
      (∀ s v, FixedHex.parse k.field k.digits s = .ok v →
        v ≤ k.max ∧ ∃ i, Identifier.parse k s = .ok i ∧ i.value = v) ∧
      ∀ i : Identifier k, decode (encode i) = (.ok i : Decoded (Identifier k)) := by
  constructor
  · intro field digits hpos hle
    refine ⟨fun v hv => ⟨?_, ?_, FixedHex.parse_text field hpos hle hv⟩,
      fun s => ⟨FixedHex.exists_parse_eq_ok_iff hpos hle, fun v => FixedHex.text_of_parse hpos hle⟩⟩
    · rw [FixedHex.text, String.length_ofList, Hex.length_fixed hpos hv]
    · intro c hc
      rw [FixedHex.text, String.toList_ofList] at hc
      exact Hex.mem_upperDigits_of_mem_fixed hc
  · have hkind : ∀ (k : IdentifierKind) [k.Printed],
        (∀ n, (∃ i, Identifier.ofNat k n = .ok i) ↔
          ∃ s i, Identifier.parse k s = .ok i ∧ i.value = n) ∧
        (∀ s v, FixedHex.parse k.field k.digits s = .ok v →
          v ≤ k.max ∧ ∃ i, Identifier.parse k s = .ok i ∧ i.value = v) ∧
        ∀ i : Identifier k, decode (encode i) = (.ok i : Decoded (Identifier k)) :=
      fun k _ => ⟨fun _ => Identifier.ofNat_iff_parse,
        fun s v h => ⟨k.le_max_iff.2 (FixedHex.lt_of_parse_eq_ok h),
          Identifier.parse_of_parse h⟩,
        fun i => (reads Json i).decode_encode⟩
    simp only [List.forall_mem_cons]
    exact ⟨hkind _, hkind _, hkind _, hkind _, by simp⟩

/-- The largest network identifier, and a tracking area code in digits of both cases. -/
theorem fixed_width_exact_bothCases :
    (0xFFFFFFFFFFF < 16 ^ 11 ∧
      FixedHex.parse "nid" 11 (FixedHex.text 11 0xFFFFFFFFFFF) = .ok 0xFFFFFFFFFFF) ∧
    FixedHex.parse "tac" 6 "00fFa3" = .ok 0xFFA3 ∧ FixedHex.text 6 0xFFA3 = "00fFa3".toUpper ∧
    IdentifierKind.tac ∈ [IdentifierKind.nrCellId, .nid, .fsaId, .tac] ∧
    0xFFA3 ≤ IdentifierKind.tac.max ∧ ∃ i, Identifier.parse .tac "00fFa3" = .ok i ∧
      i.value = 0xFFA3 := by
  have hnid := (fixed_width_exact.1 "nid" 11 (by decide) (by decide)).1 0xFFFFFFFFFFF (by decide)
  have htac := (fixed_width_exact.1 "tac" 6 (by decide) (by decide)).2 "00fFa3"
  have hparse : FixedHex.parse "tac" 6 "00fFa3" = .ok 0xFFA3 := by decide
  have hmem : IdentifierKind.tac ∈ [IdentifierKind.nrCellId, .nid, .fsaId, .tac] := by simp
  exact ⟨⟨by decide, hnid.2.2⟩, hparse, htac.2 _ hparse, hmem,
    (fixed_width_exact.2 .tac hmem).2.1 _ _ hparse⟩

example : [IdentifierKind.nrCellId, .nid, .fsaId, .tac].map IdentifierKind.max =
    [0xFFFFFFFFF, 0xFFFFFFFFFFF, 0xFFFFFF, 0xFFFFFF] := by decide

end MbsClient
