import Mathlib.Data.List.TakeWhile
import MbsClient.Net.Address
import MbsClient.Proofs.Text.Decimal
import MbsClient.Proofs.Text.Hex

/-!
# Address round trip — the text of an address reads back as the address

For IPv6 this takes three forms: an IPv4-mapped address, eight groups, and groups around a gap that
stands for a run of zero groups.
-/

namespace MbsClient.Net

open Text

/-! ## 1. IPv4 -/

namespace Ipv4

theorem octet?_digits (n : UInt8) : octet? (Decimal.digits n.toNat) = some n := by
  have hn : n.toNat < 256 := n.toNat_lt
  have hlength : (Decimal.digits n.toNat).length ≤ 3 :=
    (Decimal.length_digits_le (by decide)).2 (by omega)
  unfold octet?
  rw [if_neg (by omega), Decimal.plain?_digits]
  simp [hn]

theorem ofChars?_chars (ip : Ipv4) : ofChars? ip.chars = some ip := by
  have hpoint : ∀ n, '.' ∉ Decimal.digits n := Decimal.not_mem_digits rfl
  have hsplit : ip.chars.splitOn '.' = [Decimal.digits ip.a.toNat, Decimal.digits ip.b.toNat,
      Decimal.digits ip.c.toNat, Decimal.digits ip.d.toNat] := by
    simp only [chars, List.append_assoc, List.cons_append]
    rw [List.splitOn_append_cons_self_of_not_mem (hpoint _),
      List.splitOn_append_cons_self_of_not_mem (hpoint _),
      List.splitOn_append_cons_self_of_not_mem (hpoint _), List.splitOn_eq_singleton (hpoint _)]
  simp [ofChars?, hsplit, octet?_digits]

theorem parse?_text (ip : Ipv4) : parse? ip.text = some ip := by
  rw [parse?, text, String.toList_ofList, ofChars?_chars]

theorem colon_not_mem_chars (ip : Ipv4) : ':' ∉ ip.chars := by
  have hdigits : ∀ n, ':' ∉ Decimal.digits n := Decimal.not_mem_digits rfl
  simp [chars, hdigits]

theorem length_chars (ip : Ipv4) : 7 ≤ ip.chars.length := by
  have ha := Decimal.length_digits_pos ip.a.toNat
  have hb := Decimal.length_digits_pos ip.b.toNat
  have hc := Decimal.length_digits_pos ip.c.toNat
  have hd := Decimal.length_digits_pos ip.d.toNat
  simp only [chars, List.length_append, List.length_cons]
  omega

-- The two octets of a group.
theorem group_octets (g : UInt16) : (g / 256).toUInt8.toUInt16 * 256 + g.toUInt8.toUInt16 = g := by
  have hg : g.toNat < 65536 := g.toNat_lt
  rw [← UInt16.toNat_inj]
  simp only [UInt16.toNat_add, UInt16.toNat_mul, UInt8.toNat_toUInt16, UInt16.toNat_toUInt8,
    UInt16.toNat_div, UInt16.toNat_ofNat, Nat.reducePow, Nat.reduceMod]
  omega

theorem groups_ofGroups (high low : UInt16) : (ofGroups high low).groups = [high, low] := by
  simp only [groups, ofGroups, group_octets]

end Ipv4

/-! ## 2. IPv6 -/

namespace Ipv6

theorem group?_lower (g : UInt16) : group? (Hex.lower g.toNat) = some g := by
  have hg : g.toNat < 16 ^ 4 := g.toNat_lt
  have hlength : (Hex.lower g.toNat).length ≤ 4 := by
    rw [Hex.length_lower]
    exact Hex.width_le (by decide) hg
  have hne : (Hex.lower g.toNat).isEmpty = false := by
    simpa using Hex.lower_ne_nil g.toNat
  unfold group?
  rw [hne, Hex.value?_lower]
  simp [Nat.not_lt.2 hlength]

theorem colon_not_mem_lower (n : Nat) : ':' ∉ Hex.lower n := Hex.not_mem_lower (by decide) n

/-! ### Groups between colons -/

theorem groupList?_joinGroups (dotted : Bool) (g : UInt16) (gs : List UInt16) :
    groupList? dotted ((joinGroups (g :: gs)).splitOn ':') = some (g :: gs) := by
  induction gs generalizing g with
  | nil =>
    rw [joinGroups, List.splitOn_eq_singleton (colon_not_mem_lower _), groupList?, group?_lower]
  | cons g' gs ih =>
    rw [joinGroups, List.splitOn_append_cons_self_of_not_mem (colon_not_mem_lower _)]
    · obtain ⟨part, parts, hparts⟩ :=
        List.exists_cons_of_ne_nil (List.splitOn_ne_nil ':' (joinGroups (g' :: gs)))
      have hrest := ih g'
      rw [hparts] at hrest ⊢
      rw [groupList?, group?_lower]
      · simp [hrest]
      · exact List.cons_ne_nil _ _
    · exact List.cons_ne_nil _ _

theorem side?_joinGroups (dotted : Bool) (gs : List UInt16) :
    side? dotted (joinGroups gs) = some gs := by
  cases gs with
  | nil => rfl
  | cons g gs =>
    have hne : (joinGroups (g :: gs)).isEmpty = false := by
      cases gs <;> simp [joinGroups, Hex.lower_ne_nil]
    rw [side?, hne, if_neg (by decide), groupList?_joinGroups]

/-! ### The gap -/

theorem splitGap_append {part : List Char} (h : ':' ∉ part) (rest : List Char) :
    splitGap (part ++ rest) = (splitGap rest).map fun halves => (part ++ halves.1, halves.2) := by
  induction part with
  | nil => simp
  | cons c part ih =>
    simp only [List.mem_cons, not_or] at h
    rw [List.cons_append, splitGap]
    · rw [ih h.2, Option.map_map]
      rfl
    · rintro rest' rfl
      exact absurd rfl h.1

-- A colon that another character follows is no gap.
theorem splitGap_colon {part : List Char} (hne : part ≠ []) (h : ':' ∉ part) (rest : List Char) :
    splitGap (':' :: (part ++ rest)) =
      (splitGap (part ++ rest)).map fun halves => (':' :: halves.1, halves.2) := by
  obtain ⟨c, cs, rfl⟩ := List.exists_cons_of_ne_nil hne
  simp only [List.mem_cons, not_or] at h
  rw [splitGap]
  rintro rest' - heq
  exact h.1 (List.cons.inj heq).1.symm

theorem joinGroups_cons (g : UInt16) (gs : List UInt16) :
    ∃ rest, joinGroups (g :: gs) = Hex.lower g.toNat ++ rest := by
  cases gs with
  | nil => exact ⟨[], (List.append_nil _).symm⟩
  | cons g' gs => exact ⟨':' :: joinGroups (g' :: gs), rfl⟩

-- There is no gap among groups, and none where they are joined.
theorem splitGap_joinGroups (gs : List UInt16) (tail : List Char) :
    splitGap (joinGroups gs ++ tail) =
      (splitGap tail).map fun halves => (joinGroups gs ++ halves.1, halves.2) := by
  induction gs with
  | nil => simp [joinGroups]
  | cons g gs ih =>
    cases gs with
    | nil => exact splitGap_append (colon_not_mem_lower _) tail
    | cons g' gs =>
      obtain ⟨rest, hrest⟩ := joinGroups_cons g' gs
      rw [hrest, List.append_assoc] at ih
      rw [joinGroups, List.append_assoc, splitGap_append (colon_not_mem_lower _), List.cons_append,
        hrest, List.append_assoc, splitGap_colon (Hex.lower_ne_nil _) (colon_not_mem_lower _), ih]
      · simp [Option.map_map, Function.comp_def]
      · exact List.cons_ne_nil _ _

/-! ### Runs of zero groups -/

theorem take_zeroRun (gs : List UInt16) :
    gs = List.replicate (zeroRun gs) 0 ++ gs.drop (zeroRun gs) := by
  have hzeros : gs.takeWhile (· == 0) = List.replicate (zeroRun gs) 0 := by
    refine List.eq_replicate_of_mem fun g hg => ?_
    simpa using List.mem_takeWhile_imp hg
  have hrest : gs.drop (zeroRun gs) = gs.dropWhile (· == 0) := by
    have hparts := List.takeWhile_append_dropWhile (p := (· == (0 : UInt16))) (l := gs)
    exact (congrArg (List.drop (zeroRun gs)) hparts).symm.trans List.drop_left
  rw [hrest, ← hzeros, List.takeWhile_append_dropWhile]

-- The run that is found is one of zero groups.
theorem longestZeroRun_spec (gs : List UInt16) :
    (longestZeroRun gs).2 = 0 ∨
      (longestZeroRun gs).2 = zeroRun (gs.drop (longestZeroRun gs).1) := by
  unfold longestZeroRun
  generalize List.range gs.length = places
  suffices h : ∀ best : Nat × Nat, (best.2 = 0 ∨ best.2 = zeroRun (gs.drop best.1)) →
      ((places.foldl (fun best i =>
        if best.2 < zeroRun (gs.drop i) then (i, zeroRun (gs.drop i)) else best) best).2 = 0 ∨
      (places.foldl (fun best i =>
        if best.2 < zeroRun (gs.drop i) then (i, zeroRun (gs.drop i)) else best) best).2 =
        zeroRun (gs.drop (places.foldl (fun best i =>
          if best.2 < zeroRun (gs.drop i) then (i, zeroRun (gs.drop i)) else best) best).1)) from
    h (0, 0) (.inl rfl)
  induction places with
  | nil => exact fun _ h => h
  | cons i places ih =>
    intro best hbest
    rw [List.foldl_cons]
    apply ih
    split
    · exact .inr rfl
    · exact hbest

theorem eq_around_longestZeroRun (gs : List UInt16) (h : 2 ≤ (longestZeroRun gs).2) :
    gs = gs.take (longestZeroRun gs).1 ++ List.replicate (longestZeroRun gs).2 0 ++
      gs.drop ((longestZeroRun gs).1 + (longestZeroRun gs).2) := by
  rcases longestZeroRun_spec gs with hnone | hrun
  · omega
  · have hsplit := take_zeroRun (gs.drop (longestZeroRun gs).1)
    rw [← hrun, List.drop_drop] at hsplit
    rw [List.append_assoc, ← hsplit, List.take_append_drop]

/-! ### The three forms -/

theorem ofGroups?_groups (ip : Ipv6) : ofGroups? ip.groups = some ip := by
  rw [ofGroups?, dif_pos ip.length_groups]

theorem ofChars?_mapped (v4 : Ipv4) :
    ofChars? ("::ffff:".toList ++ v4.chars) =
      ofGroups? ([0, 0, 0, 0, 0, 0xffff] ++ v4.groups) := by
  have hgap : splitGap ("::ffff:".toList ++ v4.chars) = some ([], "ffff:".toList ++ v4.chars) := rfl
  have hsplit : ("ffff:".toList ++ v4.chars).splitOn ':' = ["ffff".toList, v4.chars] := by
    rw [show "ffff:".toList ++ v4.chars = "ffff".toList ++ ':' :: v4.chars from rfl,
      List.splitOn_append_cons_self_of_not_mem (by decide),
      List.splitOn_eq_singleton v4.colon_not_mem_chars]
  have hlength := v4.length_chars
  -- a dotted end is too long for a group
  have hgroup : group? v4.chars = none := by
    unfold group?
    rw [if_pos]
    simp only [Bool.or_eq_true, decide_eq_true_eq]
    omega
  have hside : side? true ("ffff:".toList ++ v4.chars) = some (0xffff :: v4.groups) := by
    have hfirst : group? "ffff".toList = some 0xffff := by decide
    rw [side?, if_neg (by simp), hsplit]
    simp only [groupList?, hfirst, hgroup, Ipv4.ofChars?_chars]
    rfl
  rw [ofChars?, hgap]
  simp only [hside]
  rfl

theorem ofChars?_joinGroups {gs : List UInt16} (h : gs ≠ []) :
    ofChars? (joinGroups gs) = ofGroups? gs := by
  obtain ⟨g, rest, rfl⟩ := List.exists_cons_of_ne_nil h
  have hgap : splitGap (joinGroups (g :: rest)) = none := by
    simpa [splitGap] using splitGap_joinGroups (g :: rest) []
  rw [ofChars?, hgap]
  simp only [groupList?_joinGroups, Option.bind_eq_bind, Option.bind_some]

theorem ofChars?_gap {before behind : List UInt16} (h : before.length + behind.length < 8) :
    ofChars? (joinGroups before ++ ':' :: ':' :: joinGroups behind) =
      ofGroups? (before ++ List.replicate (8 - (before.length + behind.length)) 0 ++ behind) := by
  have hgap : splitGap (joinGroups before ++ ':' :: ':' :: joinGroups behind) =
      some (joinGroups before, joinGroups behind) := by
    rw [splitGap_joinGroups]
    simp [splitGap]
  rw [ofChars?, hgap]
  simp only [side?_joinGroups, Option.bind_eq_bind, Option.bind_some, if_pos h]

theorem ofChars?_chars (ip : Ipv6) : ofChars? ip.chars = some ip := by
  have hlength := ip.length_groups
  rw [← ofGroups?_groups]
  unfold chars
  split
  case h_1 high low heq =>
    rw [heq, ofChars?_mapped, Ipv4.groups_ofGroups]
    rfl
  case h_2 =>
    generalize hgs : ip.groups = gs at *
    dsimp only
    split
    · exact ofChars?_joinGroups (List.ne_nil_of_length_eq_add_one hlength)
    · have hsplit := eq_around_longestZeroRun gs (by omega)
      have hsum := congrArg List.length hsplit
      simp only [List.length_append, List.length_replicate] at hsum
      rw [ofChars?_gap (by omega)]
      conv_rhs => rw [hsplit]
      congr 4
      omega

theorem parse?_text (ip : Ipv6) : parse? ip.text = some ip := by
  rw [parse?, text, String.toList_ofList, ofChars?_chars]

end Ipv6

end MbsClient.Net
