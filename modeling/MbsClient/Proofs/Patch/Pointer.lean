import MbsClient.Patch.Pointer

/-!
# Pointers read back

Every path is the one that its pointer text names, with one exception: the single empty segment is
written as the whole resource (`parse?_text`).
-/

namespace MbsClient.Patch.Pointer

theorem unescape?_cons {c : Char} (hc : c ≠ '~') (cs : List Char) :
    unescape? (c :: cs) = (unescape? cs).map (c :: ·) := by
  rw [unescape?, if_neg hc]
  · rintro rest rfl
    exact absurd rfl hc
  · rintro rest rfl
    exact absurd rfl hc

-- Escaping a segment and reading it gives the segment back.
theorem unescape?_escape (cs : List Char) : unescape? (cs.flatMap escapeChar) = some cs := by
  induction cs with
  | nil => rfl
  | cons c cs ih =>
    by_cases htilde : c = '~'
    · subst htilde
      simp [escapeChar, unescape?, ih]
    by_cases hslash : c = '/'
    · subst hslash
      simp [escapeChar, unescape?, ih]
    · have hself : escapeChar c = [c] := by simp [escapeChar, htilde, hslash]
      rw [List.flatMap_cons, hself, List.singleton_append, unescape?_cons htilde, ih]
      rfl

-- No slash is left in an escaped segment.
theorem slash_not_mem_escape (cs : List Char) : '/' ∉ cs.flatMap escapeChar := by
  intro h
  obtain ⟨c, -, hc⟩ := List.mem_flatMap.1 h
  unfold escapeChar at hc
  split at hc
  · simp at hc
  split at hc
  · simp at hc
  · rename_i hslash
    exact hslash (List.mem_singleton.1 hc).symm

-- The escaped segments of a path, each behind a slash, are what separates them put between.
theorem flatMap_slash (parts : List (List Char)) (h : parts ≠ []) :
    parts.flatMap ('/' :: ·) = '/' :: ['/'].intercalate parts := by
  induction parts with
  | nil => exact absurd rfl h
  | cons part rest ih =>
    cases rest with
    | nil => simp
    | cons next rest =>
      rw [List.flatMap_cons, ih (by simp), List.intercalate_cons_cons]
      simp

theorem mapM_unescape (path : List String) :
    (path.map fun segment => segment.toList.flatMap escapeChar).mapM
      (fun part => (unescape? part).map String.ofList) = some path := by
  induction path with
  | nil => rfl
  | cons segment path ih =>
    rw [List.map_cons, List.mapM_cons, ih, unescape?_escape]
    simp

theorem toList_text {path : List String} (h : path ≠ []) :
    (text path).toList =
      '/' :: ['/'].intercalate (path.map fun segment => segment.toList.flatMap escapeChar) := by
  rw [text.eq_2 path (by simpa using h), String.toList_ofList, ← flatMap_slash _ (by simpa using h),
    List.flatMap_map]

-- Splitting the text of a path at its slashes gives the segments back.
theorem segments?_text {path : List String} (h : path ≠ []) :
    segments? (text path) = some path := by
  unfold segments?
  rw [toList_text h]
  show (List.splitOn '/' _).mapM _ = _
  rw [List.splitOn_intercalate, mapM_unescape]
  · intro part hpart
    obtain ⟨segment, -, rfl⟩ := List.mem_map.1 hpart
    exact slash_not_mem_escape segment.toList
  · simpa using h

-- A path is what its pointer names, unless it is the single empty segment.
theorem parse?_text {path : List String} (h : path ≠ [""]) : parse? (text path) = some path := by
  unfold parse?
  by_cases hnil : path = []
  · subst hnil
    rfl
  · have hne : text path ≠ "/" := by
      intro heq
      have hsegments := segments?_text hnil
      rw [heq] at hsegments
      exact h (Option.some.inj hsegments).symm
    rw [if_neg hne, segments?_text hnil]

end MbsClient.Patch.Pointer
