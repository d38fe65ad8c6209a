import MbsClient.Text.Blank

/-!
# Texts without blanks at their ends
-/

namespace MbsClient.Text

theorem isBlank_of_isDigit {c : Char} (h : c.isDigit = true) : isBlank c = false := by
  simp only [Char.isDigit, Bool.and_eq_true, decide_eq_true_eq] at h
  have hlow : 48 ≤ c.toNat := h.1
  have hhigh : c.toNat ≤ 57 := h.2
  simp only [isBlank, Bool.or_eq_false_iff, Bool.and_eq_false_iff, decide_eq_false_iff_not,
    beq_eq_false_iff_ne]
  omega

theorem trimStart_cons {c : Char} (h : isBlank c = false) (cs : List Char) :
    trimStart (c :: cs) = c :: cs := by
  simp [trimStart, h]

-- A text that starts and ends with no blank is what is left between blanks.
theorem trim_between {before after : List Char} (hbefore : before.all isBlank = true)
    (hafter : after.all isBlank = true) {c d : Char} (hc : isBlank c = false)
    (hd : isBlank d = false) (cs : List Char) :
    trim (before ++ (c :: cs ++ [d]) ++ after) = c :: cs ++ [d] := by
  have hstart : trimStart (before ++ (c :: cs ++ [d]) ++ after) = c :: cs ++ [d] ++ after := by
    rw [trimStart, List.append_assoc, List.dropWhile_append_of_pos (List.all_eq_true.1 hbefore)]
    exact trimStart_cons hc _
  have hend : ∀ e ∈ after.reverse, isBlank e = true := fun e he =>
    List.all_eq_true.1 hafter e (List.mem_reverse.1 he)
  rw [trim, hstart, trimEnd, List.reverse_append, List.dropWhile_append_of_pos hend]
  simp [List.reverse_append, hd]

-- What is trimmed off is blank.
theorem exists_trim (cs : List Char) : ∃ before after : List Char,
    before.all isBlank = true ∧ after.all isBlank = true ∧ cs = before ++ trim cs ++ after := by
  have hend : trimStart cs =
      trim cs ++ ((trimStart cs).reverse.takeWhile isBlank).reverse := by
    rw [trim, trimEnd, ← List.reverse_append, List.takeWhile_append_dropWhile,
      List.reverse_reverse]
  refine ⟨cs.takeWhile isBlank, ((trimStart cs).reverse.takeWhile isBlank).reverse, ?_, ?_, ?_⟩
  · exact List.all_takeWhile
  · rw [List.all_reverse]
    exact List.all_takeWhile
  · rw [List.append_assoc, ← hend]
    exact List.takeWhile_append_dropWhile.symm

end MbsClient.Text
