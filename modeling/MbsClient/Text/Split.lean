/-!
# Cutting text at characters
-/

namespace MbsClient.Text

/-- The text before the first `sep` and the text after it. -/
def splitOnce (sep : Char) : List Char → Option (List Char × List Char)
  | [] => none
  | c :: rest =>
      if c = sep then some ([], rest)
      else (splitOnce sep rest).map fun (before, behind) => (c :: before, behind)

/-- What is left of `text` behind `start`, if it starts so. -/
def afterStart? : (start text : List Char) → Option (List Char)
  | [], text => some text
  | _ :: _, [] => none
  | s :: start, c :: text => if s = c then afterStart? start text else none

/-- The lines of a text, without what ends them: a line feed, with or without a carriage return in
front of it. The last line need not be ended. -/
def lines : List Char → List (List Char)
  | [] => []
  | '\n' :: rest => [] :: lines rest
  | '\r' :: '\n' :: rest => [] :: lines rest
  | c :: rest =>
      match lines rest with
      | line :: more => (c :: line) :: more
      | [] => [[c]]

theorem splitOnce_eq_some {sep : Char} {cs before behind : List Char}
    (h : splitOnce sep cs = some (before, behind)) :
    cs = before ++ sep :: behind ∧ sep ∉ before := by
  induction cs generalizing before with
  | nil => simp [splitOnce] at h
  | cons c rest ih =>
    by_cases hc : c = sep
    · simp only [splitOnce, hc, if_true, Option.some.injEq, Prod.mk.injEq] at h
      obtain ⟨rfl, rfl⟩ := h
      simp [hc]
    · simp only [splitOnce, hc, if_false, Option.map_eq_some_iff] at h
      obtain ⟨⟨b, b'⟩, hb, heq⟩ := h
      simp only [Prod.mk.injEq] at heq
      obtain ⟨rfl, rfl⟩ := heq
      obtain ⟨rfl, hmem⟩ := ih hb
      simp [hmem, Ne.symm hc]

theorem splitOnce_append {sep : Char} {before : List Char} (h : sep ∉ before)
    (behind : List Char) : splitOnce sep (before ++ sep :: behind) = some (before, behind) := by
  induction before with
  | nil => simp [splitOnce]
  | cons c rest ih =>
    simp only [List.mem_cons, not_or] at h
    simp [splitOnce, Ne.symm h.1, ih h.2]

theorem splitOnce_eq_none {sep : Char} {cs : List Char} (h : sep ∉ cs) :
    splitOnce sep cs = none := by
  induction cs with
  | nil => rfl
  | cons c rest ih =>
    simp only [List.mem_cons, not_or] at h
    simp [splitOnce, Ne.symm h.1, ih h.2]

theorem afterStart?_eq_some_iff {start text rest : List Char} :
    afterStart? start text = some rest ↔ text = start ++ rest := by
  induction start generalizing text with
  | nil => simp [afterStart?]
  | cons s start ih =>
    cases text with
    | nil => simp [afterStart?]
    | cons c text =>
      by_cases h : s = c
      · simp [afterStart?, h, ih]
      · simp [afterStart?, h, Ne.symm h]

end MbsClient.Text
