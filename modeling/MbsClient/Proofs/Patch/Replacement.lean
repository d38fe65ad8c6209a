import MbsClient.Proofs.Patch.Pointer

/-!
# Pointers by replacement — one text for every path

RFC 6901 states both directions of a pointer as replacements in whole texts: a segment is escaped by
replacing every `~` and then every `/`, a part of a pointer is read by replacing every `~1` and then
every `~0`. In the other order either of them would take a replacement for a character of the
segment. Taken in this order they come to what is written and read character by character, so a path
that has segments is found again in its text (`text_unambiguous`).
-/

namespace MbsClient

namespace Text

theorem length_le_of_afterStart? {start text rest : List Char}
    (h : afterStart? start text = some rest) : rest.length ≤ text.length := by
  rw [afterStart?_eq_some_iff.1 h, List.length_append]
  exact Nat.le_add_left _ _

/-- The text with `new` for every occurrence of `c` with `more` behind it, from the left. -/
def replace (c : Char) (more new : List Char) : List Char → List Char
  | [] => []
  | d :: rest =>
      if d = c then
        match h : afterStart? more rest with
        | some behind =>
            have : behind.length ≤ rest.length := length_le_of_afterStart? h
            new ++ replace c more new behind
        | none => d :: replace c more new rest
      else d :: replace c more new rest
termination_by text => text.length

variable {c d : Char} {more new : List Char}

@[simp] theorem replace_nil : replace c more new [] = [] := by rw [replace]

theorem replace_of_ne (h : d ≠ c) (rest : List Char) :
    replace c more new (d :: rest) = d :: replace c more new rest := by
  rw [replace, if_neg h]

theorem replace_of_start {rest behind : List Char} (h : afterStart? more rest = some behind) :
    replace c more new (c :: rest) = new ++ replace c more new behind := by
  rw [replace, if_pos rfl]
  split
  · rename_i behind' h'
    rw [Option.some.inj (h.symm.trans h')]
  · rename_i h'
    cases h.symm.trans h'

theorem replace_of_no_start {rest : List Char} (h : afterStart? more rest = none) :
    replace c more new (c :: rest) = c :: replace c more new rest := by
  rw [replace, if_pos rfl]
  split
  · rename_i behind' h'
    cases h.symm.trans h'
  · rfl

end Text

namespace Patch.Pointer

open Text

/-- A segment with every `~` replaced by `~0`, and then every `/` by `~1`. -/
def escaped (segment : List Char) : List Char :=
  replace '/' [] ['~', '1'] (replace '~' [] ['~', '0'] segment)

/-- A part of a pointer with every `~1` replaced by `/`, and then every `~0` by `~`. -/
def unescaped (part : List Char) : List Char :=
  replace '~' ['0'] ['~'] (replace '~' ['1'] ['/'] part)

-- No `/` comes from what replaces `~`, so the second replacement leaves the first one alone.
theorem escaped_eq (segment : List Char) : escaped segment = segment.flatMap escapeChar := by
  induction segment with
  | nil => simp [escaped]
  | cons c cs ih =>
    rw [List.flatMap_cons, ← ih]
    unfold escaped
    by_cases htilde : c = '~'
    · subst htilde
      rw [replace_of_start rfl]
      simp only [List.cons_append, List.nil_append]
      rw [replace_of_ne (by decide), replace_of_ne (by decide)]
      rfl
    rw [replace_of_ne htilde]
    by_cases hslash : c = '/'
    · subst hslash
      rw [replace_of_start rfl]
      rfl
    · have hself : escapeChar c = [c] := by simp [escapeChar, htilde, hslash]
      rw [replace_of_ne hslash, hself, List.singleton_append]

-- What reads a part at once agrees with the replacements, wherever it accepts the part.
theorem unescaped_of_unescape? {part segment : List Char} (h : unescape? part = some segment) :
    unescaped part = segment := by
  fun_induction unescape? part generalizing segment with
  | case1 =>
    obtain rfl := Option.some.inj h
    simp [unescaped]
  | case2 rest ih =>
    obtain ⟨read, hread, rfl⟩ := Option.map_eq_some_iff.1 h
    rw [← ih hread]
    unfold unescaped
    rw [replace_of_start rfl, List.singleton_append, replace_of_ne (by decide)]
  | case3 rest ih =>
    obtain ⟨read, hread, rfl⟩ := Option.map_eq_some_iff.1 h
    have hkept : replace '~' ['1'] ['/'] ('~' :: '0' :: rest) =
        '~' :: '0' :: replace '~' ['1'] ['/'] rest := by
      rw [replace_of_no_start rfl, replace_of_ne (by decide)]
    rw [← ih hread]
    unfold unescaped
    rw [hkept, replace_of_start rfl, List.singleton_append]
  | case4 => cases h
  | case5 c rest _ _ hc ih =>
    obtain ⟨read, hread, rfl⟩ := Option.map_eq_some_iff.1 h
    rw [← ih hread]
    unfold unescaped
    rw [replace_of_ne hc, replace_of_ne hc]

theorem unescaped_escaped (segment : List Char) : unescaped (escaped segment) = segment :=
  unescaped_of_unescape? (escaped_eq segment ▸ unescape?_escape segment)

theorem toList_text_escaped {path : List String} (h : path ≠ []) :
    (text path).toList =
      '/' :: ['/'].intercalate (path.map fun segment => escaped segment.toList) := by
  simp only [toList_text h, escaped_eq]

/-- What a pointer has between its slashes, behind the first one, with each part read. -/
def segments (pointer : String) : List String :=
  ((pointer.toList.drop 1).splitOn '/').map fun part => String.ofList (unescaped part)

-- The escaped segments hold no slash, so splitting undoes the joining.
theorem segments_text {path : List String} (h : path ≠ []) : segments (text path) = path := by
  have hparts : ∀ part ∈ path.map fun segment => escaped segment.toList, '/' ∉ part := by
    intro part hpart
    obtain ⟨segment, -, rfl⟩ := List.mem_map.1 hpart
    rw [escaped_eq]
    exact slash_not_mem_escape segment.toList
  have hread : (fun part => String.ofList (unescaped part)) ∘
      (fun segment : String => escaped segment.toList) = id := by
    funext segment
    simp only [Function.comp_apply, unescaped_escaped, String.ofList_toList, id]
  unfold segments
  rw [toList_text_escaped h, List.drop_one, List.tail_cons,
    List.splitOn_intercalate '/' hparts (by simpa using h), List.map_map, hread, List.map_id]

/-- **The text of a path names that path and no other.** It is a slash and the escaped segments with
slashes between them, from which splitting at the slashes and reading each part gives the path back.
So no other path with segments has the text, and it is the text of the whole resource exactly if the
path is the single empty segment. -/
theorem text_unambiguous (path : List String) (h : path ≠ []) :
    (text path).toList =
        '/' :: ['/'].intercalate (path.map fun segment => escaped segment.toList) ∧
      segments (text path) = path ∧
      (∀ other, other ≠ [] → (text other = text path ↔ other = path)) ∧
      (text path = "/" ↔ path = [""]) := by
  have hsame : ∀ other, other ≠ [] → (text other = text path ↔ other = path) := by
    intro other hother
    refine ⟨fun heq => ?_, congrArg text⟩
    rw [← segments_text h, ← segments_text hother, heq]
  exact ⟨toList_text_escaped h, segments_text h, hsame,
    eq_comm.trans ((hsame [""] (by simp)).trans eq_comm)⟩

/-- Segments that hold what escapes are made of, and an empty one. -/
def escapes : List String := ["~1", "", "a/b~0", "~0~1", "/"]

/-- They are read back, also where reading in the other order would find a slash. -/
theorem text_unambiguous_escapes :
    escapes ≠ [] ∧ text escapes = "/~01//a~1b~00/~00~01/~1" ∧
      segments "/~01//a~1b~00/~00~01/~1" = escapes ∧
      text ["/", "", "a/b~", "~/", "/"] ≠ text escapes ∧ text escapes ≠ "/" := by
  have hne : escapes ≠ [] := by decide
  have htext : text escapes = "/~01//a~1b~00/~00~01/~1" := by decide
  obtain ⟨-, hread, hother, hroot⟩ := text_unambiguous escapes hne
  exact ⟨hne, htext, htext ▸ hread,
    fun heq => absurd ((hother _ (by decide)).1 heq) (by decide),
    fun heq => absurd (hroot.1 heq) (by decide)⟩

end Patch.Pointer

end MbsClient
