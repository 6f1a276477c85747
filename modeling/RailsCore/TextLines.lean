import RailsCore.BothEnds

/-!
# Lines of text

Python's `strip`, `rstrip`, `splitlines` and the joining of lines. A text that
is joined from lines and ends with a line break is split into the same lines,
and a text without its trailing white space is joined from the lines up to the
last that is not blank.
-/

namespace TextLines
open RailsCore (dropBoth dropBoth_ends dropBoth_of_ends dropBoth_eq_nil)

abbrev Text := List Char

/-- `str.isspace`, of one character. -/
def isSpace (c : Char) : Bool :=
  let n := c.toNat
  9 ≤ n && n ≤ 13 || 28 ≤ n && n ≤ 32 || n = 133 || n = 160 || n = 5760 ||
    8192 ≤ n && n ≤ 8202 || n = 8232 || n = 8233 || n = 8239 || n = 8287 || n = 12288

/-- Where `str.splitlines` splits. -/
def isLineBoundary (c : Char) : Bool :=
  let n := c.toNat
  10 ≤ n && n ≤ 13 || 28 ≤ n && n ≤ 30 || n = 133 || n = 8232 || n = 8233

/-- `str.strip` of white space. -/
def stripSpace (s : Text) : Text := dropBoth isSpace s

/-- `str.strip` of one character. -/
def stripChar (c : Char) (s : Text) : Text := dropBoth (fun d => d = c) s

def rstrip (s : Text) : Text := s.rdropWhile isSpace

/-- A character at the front of the first line. -/
def consLine (c : Char) : List Text → List Text
  | [] => [[c]]
  | line :: lines => (c :: line) :: lines

/-- `str.splitlines`: a carriage return and a line feed are one boundary. -/
def splitlines : Text → List Text
  | [] => []
  | c :: s =>
    if c = '\r' ∧ s.head? = some '\n' then splitlines s
    else if isLineBoundary c then [] :: splitlines s
    else consLine c (splitlines s)

/-- `"\n".join`. -/
def join : List Text → Text
  | [] => []
  | [line] => line
  | line :: next :: lines => line ++ '\n' :: join (next :: lines)

/-- How a text file is read: every line break becomes a line feed. -/
def universalNewlines : Text → Text
  | [] => []
  | c :: s =>
    if c = '\r' then
      if s.head? = some '\n' then universalNewlines s else '\n' :: universalNewlines s
    else c :: universalNewlines s

theorem universalNewlines_of_plain {s : Text} (plain : '\r' ∉ s) : universalNewlines s = s := by
  induction s with
  | nil => rfl
  | cons c s ih =>
    have other : c ≠ '\r' := fun same => plain (same ▸ List.mem_cons_self)
    rw [universalNewlines, if_neg other, ih fun inside => plain (List.mem_cons_of_mem c inside)]

/-- Text that is within one line. -/
def OneLine (s : Text) : Prop := ∀ c ∈ s, isLineBoundary c = false

theorem splitlines_oneLine {s line : Text} (listed : line ∈ splitlines s) : OneLine line := by
  induction s generalizing line with
  | nil => exact absurd listed List.not_mem_nil
  | cons c s ih =>
    rw [splitlines] at listed
    split at listed
    · exact ih listed
    · split at listed
      · rcases List.mem_cons.mp listed with rfl | later
        · exact fun c inside => absurd inside List.not_mem_nil
        · exact ih later
      · rename_i inside
        have here : isLineBoundary c = false := Bool.eq_false_iff.mpr inside
        cases rest : splitlines s with
        | nil =>
          rw [rest, consLine, List.mem_singleton] at listed
          rw [listed]
          intro d first
          rw [List.mem_singleton.mp first]
          exact here
        | cons first lines =>
          rw [rest, consLine] at listed
          rw [rest] at ih
          rcases List.mem_cons.mp listed with rfl | later
          · intro d inside
            rcases List.mem_cons.mp inside with rfl | inside
            · exact here
            · exact ih List.mem_cons_self d inside
          · exact ih (List.mem_cons_of_mem first later)

/-- A line and its end are split off. -/
theorem splitlines_line {line : Text} (one : OneLine line) (rest : Text) :
    splitlines (line ++ '\n' :: rest) = line :: splitlines rest := by
  induction line with
  | nil =>
    rw [List.nil_append, splitlines, if_neg (fun both => absurd both.1 (by decide)),
      if_pos (by decide)]
  | cons c line ih =>
    have here := one c List.mem_cons_self
    have other : c ≠ '\r' := by
      rintro rfl
      exact absurd here (by decide)
    rw [List.cons_append, splitlines, if_neg (fun both => other both.1), here,
      if_neg Bool.false_ne_true, ih fun d inside => one d (List.mem_cons_of_mem c inside)]
    rfl

/-- Lines that are joined are split again. -/
theorem splitlines_join {lines : List Text} (some_ : lines ≠ [])
    (one : ∀ line ∈ lines, OneLine line) : splitlines (join lines ++ ['\n']) = lines := by
  induction lines with
  | nil => exact absurd rfl some_
  | cons line lines ih =>
    have here := one line List.mem_cons_self
    cases lines with
    | nil => exact splitlines_line here []
    | cons next lines =>
      rw [join, List.append_assoc, List.cons_append, splitlines_line here,
        ih (List.cons_ne_nil next lines) fun l listed => one l (List.mem_cons_of_mem line listed)]

theorem mem_join {c : Char} {lines : List Text} (inside : c ∈ join lines) :
    c = '\n' ∨ ∃ line ∈ lines, c ∈ line := by
  induction lines with
  | nil => exact absurd inside List.not_mem_nil
  | cons line lines ih =>
    cases lines with
    | nil => exact .inr ⟨line, List.mem_cons_self, inside⟩
    | cons next lines =>
      rw [join, List.mem_append, List.mem_cons] at inside
      rcases inside with here | rfl | later
      · exact .inr ⟨line, List.mem_cons_self, here⟩
      · exact .inl rfl
      · rcases ih later with break_ | ⟨found, listed, inside⟩
        · exact .inl break_
        · exact .inr ⟨found, List.mem_cons_of_mem line listed, inside⟩

/-! ## White space at the ends -/

theorem rstrip_append (s t : Text) :
    rstrip (s ++ t) = if rstrip t = [] then rstrip s else s ++ rstrip t := by
  simp only [rstrip, List.rdropWhile, List.reverse_append, List.dropWhile_append,
    List.isEmpty_iff, List.reverse_eq_nil_iff]
  split
  · rfl
  · rw [List.reverse_append, List.reverse_reverse]

theorem rstrip_rstrip (s : Text) : rstrip (rstrip s) = rstrip s := List.rdropWhile_idempotent ..

theorem rstrip_eq_nil {s : Text} : rstrip s = [] ↔ ∀ c ∈ s, isSpace c = true :=
  List.rdropWhile_eq_nil_iff

theorem stripSpace_append {s t : Text} (blank : ∀ c ∈ t, isSpace c = true) :
    stripSpace (s ++ t) = stripSpace s := by
  change rstrip ((s ++ t).dropWhile isSpace) = rstrip (s.dropWhile isSpace)
  rw [List.dropWhile_append, List.dropWhile_eq_nil_iff.mpr blank]
  split
  · rename_i empty
    rw [List.isEmpty_iff.mp empty]
  · rw [rstrip_append, if_pos (rstrip_eq_nil.mpr blank)]

theorem stripSpace_rstrip (s : Text) : stripSpace (rstrip s) = stripSpace s := by
  have whole : s.rdropWhile isSpace ++ s.rtakeWhile isSpace = s := List.rdropWhile_append_rtakeWhile
  have blank : ∀ c ∈ s.rtakeWhile isSpace, isSpace c = true := fun c => List.mem_rtakeWhile_imp
  calc stripSpace (rstrip s) = stripSpace (rstrip s ++ s.rtakeWhile isSpace) :=
        (stripSpace_append blank).symm
    _ = stripSpace s := by rw [rstrip, whole]

theorem rstrip_of_last {s : Text} (last : ∀ c ∈ s.getLast?, isSpace c = false) : rstrip s = s := by
  rw [rstrip, List.rdropWhile_eq_self_iff]
  intro some_
  rw [last _ (List.getLast?_eq_some_getLast some_)]
  exact Bool.false_ne_true

/-- The lines up to the last that is not blank, which loses its trailing white space. -/
def trimEnd : List Text → List Text
  | [] => []
  | line :: lines =>
    if trimEnd lines = [] then (if rstrip line = [] then [] else [rstrip line])
    else line :: trimEnd lines

theorem join_ne_nil {lines : List Text} (some_ : trimEnd lines ≠ []) :
    join (trimEnd lines) ≠ [] := by
  cases lines with
  | nil => exact absurd rfl some_
  | cons line lines =>
    rw [trimEnd] at some_ ⊢
    by_cases blank : trimEnd lines = []
    · rw [if_pos blank] at some_ ⊢
      by_cases here : rstrip line = []
      · rw [if_pos here] at some_
        exact absurd rfl some_
      · rw [if_neg here]
        exact here
    · rw [if_neg blank]
      obtain ⟨next, later, rest⟩ := List.exists_cons_of_ne_nil blank
      rw [rest, join]
      simp

theorem join_trimEnd (lines : List Text) : join (trimEnd lines) = rstrip (join lines) := by
  induction lines with
  | nil => rfl
  | cons line lines ih =>
    cases lines with
    | nil =>
      have none_ : trimEnd [] = [] := rfl
      rw [trimEnd, if_pos none_, join]
      by_cases blank : rstrip line = []
      · rw [if_pos blank, blank, join]
      · rw [if_neg blank, join]
    | cons next lines =>
      have break_ : rstrip ('\n' :: join (next :: lines)) =
          if rstrip (join (next :: lines)) = [] then []
          else '\n' :: rstrip (join (next :: lines)) := rstrip_append ['\n'] _
      rw [join, rstrip_append, break_, ← ih]
      by_cases blank : trimEnd (next :: lines) = []
      · rw [trimEnd, if_pos blank, blank, join, if_pos rfl, if_pos rfl]
        by_cases here : rstrip line = []
        · rw [if_pos here, here, join]
        · rw [if_neg here, join]
      · have full := join_ne_nil blank
        rw [trimEnd, if_neg blank, if_neg full, if_neg (List.cons_ne_nil _ _)]
        obtain ⟨first, later, rest⟩ := List.exists_cons_of_ne_nil blank
        rw [rest, join]

/-- Each line that is left is a line of before, or the end of one is missing. -/
theorem mem_trimEnd {lines : List Text} {line : Text} (listed : line ∈ trimEnd lines) :
    ∃ whole ∈ lines, line = whole ∨ line = rstrip whole := by
  induction lines with
  | nil => exact absurd listed List.not_mem_nil
  | cons first lines ih =>
    rw [trimEnd] at listed
    split at listed
    · split at listed
      · exact absurd listed List.not_mem_nil
      · exact ⟨first, List.mem_cons_self, .inr (List.mem_singleton.mp listed)⟩
    · rcases List.mem_cons.mp listed with rfl | later
      · exact ⟨line, List.mem_cons_self, .inl rfl⟩
      · obtain ⟨whole, found, same⟩ := ih later
        exact ⟨whole, List.mem_cons_of_mem first found, same⟩

/-- A line that ends visibly is left. -/
theorem trimEnd_keeps {lines : List Text} {line : Text} (listed : line ∈ lines)
    (some_ : line ≠ []) (whole : rstrip line = line) : line ∈ trimEnd lines := by
  induction lines with
  | nil => exact absurd listed List.not_mem_nil
  | cons first lines ih =>
    rw [trimEnd]
    rcases List.mem_cons.mp listed with rfl | later
    · by_cases blank : trimEnd lines = []
      · rw [if_pos blank, whole, if_neg some_]
        exact List.mem_singleton_self line
      · rw [if_neg blank]
        exact List.mem_cons_self
    · have kept := ih later
      rw [if_neg (List.ne_nil_of_mem kept)]
      exact List.mem_cons_of_mem first kept

end TextLines
