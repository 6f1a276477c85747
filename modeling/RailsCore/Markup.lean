import Mathlib

/-!
# Text in markup

A template has holes for text. The text is escaped before it is put in: every
character that could mean something is replaced by a reference. A reader cuts a
document at its delimiters and resolves references. What is read of a filled
template is the template, cut at its own delimiters, with the texts in its
holes as they were before they were escaped.
-/

namespace Markup

abbrev Text := List Char

/-! ## References -/

/-- `&name;`. -/
def reference (name : Text) : Text := '&' :: name ++ [';']

/-- All occurrences of a character, replaced by a text. -/
def replace (c : Char) (new : Text) (s : Text) : Text :=
  s.flatMap fun d => if d = c then new else [d]

/-- Characters with the names of their references. No replacement brings in a character that a
later one replaces, and no name goes beyond its reference. -/
structure Escapes where
  table : List (Char × Text)
  ampersand : '&' ∈ table.map Prod.fst
  ordered : table.Pairwise fun p q => q.1 ≠ p.1 ∧ q.1 ∉ reference p.2
  closed : ∀ p ∈ table, ';' ∉ p.2
  names : (table.map Prod.snd).Nodup

namespace Escapes
variable (escapes : Escapes)

/-- One replacement after the other. -/
def escape (s : Text) : Text := escapes.table.foldl (fun s p => replace p.1 (reference p.2) s) s

/-- What becomes of one character. -/
def encode (table : List (Char × Text)) (c : Char) : Text :=
  match table.find? fun p => p.1 = c with
  | some p => reference p.2
  | none => [c]

/-- The character that a name refers to. -/
def named (name : Text) : Option Char :=
  (escapes.table.find? fun p => p.2 = name).map Prod.fst

/-- The references of a text, resolved: outside of a reference, or behind its ampersand with the
name so far. A reference that is not known or not closed stays as it is. -/
def decode : Option Text → Text → Text
  | none, [] => []
  | some name, [] => '&' :: name
  | none, c :: s => if c = '&' then decode (some []) s else c :: decode none s
  | some name, c :: s =>
    if c = ';' then
      (match escapes.named name with
        | some d => [d]
        | none => reference name) ++ decode none s
    else decode (some (name ++ [c])) s

theorem replace_encode (table : List (Char × Text)) (p : Char × Text) (s : Text)
    (apart : ∀ q ∈ table, q.1 ≠ p.1 ∧ q.1 ∉ reference p.2) :
    (replace p.1 (reference p.2) s).flatMap (encode table) = s.flatMap (encode (p :: table)) := by
  have plain : ∀ c ∈ reference p.2, encode table c = [c] := by
    intro c inside
    rw [encode, List.find?_eq_none.mpr]
    intro q listed
    rw [decide_eq_true_eq]
    rintro rfl
    exact (apart q listed).2 inside
  rw [replace, List.flatMap_assoc]
  refine List.flatMap_congr fun d _ => ?_
  by_cases same : d = p.1
  · rw [if_pos same, encode, List.find?_cons_of_pos (by simp [same])]
    exact (List.flatMap_congr plain).trans (List.flatMap_singleton' _)
  · rw [if_neg same, List.flatMap_singleton, encode, encode,
      List.find?_cons_of_neg (by simp [Ne.symm same])]

/-- The replacements amount to a single pass over the text. -/
theorem escape_eq (s : Text) : escapes.escape s = s.flatMap (encode escapes.table) := by
  have ordered := escapes.ordered
  rw [escape]
  generalize escapes.table = table at ordered
  induction table generalizing s with
  | nil => exact (List.flatMap_singleton' s).symm
  | cons p table ih =>
    obtain ⟨first, rest⟩ := List.pairwise_cons.mp ordered
    rw [List.foldl_cons, ih _ rest, replace_encode table p s first]

theorem decode_plain {s : Text} (plain : '&' ∉ s) (t : Text) :
    escapes.decode none (s ++ t) = s ++ escapes.decode none t := by
  induction s with
  | nil => rfl
  | cons c s ih =>
    have other : c ≠ '&' := fun same => plain (same ▸ List.mem_cons_self)
    rw [List.cons_append, decode, if_neg other, List.cons_append,
      ih fun inside => plain (List.mem_cons_of_mem c inside)]

theorem decode_name {name : Text} (closed : ';' ∉ name) (before t : Text) :
    escapes.decode (some before) (name ++ ';' :: t) =
      (match escapes.named (before ++ name) with
        | some d => [d]
        | none => reference (before ++ name)) ++ escapes.decode none t := by
  induction name generalizing before with
  | nil => rw [List.nil_append, decode, if_pos rfl, List.append_nil]
  | cons c name ih =>
    have other : c ≠ ';' := fun same => closed (same ▸ List.mem_cons_self)
    rw [List.cons_append, decode, if_neg other,
      ih fun inside => closed (List.mem_cons_of_mem c inside), List.append_assoc,
      List.singleton_append]

theorem named_of_mem {p : Char × Text} (listed : p ∈ escapes.table) :
    escapes.named p.2 = some p.1 := by
  have unique := escapes.names
  rw [named]
  generalize escapes.table = table at listed unique
  induction table with
  | nil => cases listed
  | cons q table ih =>
    obtain ⟨fresh, rest⟩ := List.nodup_cons.mp unique
    rcases List.mem_cons.mp listed with rfl | later
    · rw [List.find?_cons_of_pos (by simp)]
      rfl
    · have other : q.2 ≠ p.2 := by
        intro same
        exact fresh (same ▸ List.mem_map_of_mem later)
      rw [List.find?_cons_of_neg (by simpa using other)]
      exact ih later rest

theorem decode_encode (c : Char) (t : Text) :
    escapes.decode none (encode escapes.table c ++ t) = c :: escapes.decode none t := by
  rw [encode]
  cases found : escapes.table.find? fun p => p.1 = c with
  | some p =>
    have listed := List.mem_of_find?_eq_some found
    have same : p.1 = c := by simpa using List.find?_some found
    have shape : reference p.2 ++ t = '&' :: (p.2 ++ ';' :: t) := by simp [reference]
    simp only [shape]
    rw [decode, if_pos rfl, decode_name escapes (escapes.closed p listed), List.nil_append,
      named_of_mem escapes listed, same]
    rfl
  | none =>
    have other : c ≠ '&' := by
      rintro rfl
      obtain ⟨p, listed, same⟩ := List.mem_map.mp escapes.ampersand
      have absent := List.find?_eq_none.mp found p listed
      rw [decide_eq_true_eq] at absent
      exact absent same
    exact decode_plain escapes (by simpa using Ne.symm other) t

/-- Escaped text is read as it was, whatever follows it. -/
theorem decode_escape (s t : Text) :
    escapes.decode none (escapes.escape s ++ t) = s ++ escapes.decode none t := by
  rw [escape_eq]
  induction s with
  | nil => rfl
  | cons c s ih =>
    rw [List.flatMap_cons, List.append_assoc, decode_encode, ih, List.cons_append]

/-- A character that is replaced and is in no reference is not in escaped text. -/
theorem not_mem_escape {c : Char} (replaced : c ∈ escapes.table.map Prod.fst)
    (unused : ∀ p ∈ escapes.table, c ∉ reference p.2) (s : Text) : c ∉ escapes.escape s := by
  rw [escape_eq]
  intro inside
  obtain ⟨d, -, here⟩ := List.mem_flatMap.mp inside
  rw [encode] at here
  cases found : escapes.table.find? fun p => p.1 = d with
  | some p =>
    rw [found] at here
    exact unused p (List.mem_of_find?_eq_some found) here
  | none =>
    rw [found] at here
    obtain rfl := List.mem_singleton.mp here
    obtain ⟨p, listed, same⟩ := List.mem_map.mp replaced
    have absent := List.find?_eq_none.mp found p listed
    rw [decide_eq_true_eq] at absent
    exact absent same

end Escapes

/-! ## Documents -/

/-- Where a reader is: in text, in a tag, or in the quoted value of an attribute. -/
inductive Mode where
  | text
  | tag
  | quoted
deriving DecidableEq, Repr

/-- The mode behind a character. -/
def Mode.next : Mode → Char → Mode
  | .text, '<' => .tag
  | .tag, '>' => .text
  | .tag, '"' => .quoted
  | .quoted, '"' => .tag
  | m, _ => m

def delimiters : Text := ['<', '>', '"']

theorem Mode.next_other {c : Char} (other : c ∉ delimiters) (m : Mode) : m.next c = m := by
  simp only [delimiters, List.mem_cons, List.not_mem_nil, or_false, not_or] at other
  cases m <;> simp [Mode.next, other]

/-- A document, cut where the mode changes. -/
def segments (m : Mode) (acc : Text) : Text → List (Mode × Text)
  | [] => [(m, acc)]
  | c :: s =>
    if m.next c = m then segments m (acc ++ [c]) s else (m, acc) :: segments (m.next c) [] s

/-- A piece of a template. -/
inductive Piece (Hole : Type) where
  | char (c : Char)
  | hole (i : Hole)
deriving DecidableEq, Repr

section Templates
variable {Hole : Type}

/-- A template, cut at its own delimiters. -/
def cut (m : Mode) (acc : List (Piece Hole)) : List (Piece Hole) → List (Mode × List (Piece Hole))
  | [] => [(m, acc)]
  | .char c :: s =>
    if m.next c = m then cut m (acc ++ [.char c]) s else (m, acc) :: cut (m.next c) [] s
  | .hole i :: s => cut m (acc ++ [.hole i]) s

/-- A template with these texts in its holes. -/
def fill (values : Hole → Text) (template : List (Piece Hole)) : Text :=
  template.flatMap fun
    | .char c => [c]
    | .hole i => values i

theorem fill_append (values : Hole → Text) (s t : List (Piece Hole)) :
    fill values (s ++ t) = fill values s ++ fill values t := List.flatMap_append

theorem segments_plain {s : Text} (plain : ∀ c ∈ s, c ∉ delimiters) (m : Mode) (acc t : Text) :
    segments m acc (s ++ t) = segments m (acc ++ s) t := by
  induction s generalizing acc with
  | nil => rw [List.nil_append, List.append_nil]
  | cons c s ih =>
    rw [List.cons_append, segments, if_pos (Mode.next_other (plain c List.mem_cons_self) m),
      ih fun d inside => plain d (List.mem_cons_of_mem c inside), List.append_assoc,
      List.singleton_append]

/-- Filling in texts without delimiters does not move a cut. -/
theorem segments_fill {values : Hole → Text} (plain : ∀ i, ∀ c ∈ values i, c ∉ delimiters)
    (template : List (Piece Hole)) (m : Mode) (acc : List (Piece Hole)) :
    segments m (fill values acc) (fill values template) =
      (cut m acc template).map fun part => (part.1, fill values part.2) := by
  induction template generalizing m acc with
  | nil => rfl
  | cons p template ih =>
    cases p with
    | char c =>
      have here : fill values (.char c :: template) = c :: fill values template := rfl
      rw [here, segments, cut]
      by_cases stays : m.next c = m
      · have one := fill_append values acc [.char c]
        rw [if_pos stays, if_pos stays, ← ih]
        exact congrArg (fun acc => segments m acc (fill values template)) one.symm
      · rw [if_neg stays, if_neg stays, List.map_cons, ← ih]
        rfl
    | hole i =>
      have here : fill values (.hole i :: template) = values i ++ fill values template := rfl
      have one : fill values (acc ++ [.hole i]) = fill values acc ++ values i := by
        rw [fill_append]
        exact congrArg (fill values acc ++ ·) (List.append_nil (values i))
      rw [here, segments_plain (plain i), ← one, ih, cut]

/-- No piece is an ampersand. -/
def Bare (template : List (Piece Hole)) : Prop := ∀ p ∈ template, p ≠ .char '&'

theorem decode_fill (escapes : Escapes) (values : Hole → Text) {template : List (Piece Hole)}
    (bare : Bare template) :
    escapes.decode none (fill (fun i => escapes.escape (values i)) template) =
      fill values template := by
  induction template with
  | nil => rfl
  | cons p template ih =>
    have rest := ih fun q listed => bare q (List.mem_cons_of_mem p listed)
    cases p with
    | char c =>
      have other : c ≠ '&' := fun same => bare _ List.mem_cons_self (congrArg Piece.char same)
      refine (escapes.decode_plain (s := [c]) (by simpa using Ne.symm other) _).trans ?_
      exact congrArg (c :: ·) rest
    | hole i =>
      refine (escapes.decode_escape (values i) _).trans ?_
      exact congrArg (values i ++ ·) rest

theorem bare_cut {template acc : List (Piece Hole)} (bare : Bare template) (bareAcc : Bare acc)
    (m : Mode) : ∀ part ∈ cut m acc template, Bare part.2 := by
  induction template generalizing m acc with
  | nil =>
    intro part listed
    obtain rfl := List.mem_singleton.mp listed
    exact bareAcc
  | cons p template ih =>
    have rest : Bare template := fun q listed => bare q (List.mem_cons_of_mem p listed)
    have more : Bare (acc ++ [p]) := by
      intro q listed
      rcases List.mem_append.mp listed with old | new
      · exact bareAcc q old
      · obtain rfl := List.mem_singleton.mp new
        exact bare q List.mem_cons_self
    cases p with
    | hole i => exact ih rest more m
    | char c =>
      intro part listed
      rw [cut] at listed
      split at listed
      · exact ih rest more m part listed
      · rcases List.mem_cons.mp listed with rfl | later
        · exact bareAcc
        · exact ih rest (by simp [Bare]) _ part later

/-- What a reader makes of a document. -/
def read (escapes : Escapes) (document : Text) : List (Mode × Text) :=
  (segments .text [] document).map fun part => (part.1, escapes.decode none part.2)

/-- A filled template is read as the template, with the texts in its holes. -/
theorem read_fill (escapes : Escapes)
    (replaced : ∀ c ∈ delimiters, c ∈ escapes.table.map Prod.fst)
    (unused : ∀ c ∈ delimiters, ∀ p ∈ escapes.table, c ∉ reference p.2)
    {template : List (Piece Hole)} (bare : Bare template) (values : Hole → Text) :
    read escapes (fill (fun i => escapes.escape (values i)) template) =
      (cut .text [] template).map fun part => (part.1, fill values part.2) := by
  have plain : ∀ i, ∀ c ∈ escapes.escape (values i), c ∉ delimiters := by
    intro i c inside delimits
    exact escapes.not_mem_escape (replaced c delimits) (unused c delimits) (values i) inside
  have segmented := segments_fill plain template .text []
  rw [read, show segments .text [] _ = _ from segmented, List.map_map]
  refine List.map_congr_left fun part listed => ?_
  have here := bare_cut bare (by simp [Bare]) .text part listed
  exact congrArg (Prod.mk part.1) (decode_fill escapes values here)

end Templates

end Markup
