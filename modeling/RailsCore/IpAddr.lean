import RailsCore.Digits

/-!
# Internet addresses as text

The addresses of Rust's `std::net` with the grammar that reads them and the text
that they are written as: four decimal octets, or eight hexadecimal segments in
which one run of zeroes may be written `::` and the last two segments as octets.
Reading what has been written gives the address back, so that two addresses with
the same text are the same.
-/

namespace Net
open Digits

structure Ipv4Addr where
  a : Fin 256
  b : Fin 256
  c : Fin 256
  d : Fin 256
  deriving DecidableEq, Repr

structure Ipv6Addr where
  segments : List (Fin 65536)
  eight : segments.length = 8
  deriving DecidableEq, Repr

inductive IpAddr where
  | v4 (addr : Ipv4Addr)
  | v6 (addr : Ipv6Addr)
  deriving DecidableEq, Repr

/-! ## Reading -/

/-- `read_number` with a limit on the digits, for a type of `bound` values. -/
def readNumber (radix maxDigits bound : Nat) (allowZeroPrefix : Bool) (s : List Char) :
    Option (Fin bound × List Char) :=
  let digits := (readDigits radix s).1
  if digits.length > maxDigits then none
  else if digits.length = 0 then none
  else if !allowZeroPrefix && s.head? = some '0' && digits.length > 1 then none
  else if small : digitsValue radix digits < bound then
    some (⟨digitsValue radix digits, small⟩, (readDigits radix s).2)
  else none

/-- `read_separator`: the separator stands before every part but the first. -/
def readSeparator {Part : Type} (sep : Char) (index : Nat)
    (inner : List Char → Option (Part × List Char)) (s : List Char) : Option (Part × List Char) :=
  if index > 0 then
    match s with
    | [] => none
    | c :: rest => if c = sep then inner rest else none
  else inner s

def readOctet (index : Nat) (s : List Char) : Option (Fin 256 × List Char) :=
  readSeparator '.' index (readNumber 10 3 256 false) s

/-- `read_ipv4_addr`. -/
def readIpv4Addr (s : List Char) : Option (Ipv4Addr × List Char) := do
  let (a, s) ← readOctet 0 s
  let (b, s) ← readOctet 1 s
  let (c, s) ← readOctet 2 s
  let (d, s) ← readOctet 3 s
  return (⟨a, b, c, d⟩, s)

/-- `u16::from_be_bytes`. -/
def fromBeBytes (high low : Fin 256) : Fin 65536 := ⟨high * 256 + low, by omega⟩

/-- `read_groups`, from the group number `i` on, with room for `remaining` more:
the groups, whether the last two were read as octets, and the rest of the text. -/
def readGroups : Nat → Nat → List Char → List (Fin 65536) × Bool × List Char
  | 0, _, s => ([], false, s)
  | remaining + 1, i, s =>
    -- octets fill two groups, so they are not tried for the last one
    match if remaining > 0 then readSeparator ':' i readIpv4Addr s else none with
    | some (v4, rest) => ([fromBeBytes v4.a v4.b, fromBeBytes v4.c v4.d], true, rest)
    | none => match readSeparator ':' i (readNumber 16 4 65536 true) s with
      | some (group, rest) =>
        let (groups, ipv4, rest) := readGroups remaining (i + 1) rest
        (group :: groups, ipv4, rest)
      | none => ([], false, s)

theorem length_readGroups (remaining i : Nat) (s : List Char) :
    (readGroups remaining i s).1.length ≤ remaining := by
  induction remaining generalizing i s with
  | zero => exact Nat.le_refl 0
  | succ remaining ih =>
    rw [readGroups]
    split
    · rename_i found
      by_cases room : remaining > 0
      · simp only [List.length_cons, List.length_nil]
        omega
      · simp [room] at found
    · split
      · exact Nat.succ_le_succ (ih _ _)
      · exact Nat.zero_le _

/-- The address whose zeroes between the head and the tail were left out. -/
def fillZeroes (head tail : List (Fin 65536)) (room : head.length + tail.length ≤ 8) :
    Ipv6Addr where
  segments := head ++ List.replicate (8 - head.length - tail.length) 0 ++ tail
  eight := by
    simp only [List.length_append, List.length_replicate]
    omega

/-- `read_ipv6_addr`. -/
def readIpv6Addr (s : List Char) : Option (Ipv6Addr × List Char) :=
  let head := (readGroups 8 0 s).1
  let (_, headIpv4, rest) := readGroups 8 0 s
  if full : head.length = 8 then some (⟨head, full⟩, rest)
  else if headIpv4 then none
  else match rest with
    | ':' :: ':' :: rest =>
      -- the zeroes left out are at least one
      let limit := 8 - (head.length + 1)
      let tail := (readGroups limit 0 rest).1
      have short : head.length + tail.length ≤ 8 := by
        have : head.length ≤ 8 := length_readGroups 8 0 s
        have : tail.length ≤ limit := length_readGroups limit 0 rest
        omega
      some (fillZeroes head tail short, (readGroups limit 0 rest).2.2)
    | _ => none

/-- `read_ip_addr`. -/
def readIpAddr (s : List Char) : Option (IpAddr × List Char) :=
  match readIpv4Addr s with
  | some (addr, rest) => some (.v4 addr, rest)
  | none => (readIpv6Addr s).map fun (addr, rest) => (.v6 addr, rest)

/-- `str::parse::<IpAddr>`: nothing may follow the address. -/
def parse (s : String) : Option IpAddr :=
  match readIpAddr s.toList with
  | some (addr, []) => some addr
  | _ => none

/-! ## Writing -/

def Ipv4Addr.write (addr : Ipv4Addr) : List Char :=
  Nat.toDigits 10 addr.a ++ '.' :: (Nat.toDigits 10 addr.b ++ '.' ::
    (Nat.toDigits 10 addr.c ++ '.' :: Nat.toDigits 10 addr.d))

structure Span where
  start : Nat
  len : Nat
  deriving DecidableEq, Repr

/-- The loop that looks for the longest run of zeroes, at the segment number `i`. -/
def longestZeroes : List (Fin 65536) → Nat → Span → Span → Span
  | [], _, _, longest => longest
  | segment :: rest, i, current, longest =>
    if segment = 0 then
      let current : Span := ⟨if current.len = 0 then i else current.start, current.len + 1⟩
      longestZeroes rest (i + 1) current (if current.len > longest.len then current else longest)
    else longestZeroes rest (i + 1) ⟨0, 0⟩ longest

/-- `fmt_subslice`. -/
def writeSegments : List (Fin 65536) → List Char
  | [] => []
  | [segment] => Nat.toDigits 16 segment
  | segment :: rest => Nat.toDigits 16 segment ++ ':' :: writeSegments rest

/-- `to_ipv4_mapped`. -/
def Ipv6Addr.toIpv4Mapped (addr : Ipv6Addr) : Option Ipv4Addr :=
  match addr.segments with
  | [0, 0, 0, 0, 0, 65535, high, low] =>
    some {
      a := ⟨high / 256, by omega⟩
      b := ⟨high % 256, by omega⟩
      c := ⟨low / 256, by omega⟩
      d := ⟨low % 256, by omega⟩ }
  | _ => none

def Ipv6Addr.write (addr : Ipv6Addr) : List Char :=
  match addr.toIpv4Mapped with
  | some ipv4 => "::ffff:".toList ++ ipv4.write
  | none =>
    let zeroes := longestZeroes addr.segments 0 ⟨0, 0⟩ ⟨0, 0⟩
    if zeroes.len > 1 then
      writeSegments (addr.segments.take zeroes.start) ++ ':' :: ':' ::
        writeSegments (addr.segments.drop (zeroes.start + zeroes.len))
    else writeSegments addr.segments

/-- `IpAddr::to_string`. -/
def display : IpAddr → String
  | .v4 addr => String.ofList addr.write
  | .v6 addr => String.ofList addr.write

/-! ## Reading what has been written -/

theorem digitChar_ne : ∀ d < 16, Nat.digitChar d ≠ '.' ∧ Nat.digitChar d ≠ ':' := by decide

theorem readNumber_toDigits {radix maxDigits bound : Nat} (base : 1 < radix) (most : radix ≤ 16)
    (room : 0 < maxDigits) (fits : bound ≤ radix ^ maxDigits) (allowZeroPrefix : Bool)
    (n : Fin bound) {rest : List Char} (ends : Ends radix rest) :
    readNumber radix maxDigits bound allowZeroPrefix (Nat.toDigits radix n ++ rest) =
      some (n, rest) := by
  obtain ⟨ds, text, range, value, some_, first⟩ := toDigits_spec base n.val
  have short : ds.length ≤ maxDigits := by
    have := (Nat.length_toDigits_le_iff base room).mpr (Nat.lt_of_lt_of_le n.isLt fits)
    rwa [text, List.length_map] at this
  have begins : ¬ (1 < ds.length ∧ (ds.map Nat.digitChar ++ rest).head? = some '0') := by
    rintro ⟨long, zero⟩
    cases ds with
    | nil => exact some_ rfl
    | cons d ds =>
      have digit := range d List.mem_cons_self
      have same : Nat.digitChar d = '0' := Option.some.inj zero
      refine first long ?_
      rw [digitChar_eq_zero d (by omega) same, List.head?_cons]
  have positive := List.length_pos_iff.mpr some_
  rw [readNumber, text, readDigits_digits most range ends]
  simp only
  rw [if_neg (by omega), if_neg (by omega), if_neg, dif_pos (value ▸ n.isLt)]
  · simp only [value, Fin.eta]
  · intro leading
    simp only [Bool.and_eq_true, decide_eq_true_eq] at leading
    exact begins ⟨leading.2, leading.1.2⟩

theorem toDigit_dot : toDigit 10 '.' = none := by decide

theorem toDigit_colon : toDigit 16 ':' = none ∧ toDigit 10 ':' = none := by decide

theorem readIpv4Addr_write (addr : Ipv4Addr) {rest : List Char} (ends : Ends 10 rest) :
    readIpv4Addr (addr.write ++ rest) = some (addr, rest) := by
  have octet : ∀ (n : Fin 256) {rest : List Char}, Ends 10 rest →
      readNumber 10 3 256 false (Nat.toDigits 10 n ++ rest) = some (n, rest) := fun n _ ends =>
    readNumber_toDigits (by omega) (by omega) (by omega) (by omega) false n ends
  simp [readIpv4Addr, Ipv4Addr.write, readOctet, readSeparator, octet,
    ends_cons toDigit_dot, ends]

/-- A number that has been read stood at the front of the text. -/
theorem readNumber_some {radix maxDigits bound : Nat} {allowZeroPrefix : Bool} {s rest : List Char}
    {n : Fin bound} (found : readNumber radix maxDigits bound allowZeroPrefix s = some (n, rest)) :
    (readDigits radix s).1 ≠ [] ∧ rest = (readDigits radix s).2 := by
  rw [readNumber] at found
  split at found
  · exact nomatch found
  · split at found
    · exact nomatch found
    · rename_i some_
      split at found
      · exact nomatch found
      · split at found
        · refine ⟨fun empty => some_ (by rw [empty, List.length_nil]), ?_⟩
          exact (Prod.mk.inj (Option.some.inj found)).2.symm
        · exact nomatch found

theorem readNumber_ends {radix maxDigits bound : Nat} {allowZeroPrefix : Bool} {s : List Char}
    (ends : Ends radix s) : readNumber radix maxDigits bound allowZeroPrefix s = none := by
  cases found : readNumber radix maxDigits bound allowZeroPrefix s with
  | none => rfl
  | some read =>
    have first := (readNumber_some found).1
    rw [readDigits_of_ends ends] at first
    exact absurd rfl first

theorem readIpv4Addr_ends {s : List Char} (ends : Ends 10 s) : readIpv4Addr s = none := by
  simp [readIpv4Addr, readOctet, readSeparator, readNumber_ends ends]

/-- Octets are not read where the digits at the front are not followed by a dot. -/
theorem readIpv4Addr_none {s : List Char} (apart : '.' ∉ s) : readIpv4Addr s = none := by
  cases found : readOctet 0 s with
  | none => simp [readIpv4Addr, found]
  | some read =>
    obtain ⟨a, rest⟩ := read
    have part : rest <:+ s := by
      have := readNumber_some (show readNumber 10 3 256 false s = some (a, rest) from found)
      rw [this.2]
      exact readDigits_suffix 10 s
    have next : readOctet 1 rest = none := by
      cases rest with
      | nil => rfl
      | cons c rest =>
        have other : c ≠ '.' := fun dot => apart (part.subset (dot ▸ List.mem_cons_self))
        simp [readOctet, readSeparator, other]
    simp [readIpv4Addr, found, next]

/-- The segments after the first one, each behind its colon. -/
def writeTail (segments : List (Fin 65536)) : List Char :=
  segments.flatMap fun segment : Fin 65536 => ':' :: Nat.toDigits 16 segment.val

theorem writeSegments_cons (segment : Fin 65536) (rest : List (Fin 65536)) :
    writeSegments (segment :: rest) = Nat.toDigits 16 segment ++ writeTail rest := by
  induction rest generalizing segment with
  | nil => simp [writeSegments, writeTail]
  | cons next rest ih => simp [writeSegments, ih next, writeTail]

theorem dot_not_mem_toDigits (n : Nat) : '.' ∉ Nat.toDigits 16 n := by
  obtain ⟨ds, text, range, -⟩ := toDigits_spec (by omega : 1 < 16) n
  rw [text, List.mem_map]
  rintro ⟨d, listed, dot⟩
  exact (digitChar_ne d (range d listed)).1 dot

theorem dot_not_mem_writeTail (segments : List (Fin 65536)) : '.' ∉ writeTail segments := by
  simp only [writeTail, List.mem_flatMap, List.mem_cons, not_exists, not_and]
  rintro segment - (colon | digit)
  · exact absurd colon (by decide)
  · exact dot_not_mem_toDigits _ digit

theorem dot_not_mem_writeSegments (segments : List (Fin 65536)) : '.' ∉ writeSegments segments := by
  cases segments with
  | nil => exact List.not_mem_nil
  | cons segment rest =>
    rw [writeSegments_cons, List.mem_append]
    rintro (digit | later)
    · exact dot_not_mem_toDigits _ digit
    · exact dot_not_mem_writeTail rest later

/-- Text at which the reading of groups ends. -/
def Stops (rest : List Char) : Prop := rest = [] ∨ ∃ after, rest = ':' :: ':' :: after

theorem Stops.ends {rest : List Char} (stops : Stops rest) : Ends 16 rest ∧ Ends 10 rest := by
  rcases stops with rfl | ⟨after, rfl⟩
  · exact ⟨ends_nil 16, ends_nil 10⟩
  · exact ⟨ends_cons toDigit_colon.1, ends_cons toDigit_colon.2⟩

theorem readGroups_stop {rest : List Char} (stops : Stops rest) (remaining i : Nat) :
    readGroups remaining i rest = ([], false, rest) := by
  cases remaining with
  | zero => rfl
  | succ remaining =>
    have ipv4 : readSeparator ':' i readIpv4Addr rest = none := by
      rcases stops with rfl | ⟨after, rfl⟩
      · by_cases first : i > 0 <;> simp [readSeparator, first, readIpv4Addr_ends (ends_nil 10)]
      · by_cases first : i > 0 <;>
          simp [readSeparator, first, readIpv4Addr_ends (ends_cons toDigit_colon.2)]
    have group : readSeparator ':' i (readNumber 16 4 65536 true) rest = none := by
      rcases stops with rfl | ⟨after, rfl⟩
      · by_cases first : i > 0 <;> simp [readSeparator, first, readNumber_ends (ends_nil 16)]
      · by_cases first : i > 0 <;>
          simp [readSeparator, first, readNumber_ends (ends_cons toDigit_colon.1)]
    simp [readGroups, ipv4, group]

theorem readGroups_tail (segments : List (Fin 65536)) (rest : List Char) {remaining : Nat}
    (room : segments.length ≤ remaining) (stops : Stops rest) (apart : '.' ∉ rest) (i : Nat) :
    readGroups remaining (i + 1) (writeTail segments ++ rest) = (segments, false, rest) := by
  induction segments generalizing remaining i with
  | nil => exact readGroups_stop stops remaining (i + 1)
  | cons segment segments ih =>
    obtain ⟨remaining, rfl⟩ : ∃ m, remaining = m + 1 := ⟨remaining - 1, by
      rw [List.length_cons] at room
      omega⟩
    have follows : Ends 16 (writeTail segments ++ rest) := by
      cases segments with
      | nil => exact stops.ends.1
      | cons next segments => exact ends_cons toDigit_colon.1
    have text : writeTail (segment :: segments) ++ rest =
        ':' :: (Nat.toDigits 16 segment ++ (writeTail segments ++ rest)) := by
      simp [writeTail]
    have noDot : '.' ∉ Nat.toDigits 16 segment ++ (writeTail segments ++ rest) := by
      simp [dot_not_mem_toDigits, dot_not_mem_writeTail, apart]
    have group := readNumber_toDigits (by omega) (Nat.le_refl 16) (by omega : 0 < 4) (by omega) true
      segment follows
    have later := ih (Nat.le_of_succ_le_succ room) (i + 1)
    simp [readGroups, text, readSeparator, readIpv4Addr_none noDot, group, later]

theorem readGroups_write (segments : List (Fin 65536)) (rest : List Char) {remaining : Nat}
    (room : segments.length ≤ remaining) (stops : Stops rest) (apart : '.' ∉ rest) :
    readGroups remaining 0 (writeSegments segments ++ rest) = (segments, false, rest) := by
  cases segments with
  | nil => exact readGroups_stop stops remaining 0
  | cons segment segments =>
    obtain ⟨remaining, rfl⟩ : ∃ m, remaining = m + 1 := ⟨remaining - 1, by
      rw [List.length_cons] at room
      omega⟩
    have follows : Ends 16 (writeTail segments ++ rest) := by
      cases segments with
      | nil => exact stops.ends.1
      | cons next segments => exact ends_cons toDigit_colon.1
    have noDot : '.' ∉ Nat.toDigits 16 segment ++ (writeTail segments ++ rest) := by
      simp [dot_not_mem_toDigits, dot_not_mem_writeTail, apart]
    have group := readNumber_toDigits (by omega) (Nat.le_refl 16) (by omega : 0 < 4) (by omega) true
      segment follows
    have later := readGroups_tail segments rest (Nat.le_of_succ_le_succ room) stops apart 0
    simp [readGroups, writeSegments_cons, readSeparator, readIpv4Addr_none noDot, group, later]

/-- The segments of the span are there, and they are zeroes. -/
structure Zeroes (all : List (Fin 65536)) (span : Span) : Prop where
  inside : span.start + span.len ≤ all.length
  zero : ∀ k, span.start ≤ k → k < span.start + span.len → all[k]? = some 0

theorem longestZeroes_zeroes (done rest : List (Fin 65536)) {current longest : Span}
    (running : Zeroes (done ++ rest) current)
    (adjacent : current.len = 0 ∨ current.start + current.len = done.length)
    (found : Zeroes (done ++ rest) longest) :
    Zeroes (done ++ rest) (longestZeroes rest done.length current longest) := by
  induction rest generalizing done current longest with
  | nil => exact found
  | cons segment rest ih =>
    have shift : done ++ segment :: rest = (done ++ [segment]) ++ rest := by simp
    have here : (done ++ segment :: rest)[done.length]? = some segment := by simp
    have next := @ih (done ++ [segment])
    rw [← shift, List.length_append, List.length_singleton] at next
    rw [longestZeroes]
    by_cases zero : segment = 0
    · have begun : Zeroes (done ++ segment :: rest)
          ⟨if current.len = 0 then done.length else current.start, current.len + 1⟩ := by
        constructor
        · simp only [List.length_append, List.length_cons]
          split <;> omega
        · intro k first last
          simp only at first last
          by_cases new : k = done.length
          · rw [new, here, zero]
          · by_cases fresh : current.len = 0
            · rw [if_pos fresh] at first last
              omega
            · rw [if_neg fresh] at first last
              exact running.zero k first (by omega)
      have ends : current.len + 1 = 0 ∨
          (if current.len = 0 then done.length else current.start) + (current.len + 1) =
            done.length + 1 := by
        refine .inr ?_
        split <;> omega
      simp only [zero, if_true]
      refine zero ▸ next begun ends ?_
      split
      · exact begun
      · exact found
    · simp only [zero, if_false]
      exact next ⟨Nat.zero_le _, fun k _ last => absurd last (Nat.not_lt_zero k)⟩ (.inl rfl) found

theorem Zeroes.split {all : List (Fin 65536)} {span : Span} (zeroes : Zeroes all span) :
    all = all.take span.start ++ List.replicate span.len 0 ++ all.drop (span.start + span.len) := by
  have middle : (all.drop span.start).take span.len = List.replicate span.len 0 := by
    have inside := zeroes.inside
    refine List.eq_replicate_iff.mpr ⟨?_, ?_⟩
    · rw [List.length_take, List.length_drop]
      omega
    · intro segment listed
      obtain ⟨k, there⟩ := List.mem_iff_getElem?.mp listed
      have within : k < span.len := by
        by_contra beyond
        rw [List.getElem?_eq_none (by rw [List.length_take]; omega)] at there
        exact nomatch there
      rw [List.getElem?_take_of_lt within, List.getElem?_drop,
        zeroes.zero _ (by omega) (by omega)] at there
      exact (Option.some.inj there).symm
  rw [← middle, List.append_assoc, ← List.drop_drop, List.take_append_drop, List.take_append_drop]

theorem readIpv6Addr_segments (addr : Ipv6Addr) :
    readIpv6Addr (writeSegments addr.segments) = some (addr, []) := by
  have all := readGroups_write addr.segments [] (Nat.le_of_eq addr.eight) (.inl rfl) List.not_mem_nil
  rw [List.append_nil] at all
  simp [readIpv6Addr, all, addr.eight]

/-- An address is read from its two parts around the zeroes left out. -/
theorem readIpv6Addr_parts {s rest after : List Char} {head tail : List (Fin 65536)} {ipv4 : Bool}
    {addr : Ipv6Addr} (readHead : readGroups 8 0 s = (head, false, ':' :: ':' :: rest))
    (short : head.length < 8)
    (readTail : readGroups (8 - (head.length + 1)) 0 rest = (tail, ipv4, after))
    (whole : addr.segments = head ++ List.replicate (8 - head.length - tail.length) 0 ++ tail) :
    readIpv6Addr s = some (addr, after) := by
  obtain ⟨segments, eight⟩ := addr
  cases (show segments = _ from whole)
  have some_ : ¬ head.length = 8 := by omega
  rw [show 8 - (head.length + 1) = 7 - head.length by omega] at readTail
  simp [readIpv6Addr, readHead, some_, readTail, fillZeroes]

/-- Segments of which a run of zeroes has been left out. -/
theorem readIpv6Addr_compressed {addr : Ipv6Addr} {span : Span}
    (zeroes : Zeroes addr.segments span) (some_ : 0 < span.len) :
    readIpv6Addr (writeSegments (addr.segments.take span.start) ++ ':' :: ':' ::
      writeSegments (addr.segments.drop (span.start + span.len))) = some (addr, []) := by
  have inside := zeroes.inside
  have eight := addr.eight
  have lengthHead : (addr.segments.take span.start).length = span.start := by
    rw [List.length_take]
    omega
  have lengthTail : (addr.segments.drop (span.start + span.len)).length =
      8 - (span.start + span.len) := by
    rw [List.length_drop, eight]
  have noDot := dot_not_mem_writeSegments (addr.segments.drop (span.start + span.len))
  have head := readGroups_write (addr.segments.take span.start)
    (':' :: ':' :: writeSegments (addr.segments.drop (span.start + span.len)))
    (show _ ≤ 8 by omega) (.inr ⟨_, rfl⟩) (by simpa using noDot)
  have tail := readGroups_write (addr.segments.drop (span.start + span.len)) []
    (show _ ≤ 8 - (span.start + 1) by omega) (.inl rfl) List.not_mem_nil
  rw [List.append_nil] at tail
  refine readIpv6Addr_parts head (by omega) (by rw [lengthHead]; exact tail) ?_
  have count : 8 - span.start - (8 - (span.start + span.len)) = span.len := by omega
  rw [lengthHead, lengthTail, count]
  exact zeroes.split

/-- The octets behind the prefix of a mapped address are its last two segments. -/
theorem readIpv6Addr_mapped {addr : Ipv6Addr} {ipv4 : Ipv4Addr}
    (mapped : addr.toIpv4Mapped = some ipv4) :
    readIpv6Addr ("::ffff:".toList ++ ipv4.write) = some (addr, []) := by
  obtain ⟨segments, eight⟩ := addr
  rw [Ipv6Addr.toIpv4Mapped] at mapped
  split at mapped
  · rename_i high low same
    cases (show segments = _ from same)
    have last : [fromBeBytes ipv4.a ipv4.b, fromBeBytes ipv4.c ipv4.d] = [high, low] := by
      cases mapped
      simp only [fromBeBytes, List.cons.injEq, Fin.ext_iff, and_true]
      omega
    have octets := readIpv4Addr_write ipv4 (ends_nil 10)
    rw [List.append_nil] at octets
    have prefix_ : "ffff:".toList ++ ipv4.write =
        Nat.toDigits 16 (65535 : Fin 65536) ++ ':' :: ipv4.write := by
      have digits : Nat.toDigits 16 (65535 : Fin 65536) = "ffff".toList := by decide
      rw [digits]
      rfl
    have group := readNumber_toDigits (by omega) (Nat.le_refl 16) (by omega : 0 < 4) (by omega) true
      (65535 : Fin 65536) (show Ends 16 (':' :: ipv4.write) from ends_cons toDigit_colon.1)
    have first : readIpv4Addr ("ffff:".toList ++ ipv4.write) = none :=
      readIpv4Addr_ends (ends_cons (by decide))
    rw [← prefix_] at group
    have tail : readGroups 7 0 ("ffff:".toList ++ ipv4.write) = ([65535, high, low], true, []) := by
      generalize "ffff:".toList ++ ipv4.write = text at first group
      simp [readGroups, readSeparator, first, group, octets, last]
    exact readIpv6Addr_parts (readGroups_stop (.inr ⟨_, rfl⟩) 8 0) (by simp) tail rfl
  · exact nomatch mapped

theorem readIpAddr_display (ip : IpAddr) : readIpAddr (display ip).toList = some (ip, []) := by
  cases ip with
  | v4 addr =>
    have read := readIpv4Addr_write addr (ends_nil 10)
    rw [List.append_nil] at read
    rw [display, String.toList_ofList, readIpAddr, read]
  | v6 addr =>
    have octets : readIpv4Addr addr.write = none := by
      rw [Ipv6Addr.write]
      split
      · exact readIpv4Addr_ends (ends_cons toDigit_colon.2)
      · have noDot := dot_not_mem_writeSegments
        simp only
        split
        · exact readIpv4Addr_none (by simp [noDot])
        · exact readIpv4Addr_none (noDot _)
    have read : readIpv6Addr addr.write = some (addr, []) := by
      have start : Zeroes addr.segments ⟨0, 0⟩ :=
        ⟨Nat.zero_le _, fun k _ last => absurd last (Nat.not_lt_zero k)⟩
      have zeroes := longestZeroes_zeroes [] addr.segments start (.inl rfl) start
      rw [Ipv6Addr.write]
      split
      · rename_i mapped
        exact readIpv6Addr_mapped mapped
      · simp only
        split
        · exact readIpv6Addr_compressed zeroes (by omega)
        · exact readIpv6Addr_segments addr
    rw [display, String.toList_ofList, readIpAddr, octets, read, Option.map_some]

/-- What has been written is read back. -/
theorem parse_display (ip : IpAddr) : parse (display ip) = some ip := by
  rw [parse, readIpAddr_display]

theorem display_injective {ip ip' : IpAddr} (same : display ip = display ip') : ip = ip' := by
  have read := parse_display ip
  rw [same, parse_display ip'] at read
  exact (Option.some.inj read).symm

/-- The characters that an address is written with. -/
def IsAddrChar (c : Char) : Prop := c.isAlphanum ∨ c = '.' ∨ c = ':'

theorem isAddrChar_toDigits {radix : Nat} (base : 1 < radix) (most : radix ≤ 16) (n : Nat) :
    ∀ c ∈ Nat.toDigits radix n, IsAddrChar c := by
  obtain ⟨ds, text, range, -⟩ := toDigits_spec base n
  have digit : ∀ d < 16, (Nat.digitChar d).isAlphanum := by decide
  intro c listed
  rw [text] at listed
  obtain ⟨d, there, rfl⟩ := List.mem_map.mp listed
  exact .inl (digit d (Nat.lt_of_lt_of_le (range d there) most))

theorem isAddrChar_writeSegments (segments : List (Fin 65536)) :
    ∀ c ∈ writeSegments segments, IsAddrChar c := by
  have hex := fun n => isAddrChar_toDigits (by omega : 1 < 16) (Nat.le_refl 16) n
  cases segments with
  | nil => simp [writeSegments]
  | cons segment rest =>
    simp only [writeSegments_cons, writeTail, List.mem_append, List.mem_flatMap, List.mem_cons]
    rintro c (first | ⟨next, -, rfl | later⟩)
    · exact hex _ c first
    · exact .inr (.inr rfl)
    · exact hex _ c later

theorem isAddrChar_display (ip : IpAddr) : ∀ c ∈ (display ip).toList, IsAddrChar c := by
  have octets : ∀ addr : Ipv4Addr, ∀ c ∈ addr.write, IsAddrChar c := by
    have decimal := fun n => isAddrChar_toDigits (by omega : 1 < 10) (by omega) n
    intro addr c
    simp only [Ipv4Addr.write, List.mem_append, List.mem_cons]
    rintro (a | rfl | b | rfl | c' | rfl | d)
    · exact decimal _ c a
    · exact .inr (.inl rfl)
    · exact decimal _ c b
    · exact .inr (.inl rfl)
    · exact decimal _ c c'
    · exact .inr (.inl rfl)
    · exact decimal _ c d
  cases ip with
  | v4 addr =>
    rw [display, String.toList_ofList]
    exact octets addr
  | v6 addr =>
    have segments := isAddrChar_writeSegments
    have colon : IsAddrChar ':' := .inr (.inr rfl)
    rw [display, String.toList_ofList, Ipv6Addr.write]
    intro c listed
    split at listed
    · rcases List.mem_append.mp listed with first | later
      · have plain : ∀ c ∈ "::ffff:".toList, IsAddrChar c := by
          simp [IsAddrChar]
        exact plain c first
      · exact octets _ c later
    · simp only at listed
      split at listed
      · simp only [List.mem_append, List.mem_cons] at listed
        rcases listed with head | rfl | rfl | tail
        · exact segments _ c head
        · exact colon
        · exact colon
        · exact segments _ c tail
      · exact segments _ c listed

end Net
