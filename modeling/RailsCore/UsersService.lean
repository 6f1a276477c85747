import RailsCore.BothEnds
import RailsCore.LedgerPoster

/-!
# Data of the users service

Rows of the users database with the columns that authentication reads, header
values, and the errors of both its interfaces. Types and statuses are text in
the database, without a constraint, and stay text here. The keyed hash, the
uuid parser and the token decoder are library code and stay parameters.
-/

namespace RailsCore.UsersService

/-- A row of `environments`; `type` is a column name. -/
structure EnvironmentRow where
  id : Uuid
  businessId : Uuid
  type : String
  status : String
deriving DecidableEq, Repr

structure UserRow where
  id : Uuid
  businessId : Uuid
  environmentId : Uuid
  status : String
deriving DecidableEq, Repr

structure ApiKeyRow where
  id : Uuid
  businessId : Uuid
  keyHash : String
  status : String
  revokedAt : Option Nat
deriving DecidableEq, Repr

structure UsersDatabase where
  environments : List EnvironmentRow
  users : List UserRow
  apiKeys : List ApiKeyRow
deriving DecidableEq, Repr

inductive AppError where
  | unauthorized
  | forbidden
  | unrecognizedSource
  | tooManyRequests
  | badRequest (message : String)
  | conflict (message : String)
  | internal
deriving DecidableEq, Repr

def AppError.display : AppError → String
  | .unauthorized => "Unauthorized"
  | .forbidden => "Forbidden"
  | .unrecognizedSource => "Request rejected: API called from an unrecognized source."
  | .tooManyRequests => "Too many requests"
  | .badRequest message => "Bad request: " ++ message
  | .conflict message => "Conflict: " ++ message
  | .internal => "Internal server error"

def AppError.statusCode : AppError → Nat
  | .unauthorized => 401
  | .forbidden | .unrecognizedSource => 403
  | .tooManyRequests => 429
  | .badRequest _ => 400
  | .conflict _ => 409
  | .internal => 500

inductive PasswordResetRequestOutcome where
  | noSuchUser
  | issued (userId businessId : Uuid)
deriving DecidableEq, Repr

inductive StatusCode where
  | invalidArgument
  | unauthenticated
  | failedPrecondition
deriving DecidableEq, Repr

/-- An error of the gRPC interface. -/
structure Status where
  code : StatusCode
  message : String
deriving DecidableEq, Repr

/-- `hash_api_key`, `Uuid::parse_str`, and the `sub` claim of a token that `decode` accepts. -/
structure Libraries where
  hashApiKey : String → String
  parseUuid : String → Option Uuid
  decodeToken : String → Option String

/-- Rust's `trim`: Unicode white space goes at both ends. -/
def trim (s : String) : String :=
  String.ofList ((s.toList.dropWhile isBlankChar).reverse.dropWhile isBlankChar).reverse

theorem except_bind_ok {ε α β : Type} {x : Except ε α} {f : α → Except ε β} {result : β} :
    (x >>= f) = .ok result ↔ ∃ a, x = .ok a ∧ f a = .ok result := by
  cases x <;> simp [bind, Except.bind]

theorem toList_trim (s : String) : (trim s).toList = dropBoth isBlankChar s.toList :=
  String.toList_ofList

theorem trim_trim (s : String) : trim (trim s) = trim s := by
  apply String.toList_inj.mp
  rw [toList_trim, toList_trim, dropBoth_dropBoth]

theorem trim_ne_empty {s : String} : trim s ≠ "" ↔ ∃ c ∈ s.toList, isBlankChar c = false := by
  rw [← String.toList_inj.ne, toList_trim, String.toList_empty, Ne, dropBoth_eq_nil]
  simp

theorem trim_eq_self {s : String} (visible : ∀ c ∈ s.toList, isBlankChar c = false) :
    trim s = s := by
  apply String.toList_inj.mp
  rw [toList_trim]
  exact dropBoth_of_ends (fun c hc => visible c (List.mem_of_head? hc))
    (fun c hc => visible c (List.mem_of_getLast? hc))

/-- Lower case of a character in the basic Latin letters; U+0130 and the Kelvin sign U+212A are
the only others whose lower case has such a letter. -/
def lowercaseChar (c : Char) : List Char :=
  if c.val = 0x130 then ['i', Char.ofNat 0x307]
  else if c.val = 0x212A then ['k']
  else [c.toLower]

/-- `to_lowercase` as far as names in ASCII go: it has an ASCII text as its result wherever
`to_lowercase` has it. -/
def toLowercase (s : String) : String := String.ofList (s.toList.flatMap lowercaseChar)

/-- `to_lowercase` on any text. What it is outside ASCII is left to the Unicode tables. -/
structure Lowercasing where
  toLowercase : String → String
  toLowercase_ascii : ∀ s t : String, (∀ c ∈ t.toList, c.toNat < 128) →
    (toLowercase s = t ↔ UsersService.toLowercase s = t)

namespace Lowercasing

/-- The one that changes no character outside ASCII but the two. -/
def latin : Lowercasing where
  toLowercase := UsersService.toLowercase
  toLowercase_ascii _ _ _ := Iff.rfl

variable (lower : Lowercasing)

theorem toLowercase_ne_empty {s : String} (text : s ≠ "") : lower.toLowercase s ≠ "" := by
  rw [Ne, lower.toLowercase_ascii s "" (by simp)]
  intro empty
  obtain ⟨c, hc⟩ := List.exists_mem_of_ne_nil s.toList
    (fun none_ => text (String.toList_inj.mp none_))
  have nothing : s.toList.flatMap lowercaseChar = [] := String.ofList_eq_empty_iff.mp empty
  have letters := List.flatMap_eq_nil_iff.mp nothing c hc
  rw [lowercaseChar] at letters
  split_ifs at letters

end Lowercasing

/-- The bytes of a header value. -/
abbrev HeaderValue := List UInt8

def isVisibleAscii (b : UInt8) : Bool := 32 ≤ b && b < 127 || b = 9

/-- `HeaderValue::to_str`. -/
def HeaderValue.toStr (value : HeaderValue) : Option String :=
  if value.all isVisibleAscii then some (String.ofList (value.map (fun b => Char.ofNat b.toNat)))
  else none

/-- The headers of a request that authentication reads, each with its first value. -/
structure Parts where
  environmentId : Option HeaderValue
  environment : Option HeaderValue
  apiKey : Option HeaderValue
  authorization : Option HeaderValue
deriving DecidableEq, Repr

/-- A header as trimmed text; a blank one is as good as absent. -/
def headerText (value : Option HeaderValue) : Option String :=
  ((value.bind HeaderValue.toStr).map trim).filter (fun s => s ≠ "")

/-- A string as the value of a header. -/
def headerOf (s : String) : HeaderValue := s.toList.flatMap String.utf8EncodeChar

/-- A string that `to_str` gives back. -/
def IsVisible (s : String) : Prop := ∀ c ∈ s.toList, 32 ≤ c.toNat ∧ c.toNat < 127 ∨ c.toNat = 9

instance (s : String) : Decidable (IsVisible s) := List.decidableBAll _ s.toList

/-- A character that is not visible has a byte that is not. -/
theorem utf8EncodeChar_visible (c : Char) :
    (String.utf8EncodeChar c).all isVisibleAscii = true ↔
      32 ≤ c.toNat ∧ c.toNat < 127 ∨ c.toNat = 9 := by
  have visible : ∀ n < 256, isVisibleAscii (UInt8.ofNat n) = true ↔ 32 ≤ n ∧ n < 127 ∨ n = 9 := by
    intro n small
    have same : (UInt8.ofNat n).toNat = n := by
      rw [UInt8.toNat_ofNat']
      omega
    simp only [isVisibleAscii, Bool.or_eq_true, Bool.and_eq_true, decide_eq_true_eq,
      UInt8.le_iff_toNat_le, UInt8.lt_iff_toNat_lt, ← UInt8.toNat_inj, same, UInt8.reduceToNat]
  have high : ∀ n bs, 127 < n → n < 256 →
      ¬ (UInt8.ofNat n :: bs).all isVisibleAscii = true := by
    intro n bs low small all
    have first := (visible n small).mp (Bool.and_eq_true_iff.mp all).1
    omega
  have num : c.val.toNat = c.toNat := rfl
  simp only [String.utf8EncodeChar, num]
  split
  · rw [List.all_cons, List.all_nil, Bool.and_true, visible _ (by omega)]
  · refine iff_of_false ?_ (by omega)
    split
    · exact high _ _ (by omega) (by omega)
    · split
      · exact high _ _ (by omega) (by omega)
      · exact high _ _ (by omega) (by omega)

/-- A string arrives as it is where it is visible, and not at all elsewhere. -/
theorem toStr_headerOf (s : String) :
    (headerOf s).toStr = if IsVisible s then some s else none := by
  have whole : (headerOf s).all isVisibleAscii = true ↔ IsVisible s := by
    rw [headerOf, List.all_flatMap, List.all_eq_true]
    exact forall₂_congr fun c _ => utf8EncodeChar_visible c
  by_cases visible : IsVisible s
  · rw [HeaderValue.toStr, if_pos (whole.mpr visible), if_pos visible]
    have same : (headerOf s).map (fun b => Char.ofNat b.toNat) = s.toList := by
      rw [headerOf, List.map_flatMap]
      refine (List.flatMap_congr fun c hc => ?_).trans (List.flatMap_singleton' s.toList)
      have small : c.toNat < 128 := by
        have := visible c hc
        omega
      have num : c.val.toNat = c.toNat := rfl
      simp only [String.utf8EncodeChar, num, if_pos (show c.toNat ≤ 127 by omega), List.map_cons,
        List.map_nil, UInt8.toNat_ofNat', Nat.mod_eq_of_lt (show c.toNat < 2 ^ 8 by omega),
        Char.ofNat_toNat]
    rw [same, String.ofList_toList]
  · rw [HeaderValue.toStr, if_neg (mt whole.mp visible), if_neg visible]

theorem headerText_headerOf (s : String) :
    headerText (some (headerOf s)) = if IsVisible s ∧ trim s ≠ "" then some (trim s) else none := by
  rw [headerText, Option.bind_some, toStr_headerOf]
  by_cases visible : IsVisible s
  · by_cases blank : trim s = "" <;> simp [visible, blank]
  · simp [visible]

end RailsCore.UsersService
