/-
The values of the standard library and of HTTP that the program handles.

Clock readings and durations are natural numbers of nanoseconds.  What the platform
cannot represent is kept out by `checkedAdd`, which takes the largest representable
reading as a parameter because that reading differs from one platform to the next.
-/
import Mathlib.Data.List.TakeWhile
import Mathlib.Data.Nat.Init

namespace Keyring

/-! ### Time -/

/-- A reading of the monotonic clock. -/
abbrev Instant := Nat

/-- A length of time. -/
abbrev Duration := Nat

/-- `Duration::from_secs`. -/
def fromSecs (secs : Nat) : Duration := 1000000000 * secs

/-- `Instant::checked_add`, where `limit` is the last representable reading. -/
def checkedAdd (limit t : Instant) (d : Duration) : Option Instant :=
  if t + d ≤ limit then some (t + d) else none

theorem checkedAdd_eq_some {limit t e : Instant} {d : Duration} :
    checkedAdd limit t d = some e ↔ t + d ≤ limit ∧ e = t + d := by
  unfold checkedAdd
  split
  · rename_i h
    simp [h, eq_comm]
  · rename_i h
    simp [h]

/-! ### HTTP status codes -/

/-- A three-digit status code. -/
structure StatusCode where
  code : Nat
  valid : 100 ≤ code ∧ code < 1000
  deriving DecidableEq

namespace StatusCode

def ok : StatusCode := ⟨200, by decide⟩

def unauthorized : StatusCode := ⟨401, by decide⟩

def isSuccess (s : StatusCode) : Bool := 200 ≤ s.code && s.code < 300

theorem isSuccess_unauthorized : unauthorized.isSuccess = false := rfl

end StatusCode

/-! ### Text -/

/-- The characters with Unicode property `White_Space`, which `str::trim` removes. -/
def isWhitespace (c : Char) : Bool :=
  let n := c.toNat
  (9 ≤ n && n ≤ 13) || n == 0x20 || n == 0x85 || n == 0xA0 || n == 0x1680 ||
    (0x2000 ≤ n && n ≤ 0x200A) || n == 0x2028 || n == 0x2029 || n == 0x202F || n == 0x205F ||
    n == 0x3000

/-- `s.trim().is_empty()`. -/
def isBlank (s : String) : Bool := s.toList.all isWhitespace

/-- `str::trim`. -/
def trim (s : String) : String :=
  String.ofList ((s.toList.dropWhile isWhitespace).reverse.dropWhile isWhitespace).reverse

/-- Trimming leaves nothing of a blank text, and only of one. -/
theorem trim_eq_empty {s : String} : trim s = "" ↔ isBlank s = true := by
  unfold trim isBlank
  rw [← String.ofList_nil, String.ofList_inj, List.reverse_eq_nil_iff,
    List.dropWhile_eq_nil_iff, List.all_eq_true]
  constructor
  · intro h c hc
    -- what is left of the text would start with a character that is not white space
    cases hrest : s.toList.dropWhile isWhitespace with
    | nil => exact List.dropWhile_eq_nil_iff.mp hrest c hc
    | cons d rest =>
      have hd := List.head?_dropWhile_not isWhitespace s.toList
      rw [hrest] at hd h
      have := h d (by simp)
      simp_all
  · intro h c hc
    rw [List.dropWhile_eq_nil_iff.mpr h] at hc
    cases hc

/-! ### UUIDs -/

/-- The 128 bits of a UUID. -/
structure Uuid where
  bits : BitVec 128
  deriving DecidableEq

end Keyring
