import Mathlib.Data.List.Basic

/-!
# Base64url

The text of a byte string in the alphabet that is safe in a URL, without padding: every three bytes
are four characters of six bits each, and one or two bytes behind them are two or three.
-/

namespace ComputeMarket

namespace Base64Url

def charOf (sextet : ℕ) : Char :=
  if sextet < 26 then .ofNat ('A'.toNat + sextet)
  else if sextet < 52 then .ofNat ('a'.toNat + (sextet - 26))
  else if sextet < 62 then .ofNat ('0'.toNat + (sextet - 52))
  else if sextet = 62 then '-'
  else '_'

def sextetOf (char : Char) : Option ℕ :=
  if 'A' ≤ char ∧ char ≤ 'Z' then some (char.toNat - 'A'.toNat)
  else if 'a' ≤ char ∧ char ≤ 'z' then some (char.toNat - 'a'.toNat + 26)
  else if '0' ≤ char ∧ char ≤ '9' then some (char.toNat - '0'.toNat + 52)
  else if char = '-' then some 62
  else if char = '_' then some 63
  else none

/-- The bits of the bytes, six at a time; what is missing at the end is zero. -/
def sextets : List UInt8 → List ℕ
  | [] => []
  | [a] => [a.toNat / 4, a.toNat % 4 * 16]
  | [a, b] => [a.toNat / 4, a.toNat % 4 * 16 + b.toNat / 16, b.toNat % 16 * 4]
  | a :: b :: c :: rest =>
    a.toNat / 4 :: (a.toNat % 4 * 16 + b.toNat / 16) :: (b.toNat % 16 * 4 + c.toNat / 64) ::
      c.toNat % 64 :: sextets rest

/-- The bits, eight at a time; bits that fill no byte are dropped. -/
def bytes : List ℕ → Option (List UInt8)
  | [] => some []
  | [_] => none
  | [w, x] => some [.ofNat (w * 4 + x / 16)]
  | [w, x, y] => some [.ofNat (w * 4 + x / 16), .ofNat (x % 16 * 16 + y / 4)]
  | w :: x :: y :: z :: rest => (bytes rest).map fun behind =>
    .ofNat (w * 4 + x / 16) :: .ofNat (x % 16 * 16 + y / 4) :: .ofNat (y % 4 * 64 + z) :: behind

def encode (data : List UInt8) : List Char := (sextets data).map charOf

def decode (text : List Char) : Option (List UInt8) := (text.mapM sextetOf).bind bytes

theorem sextetOf_charOf : ∀ sextet < 64, sextetOf (charOf sextet) = some sextet := by decide

theorem sextets_lt (data : List UInt8) : ∀ sextet ∈ sextets data, sextet < 64 := by
  induction data using sextets.induct with
  | case1 => exact fun _ never => absurd never List.not_mem_nil
  | case2 a =>
    have := a.toNat_lt
    simp only [sextets, List.forall_mem_cons, List.not_mem_nil, false_implies, implies_true, and_true]
    omega
  | case3 a b =>
    have := a.toNat_lt
    have := b.toNat_lt
    simp only [sextets, List.forall_mem_cons, List.not_mem_nil, false_implies, implies_true, and_true]
    omega
  | case4 a b c rest ih =>
    have := a.toNat_lt
    have := b.toNat_lt
    have := c.toNat_lt
    simp only [sextets, List.forall_mem_cons]
    exact ⟨by omega, by omega, by omega, by omega, ih⟩

theorem ofNat_eq {number : ℕ} (byte : UInt8) (same : number = byte.toNat) :
    UInt8.ofNat number = byte := by
  rw [same, UInt8.ofNat_toNat]

theorem bytes_sextets (data : List UInt8) : bytes (sextets data) = some data := by
  induction data using sextets.induct with
  | case1 => rfl
  | case2 a =>
    have := a.toNat_lt
    rw [sextets, bytes, ofNat_eq a (by omega)]
  | case3 a b =>
    have := a.toNat_lt
    have := b.toNat_lt
    rw [sextets, bytes, ofNat_eq a (by omega), ofNat_eq b (by omega)]
  | case4 a b c rest ih =>
    have := a.toNat_lt
    have := b.toNat_lt
    have := c.toNat_lt
    rw [sextets, bytes, ih, Option.map_some, ofNat_eq a (by omega),
      ofNat_eq b (by omega), ofNat_eq c (by omega)]

theorem mapM_sextetOf {read : List ℕ} (small : ∀ sextet ∈ read, sextet < 64) :
    (read.map charOf).mapM sextetOf = some read := by
  induction read with
  | nil => rfl
  | cons sextet rest ih =>
    obtain ⟨first, others⟩ := List.forall_mem_cons.mp small
    rw [List.map_cons, List.mapM_cons, sextetOf_charOf sextet first, ih others]
    rfl

theorem decode_encode (data : List UInt8) : decode (encode data) = some data := by
  rw [decode, encode, mapM_sextetOf (sextets_lt data), Option.bind_some, bytes_sextets]

theorem length_encode (data : List UInt8) : (encode data).length % 4 ≠ 1 := by
  rw [encode, List.length_map]
  induction data using sextets.induct with
  | case1 => decide
  | case2 a => exact Nat.succ_succ_ne_one 0
  | case3 a b => exact Nat.succ_succ_ne_one 1
  | case4 a b c rest ih =>
    simp only [sextets, List.length_cons]
    omega

theorem isSome_sextetOf {data : List UInt8} : ∀ char ∈ encode data, (sextetOf char).isSome := by
  intro char written
  obtain ⟨sextet, listed, rfl⟩ := List.mem_map.mp written
  rw [sextetOf_charOf sextet (sextets_lt data sextet listed)]
  rfl

end Base64Url

end ComputeMarket
