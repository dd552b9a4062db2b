import Mathlib.Data.List.Basic
import Mathlib.Tactic.Ring

/-! # Fixed-width integers as bytes

A number is written in `width` bytes in one of the two byte orders and read back.
Writing keeps the residue modulo `256 ^ width`, and every byte string of that width is
the image of the number read from it, so the two directions determine each other.
-/

namespace ByteOrder

inductive Endian where
  | little
  | big
deriving DecidableEq, Repr

def littleBytes : Nat → Nat → List UInt8
  | 0, _ => []
  | width + 1, n => UInt8.ofNat n :: littleBytes width (n / 256)

def ofLittleBytes : List UInt8 → Nat
  | [] => 0
  | byte :: rest => byte.toNat + 256 * ofLittleBytes rest

def encode : Endian → Nat → Nat → List UInt8
  | .little, width, n => littleBytes width n
  | .big, width, n => (littleBytes width n).reverse

def decode : Endian → List UInt8 → Nat
  | .little, bytes => ofLittleBytes bytes
  | .big, bytes => ofLittleBytes bytes.reverse

theorem littleBytes_length (width n : Nat) : (littleBytes width n).length = width := by
  induction width generalizing n with
  | zero => rfl
  | succ width ih => rw [littleBytes, List.length_cons, ih]

theorem ofLittleBytes_littleBytes (width n : Nat) :
    ofLittleBytes (littleBytes width n) = n % 256 ^ width := by
  induction width generalizing n with
  | zero => rw [pow_zero, Nat.mod_one]; rfl
  | succ width ih =>
    have hByte : (UInt8.ofNat n).toNat = n % 256 := UInt8.toNat_ofNat'
    rw [littleBytes, ofLittleBytes, ih, hByte, pow_succ', Nat.mod_mul]

theorem littleBytes_ofLittleBytes (bytes : List UInt8) :
    littleBytes bytes.length (ofLittleBytes bytes) = bytes := by
  induction bytes with
  | nil => rfl
  | cons byte rest ih =>
    have hByte : byte.toNat < 256 := byte.toNat_lt
    have hDiv : (byte.toNat + 256 * ofLittleBytes rest) / 256 = ofLittleBytes rest := by omega
    have hMod : (byte.toNat + 256 * ofLittleBytes rest) % 256 = byte.toNat := by omega
    have hHead : UInt8.ofNat (byte.toNat + 256 * ofLittleBytes rest) = byte := by
      apply UInt8.toNat_inj.mp
      rw [UInt8.toNat_ofNat']
      exact hMod
    rw [List.length_cons, ofLittleBytes, littleBytes, hHead, hDiv, ih]

theorem ofLittleBytes_lt (bytes : List UInt8) : ofLittleBytes bytes < 256 ^ bytes.length := by
  induction bytes with
  | nil => exact Nat.one_pos
  | cons byte rest ih =>
    have hByte : byte.toNat < 256 := byte.toNat_lt
    rw [ofLittleBytes, List.length_cons, pow_succ']
    omega

theorem le_ofLittleBytes {bytes : List UInt8} {i : Nat} {byte : UInt8}
    (h : bytes[i]? = some byte) : byte.toNat * 256 ^ i ≤ ofLittleBytes bytes := by
  induction bytes generalizing i with
  | nil => cases h
  | cons head rest ih =>
    rw [ofLittleBytes]
    cases i with
    | zero =>
      obtain rfl := Option.some.inj h
      omega
    | succ i =>
      have hRest := ih (i := i) h
      calc byte.toNat * 256 ^ (i + 1) = 256 * (byte.toNat * 256 ^ i) := by ring
        _ ≤ 256 * ofLittleBytes rest := Nat.mul_le_mul_left 256 hRest
        _ ≤ head.toNat + 256 * ofLittleBytes rest := Nat.le_add_left _ _

@[simp] theorem encode_length (order : Endian) (width n : Nat) :
    (encode order width n).length = width := by
  cases order with
  | little => exact littleBytes_length width n
  | big => rw [encode, List.length_reverse, littleBytes_length]

theorem decode_encode (order : Endian) (width n : Nat) :
    decode order (encode order width n) = n % 256 ^ width := by
  cases order with
  | little => exact ofLittleBytes_littleBytes width n
  | big => rw [encode, decode, List.reverse_reverse, ofLittleBytes_littleBytes]

theorem encode_decode (order : Endian) (bytes : List UInt8) :
    encode order bytes.length (decode order bytes) = bytes := by
  cases order with
  | little => exact littleBytes_ofLittleBytes bytes
  | big =>
    have h := littleBytes_ofLittleBytes bytes.reverse
    rw [List.length_reverse] at h
    rw [decode, encode, h, List.reverse_reverse]

theorem decode_lt (order : Endian) (bytes : List UInt8) :
    decode order bytes < 256 ^ bytes.length := by
  cases order with
  | little => exact ofLittleBytes_lt bytes
  | big =>
    have h := ofLittleBytes_lt bytes.reverse
    rwa [List.length_reverse] at h

end ByteOrder
