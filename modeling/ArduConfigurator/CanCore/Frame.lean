import ArduConfigurator.Lib.JsArithmetic
import ArduConfigurator.Lib.LittleEndian
import Mathlib.Data.Nat.Bitwise

/-! # CAN frames

The one frame every source and tool shares. A raw identifier carries three flags above the
arbitration identifier; a frame holds them apart. -/
namespace ArduConfigurator.CanCore
set_option autoImplicit false

def CAN_EFF_FLAG : ℕ := 0x80000000
def CAN_RTR_FLAG : ℕ := 0x40000000
def CAN_ERR_FLAG : ℕ := 0x20000000
def CAN_SFF_MASK : ℕ := 0x000007ff
def CAN_EFF_MASK : ℕ := 0x1fffffff

inductive CanFrameDirection
  | rx
  | tx

structure CanFrame where
  /-- The capture sequence, 0 until captured. -/
  seq : ℕ
  timestampMs : JsNumber
  /-- CAN1 is 1. -/
  bus : ℕ
  /-- The arbitration identifier without flags. -/
  id : ℕ
  extended : Bool
  rtr : Bool
  error : Bool
  fd : Bool
  data : Bytes
  direction : CanFrameDirection

structure CanFrameInput where
  timestampMs : JsNumber
  bus : ℕ
  /-- The identifier with its flags. -/
  rawId : ℕ
  data : Bytes
  fd : Bool := false
  direction : CanFrameDirection := .rx

/-- `(raw & flag) !== 0` for a flag of one bit. -/
def hasFlag (raw flag : ℕ) : Bool := raw &&& flag ≠ 0

def canFrameFromRawId (input : CanFrameInput) : CanFrame :=
  let raw := input.rawId % 2 ^ 32
  let extended := hasFlag raw CAN_EFF_FLAG
  { seq := 0
    timestampMs := input.timestampMs
    bus := input.bus
    id := if extended then raw &&& CAN_EFF_MASK else raw &&& CAN_SFF_MASK
    extended
    rtr := hasFlag raw CAN_RTR_FLAG
    error := hasFlag raw CAN_ERR_FLAG
    fd := input.fd
    data := input.data
    direction := input.direction }

def canFrameRawId (id : ℕ) (extended rtr error : Bool) : ℕ :=
  let raw := if extended then id &&& CAN_EFF_MASK else id &&& CAN_SFF_MASK
  let raw := if extended then raw ||| CAN_EFF_FLAG else raw
  let raw := if rtr then raw ||| CAN_RTR_FLAG else raw
  let raw := if error then raw ||| CAN_ERR_FLAG else raw
  raw % 2 ^ 32

def idMask (extended : Bool) : ℕ := if extended then CAN_EFF_MASK else CAN_SFF_MASK

/-! ## Data lengths -/

def CANFD_LENGTHS : List ℕ := [0, 1, 2, 3, 4, 5, 6, 7, 8, 12, 16, 20, 24, 32, 48, 64]

def canDlcForLength (length : ℕ) : ℕ := (CANFD_LENGTHS.findIdx? fun l => length ≤ l).getD 15

def canLengthForDlc (dlc : ℕ) : ℕ := CANFD_LENGTHS.getD (min 15 dlc) 0

variable {length : ℕ}

theorem canDlcForLength_lt (h : length ≤ 64) : canDlcForLength length < 16 := by
  have hall : ∀ n < 65, canDlcForLength n < 16 := by decide
  exact hall length (by omega)

theorem canLengthForDlc_least (h : length ≤ 64) :
    length ≤ canLengthForDlc (canDlcForLength length) ∧
      canLengthForDlc (canDlcForLength length) ∈ CANFD_LENGTHS ∧
      ∀ l ∈ CANFD_LENGTHS, length ≤ l → canLengthForDlc (canDlcForLength length) ≤ l := by
  have hall : ∀ n < 65, n ≤ canLengthForDlc (canDlcForLength n) ∧
      canLengthForDlc (canDlcForLength n) ∈ CANFD_LENGTHS ∧
      ∀ l ∈ CANFD_LENGTHS, n ≤ l → canLengthForDlc (canDlcForLength n) ≤ l := by decide
  exact hall length (by omega)

/-! ## Identifiers with their flags -/

theorem and_idMask (id : ℕ) (extended : Bool) :
    id &&& idMask extended = id % 2 ^ (if extended then 29 else 11) := by
  cases extended with
  | true => exact Nat.and_two_pow_sub_one_eq_mod id 29
  | false => exact Nat.and_two_pow_sub_one_eq_mod id 11

theorem and_idMask_of_le {id : ℕ} {extended : Bool} (h : id ≤ idMask extended) :
    id &&& idMask extended = id := by
  rw [and_idMask]
  apply Nat.mod_eq_of_lt
  cases extended with
  | true => exact Nat.lt_succ_of_le h
  | false => exact Nat.lt_succ_of_le h

end ArduConfigurator.CanCore
