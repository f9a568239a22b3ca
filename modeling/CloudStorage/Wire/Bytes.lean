import CloudStorage.Config
import Mathlib.Algebra.Ring.Nat
import Mathlib.Data.List.TakeWhile

/-! Byte-level helpers of the message classes: integers in network and host
order, fixed-width fields and C strings. -/
namespace CloudStorage

/-- Byte order of the machine a program runs on. -/
inductive Endian where
  | little
  | big
  deriving DecidableEq, Repr

/-- `memcpy` of `htonl(value)`. -/
def networkBytes (value : UInt32) : Bytes :=
  [(value.toNat / 2 ^ 24).toUInt8, (value.toNat / 2 ^ 16).toUInt8,
    (value.toNat / 2 ^ 8).toUInt8, value.toNat.toUInt8]

/-- `ntohl` of a `memcpy` of four bytes. -/
def networkValue : Bytes → UInt32
  | [a, b, c, d] =>
      (a.toNat * 2 ^ 24 + b.toNat * 2 ^ 16 + c.toNat * 2 ^ 8 + d.toNat).toUInt32
  | _ => 0

/-- `memcpy` of a `uint32_t` as it lies in memory. -/
def Endian.bytes (host : Endian) (value : UInt32) : Bytes :=
  match host with
  | .little => (networkBytes value).reverse
  | .big => networkBytes value

def Endian.value (host : Endian) (bytes : Bytes) : UInt32 :=
  match host with
  | .little => networkValue bytes.reverse
  | .big => networkValue bytes

@[simp] theorem networkBytes_length (value : UInt32) : (networkBytes value).length = 4 := by
  simp [networkBytes]

@[simp] theorem networkValue_networkBytes (value : UInt32) :
    networkValue (networkBytes value) = value := by
  have bound := value.toNat_lt
  apply UInt32.toNat_inj.mp
  simp only [networkBytes, networkValue, Nat.toUInt8, Nat.toUInt32, UInt8.toNat_ofNat',
    UInt32.toNat_ofNat']
  omega

theorem networkBytes_networkValue {bytes : Bytes} (width : bytes.length = 4) :
    networkBytes (networkValue bytes) = bytes := by
  match bytes, width with
  | [a, b, c, d], _ =>
    have ha := a.toNat_lt
    have hb := b.toNat_lt
    have hc := c.toNat_lt
    have hd := d.toNat_lt
    simp only [networkBytes, networkValue, Nat.toUInt32, UInt32.toNat_ofNat', List.cons.injEq,
      and_true]
    refine ⟨?_, ?_, ?_, ?_⟩ <;>
    · apply UInt8.toNat_inj.mp
      simp only [Nat.toUInt8, UInt8.toNat_ofNat']
      omega

@[simp] theorem Endian.bytes_length (host : Endian) (value : UInt32) :
    (host.bytes value).length = 4 := by
  cases host <;> rfl

@[simp] theorem Endian.value_bytes (host : Endian) (value : UInt32) :
    host.value (host.bytes value) = value := by
  cases host <;> simp [Endian.value, Endian.bytes]

/-- Any four bytes are some integer in the memory of a host. -/
theorem Endian.bytes_value {bytes : Bytes} (host : Endian) (width : bytes.length = 4) :
    host.bytes (host.value bytes) = bytes := by
  cases host with
  | little => simp [Endian.bytes, Endian.value, networkBytes_networkValue, width]
  | big => exact networkBytes_networkValue width
/-- `memcpy` out of a buffer at a fixed position. -/
def field (position width : Nat) (buffer : Bytes) : Bytes := (buffer.drop position).take width

theorem field_head {x rest : Bytes} {width : Nat} (h : x.length = width) :
    field 0 width (x ++ rest) = x := by
  simp [field, ← h]

theorem field_skip {x rest : Bytes} {position width : Nat} (h : x.length ≤ position) :
    field position width (x ++ rest) = field (position - x.length) width rest := by
  simp only [field]
  rw [List.drop_append, List.drop_of_length_le h, List.nil_append]

theorem field_cons {byte : UInt8} {rest : Bytes} {position width : Nat} (h : 0 < position) :
    field position width (byte :: rest) = field (position - 1) width rest :=
  field_skip (x := [byte]) h

theorem field_whole {x : Bytes} {width : Nat} (h : x.length = width) : field 0 width x = x := by
  simp [field, ← h]

theorem field_length {position width : Nat} {buffer : Bytes}
    (h : position + width ≤ buffer.length) : (field position width buffer).length = width := by
  simp only [field, List.length_take, List.length_drop]
  omega

/-- `strncpy` into an array of `width` characters: the rest is filled with zeros. -/
def strncpy (source : Bytes) (width : Nat) : Bytes :=
  source.take width ++ List.replicate (width - source.length) 0

/-- The bytes before the first terminator. -/
def cPrefix (buffer : Bytes) : Bytes := buffer.takeWhile (· ≠ 0)

@[simp] theorem strncpy_length (source : Bytes) (width : Nat) :
    (strncpy source width).length = width := by
  simp only [strncpy, List.length_append, List.length_take, List.length_replicate]
  omega

theorem strncpy_eq {name : Bytes} {width : Nat} (fits : name.length < width) :
    strncpy name width = name ++ 0 :: List.replicate (width - name.length - 1) 0 := by
  have pad : width - name.length = width - name.length - 1 + 1 := by omega
  rw [strncpy, List.take_of_length_le fits.le, pad, List.replicate_succ]
  rfl

/-- A name without terminator ends at the one behind it. -/
theorem cPrefix_terminated {name : Bytes} (clean : (0 : UInt8) ∉ name) (rest : Bytes) :
    cPrefix (name ++ 0 :: rest) = name := by
  rw [cPrefix, List.takeWhile_append_of_pos]
  · simp
  · intro byte member
    simp only [ne_eq, decide_eq_true_eq]
    rintro rfl
    exact clean member

/-- A name without terminator that is shorter than the field survives it. -/
theorem cPrefix_strncpy {name : Bytes} {width : Nat} (clean : (0 : UInt8) ∉ name)
    (fits : name.length < width) : cPrefix (strncpy name width) = name := by
  rw [strncpy_eq fits]
  exact cPrefix_terminated clean _

theorem mem_strncpy {name : Bytes} {width : Nat} (fits : name.length < width) :
    (0 : UInt8) ∈ strncpy name width := by
  rw [strncpy_eq fits]
  exact List.mem_append_right _ (List.mem_cons_self ..)

end CloudStorage
