import ValkeyLuajit.Library.BigEndian
import ValkeyLuajit.Library.Block
import ValkeyLuajit.Lua.Api
import ValkeyLuajit.Lua.Double

/-!
# The buffer of the MessagePack encoder

`lua_cmsgpack.c`: the buffer that encoded bytes are appended to, and the encodings of single
values. What is new in a block after `mp_realloc` is zero here; nothing reads it before it is
written. A place outside of the block is noticed.
-/

namespace ValkeyLuajit

open Lua

/-- What keeps a function of the library from returning. -/
inductive MpStop where
  /-- A Lua error. -/
  | raised (message : Bytes)
  /-- A metamethod is called. -/
  | script (handler : FuncRef)
  /-- `abort`. -/
  | aborted
  /-- Memory is read or written outside of a block. -/
  | outside
deriving DecidableEq

/-- `mp_buf`, with the block that `b` points to. -/
structure MpBuf where
  b : Block
  len : Nat
  free : Nat
deriving DecidableEq

/-- `mp_realloc`. -/
def mpRealloc (target : Block) (nsize : Nat) : Block :=
  target.take nsize ++ List.replicate (nsize - target.length) 0

/-- `mp_buf_new`. -/
def mpBufNew : MpBuf := ⟨[], 0, 0⟩

/-- `mp_buf_append`. -/
def mpBufAppend (buf : MpBuf) (s : Bytes) : Except MpStop MpBuf := do
  let buf ←
    if buf.free < s.length then
      let newsize := (buf.len + s.length) % 2 ^ 64
      if newsize < buf.len ∨ sizeMax / 2 ≤ newsize then .error .aborted
      else
        let newsize := newsize * 2
        .ok { buf with b := mpRealloc buf.b newsize, free := newsize - buf.len }
    else .ok buf
  match buf.b.storeRange buf.len s with
  | none => .error .outside
  | some b => .ok { b := b, len := buf.len + s.length, free := buf.free - s.length }

/-- Begin again in the same block. -/
def MpBuf.reuse (buf : MpBuf) : MpBuf := { buf with len := 0, free := buf.free + buf.len }

/-- The buffer holds these bytes, and counts its block right. -/
structure MpBuf.Holds (buf : MpBuf) (bytes : Bytes) : Prop where
  len : buf.len = bytes.length
  size : buf.len + buf.free = buf.b.length
  bytes : buf.b.take buf.len = bytes

/-- `hdr` of `mp_encode_bytes`. -/
def mpRawHeader (len : Nat) : Bytes :=
  if len < 32 then bigEndian 1 (0xa0 ||| len % 256)
  else if len ≤ 0xff then 0xd9 :: bigEndian 1 len
  else if len ≤ 0xffff then 0xda :: bigEndian 2 len
  else 0xdb :: bigEndian 4 len

/-- `mp_encode_bytes`. -/
def mpEncodeBytes (s : Bytes) (buf : MpBuf) : Except MpStop MpBuf := do
  let buf ← mpBufAppend buf (mpRawHeader s.length)
  mpBufAppend buf s

/-- The bits of the NaN of a machine, as a `float` and as a `double`. -/
structure NanBits where
  float : Nat
  double : Nat
  float_lt : float < 2 ^ 32
  double_lt : double < 2 ^ 64
  float_nan : Interchange.single.datum float = .nan
  double_nan : Interchange.double.datum double = .nan

/-- The bytes of `mp_encode_double`. -/
def mpDoubleBytes (nan : NanBits) (d : Number) : Bytes :=
  let f := Interchange.single.bits nan.float d.datum
  if d.datum.equal (Interchange.single.datum f) then 0xca :: bigEndian 4 f
  else 0xcb :: bigEndian 8 (Interchange.double.bits nan.double d.datum)

/-- `mp_encode_double`. -/
def mpEncodeDouble (nan : NanBits) (d : Number) (buf : MpBuf) : Except MpStop MpBuf :=
  mpBufAppend buf (mpDoubleBytes nan d)

/-- The bits of an `int64_t`. -/
def int64Bits (n : Int) : Nat := (n % 2 ^ 64).toNat

/-- The bytes of `mp_encode_int`. -/
def mpIntBytes (n : Int) : Bytes :=
  if 0 ≤ n then
    if n ≤ 127 then bigEndian 1 (int64Bits n)
    else if n ≤ 0xff then 0xcc :: bigEndian 1 (int64Bits n)
    else if n ≤ 0xffff then 0xcd :: bigEndian 2 (int64Bits n)
    else if n ≤ 0xffffffff then 0xce :: bigEndian 4 (int64Bits n)
    else 0xcf :: bigEndian 8 (int64Bits n)
  else
    if -32 ≤ n then bigEndian 1 (int64Bits n)
    else if -128 ≤ n then 0xd0 :: bigEndian 1 (int64Bits n)
    else if -32768 ≤ n then 0xd1 :: bigEndian 2 (int64Bits n)
    else if -2147483648 ≤ n then 0xd2 :: bigEndian 4 (int64Bits n)
    else 0xd3 :: bigEndian 8 (int64Bits n)

/-- `mp_encode_int`. -/
def mpEncodeInt (n : Int) (buf : MpBuf) : Except MpStop MpBuf := mpBufAppend buf (mpIntBytes n)

/-- The bytes of a head that counts what follows it. -/
def mpCountBytes (fix sixteen thirtyTwo : UInt8) (n : Nat) : Bytes :=
  if n ≤ 15 then [fix ||| UInt8.ofNat (n % 16)]
  else if n ≤ 65535 then sixteen :: bigEndian 2 n
  else thirtyTwo :: bigEndian 4 n

/-- `mp_encode_array`. -/
def mpEncodeArray (n : Nat) (buf : MpBuf) : Except MpStop MpBuf :=
  mpBufAppend buf (mpCountBytes 0x90 0xdc 0xdd n)

/-- `mp_encode_map`. -/
def mpEncodeMap (n : Nat) (buf : MpBuf) : Except MpStop MpBuf :=
  mpBufAppend buf (mpCountBytes 0x80 0xde 0xdf n)

section Appending

variable {buf : MpBuf} {text s : Bytes}

theorem mpBufNew_holds : mpBufNew.Holds [] := ⟨rfl, rfl, rfl⟩

/-- What the buffer holds is given up, its block is not. -/
theorem MpBuf.Holds.reuse (holds : buf.Holds text) : buf.reuse.Holds [] where
  len := rfl
  size := by
    have size := holds.size
    simp only [MpBuf.reuse]
    omega
  bytes := rfl

theorem length_mpRealloc (target : Block) (nsize : Nat) :
    (mpRealloc target nsize).length = nsize := by
  rw [mpRealloc, List.length_append, List.length_take, List.length_replicate]
  omega

theorem take_mpRealloc {target : Block} {nsize n : Nat} (kept : n ≤ nsize)
    (inside : n ≤ target.length) : (mpRealloc target nsize).take n = target.take n := by
  rw [mpRealloc, List.take_append_of_le_length (by rw [List.length_take]; omega), List.take_take,
    Nat.min_eq_left kept]

/-- An append that has the room. -/
theorem MpBuf.Holds.stored (holds : buf.Holds text) (room : s.length ≤ buf.free) :
    ∃ b, buf.b.storeRange buf.len s = some b ∧
      MpBuf.Holds ⟨b, buf.len + s.length, buf.free - s.length⟩ (text ++ s) := by
  have size := holds.size
  have fits : buf.len + s.length ≤ buf.b.length := by omega
  refine ⟨_, Block.storeRange_of_le fits, ?_, ?_, ?_⟩
  · rw [List.length_append, holds.len]
  · simp only [List.length_append, List.length_take, List.length_drop]
    omega
  · have front : (buf.b.take buf.len).length = buf.len := by
      rw [List.length_take]
      omega
    rw [holds.bytes] at front ⊢
    have whole : buf.len + s.length = (text ++ s).length := by rw [List.length_append, front]
    rw [whole, ← List.append_assoc, List.take_left]

/-- Appending grows the block when it must, and never writes past it. -/
theorem mpBufAppend_holds (holds : buf.Holds text) (short : text.length + s.length < sizeMax / 2) :
    ∃ after, mpBufAppend buf s = .ok after ∧ after.Holds (text ++ s) := by
  have len := holds.len
  have size := holds.size
  rw [mpBufAppend]
  by_cases full : buf.free < s.length
  · have same : (buf.len + s.length) % 2 ^ 64 = buf.len + s.length := by
      apply Nat.mod_eq_of_lt
      rw [sizeMax] at short
      omega
    have grown : MpBuf.Holds ⟨mpRealloc buf.b ((buf.len + s.length) * 2), buf.len,
        (buf.len + s.length) * 2 - buf.len⟩ text := by
      refine ⟨len, ?_, ?_⟩
      · rw [length_mpRealloc]
        simp only
        omega
      · have kept : (mpRealloc buf.b ((buf.len + s.length) * 2)).take buf.len =
            buf.b.take buf.len := take_mpRealloc (by omega) (by omega)
        exact kept.trans holds.bytes
    obtain ⟨b, stored, after⟩ := grown.stored (s := s) (by simp only; omega)
    refine ⟨_, ?_, after⟩
    rw [if_pos full, same, if_neg (by omega)]
    simp only [bind, Except.bind, stored]
  · obtain ⟨b, stored, after⟩ := holds.stored (Nat.not_lt.mp full)
    refine ⟨_, ?_, after⟩
    rw [if_neg full]
    simp only [bind, Except.bind, stored]

/-- A step appends these bytes to whatever the buffer holds. -/
def Appends (step : MpBuf → Except MpStop MpBuf) (bytes : Bytes) : Prop :=
  ∀ buf text, buf.Holds text → text.length + bytes.length < sizeMax / 2 →
    ∃ after, step buf = .ok after ∧ after.Holds (text ++ bytes)

theorem appends_mpBufAppend (s : Bytes) : Appends (mpBufAppend · s) s :=
  fun _ _ holds short => mpBufAppend_holds holds short

theorem appends_nil : Appends .ok [] := by
  intro buf text holds short
  exact ⟨buf, rfl, by rwa [List.append_nil]⟩

/-- One step after the other. -/
theorem Appends.trans {first second : MpBuf → Except MpStop MpBuf} {left right : Bytes}
    (before : Appends first left) (after : Appends second right) :
    Appends (fun buf => first buf >>= second) (left ++ right) := by
  intro buf text holds short
  rw [List.length_append] at short
  obtain ⟨middle, run, here⟩ := before buf text holds (by omega)
  obtain ⟨final, rest, there⟩ := after middle (text ++ left) here (by
    rw [List.length_append]
    omega)
  refine ⟨final, ?_, by rwa [← List.append_assoc]⟩
  change first buf >>= second = .ok final
  rw [run]
  exact rest

theorem appends_mpEncodeBytes (s : Bytes) :
    Appends (mpEncodeBytes s) (mpRawHeader s.length ++ s) :=
  (appends_mpBufAppend (mpRawHeader s.length)).trans (appends_mpBufAppend s)

end Appending

end ValkeyLuajit
