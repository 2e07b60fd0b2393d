import ValkeyLuajit.Bundled.Sha1Stream
import ValkeyLuajit.Script.Log

/-!
# Digests of texts

`server.sha1hex` hands the bytes of its argument to `sha1.c` in one piece and returns the
digest as forty hexadecimal digits.
-/

namespace ValkeyLuajit

open Lua

/-- `cset`. -/
def sha1Cset : Bytes := bytes "0123456789abcdef"

/-- `sha1hex`: the 41 characters of `digest`. `SHA1Init` leaves the buffer of the context as
it finds it on the stack. -/
def sha1hex (order : Sha1.ByteOrder) (stack : Vector UInt8 64) (script : Bytes) : Option Bytes := do
  let context ← sha1Update order (sha1Init stack.toList) script (UInt32.ofNat script.length)
  let hash ← sha1Final order context
  let digits := hash.flatMap fun (byte : UInt8) =>
    [sha1Cset.getD ((byte &&& 0xF0) >>> 4).toNat 0, sha1Cset.getD (byte &&& 0xF).toNat 0]
  some (digits ++ [0])

section

variable {σ : Type} (rt : Runtime) (order : Sha1.ByteOrder) (stack : Vector UInt8 64)

/-- `server.sha1hex`. A value without a text is NULL, of length zero. -/
def luajitRedisSha1hexCommand : LuaM σ Unit := do
  let argc ← luaGetTop
  if argc ≠ 1 then do
    luajitPushError rt "wrong number of arguments"
    luajitError
  else do
    let argument ← luaValue 1
    match sha1hex order stack ((argument.toLString rt).getD []) with
    | some digest => luaPush (.string (cString digest))
    | none => fun world => .aborted "access outside of an object" world

end

/-- A byte as two hexadecimal digits, in lower case. -/
def hexByte (byte : UInt8) : Bytes :=
  let digit (n : Nat) : UInt8 := UInt8.ofNat (if n < 10 then 48 + n else 87 + n)
  [digit (byte.toNat / 16), digit (byte.toNat % 16)]

/-- Bytes as hexadecimal digits. -/
def hexadecimal (hash : Bytes) : Bytes := hash.flatMap hexByte

/-- What holds of the bytes one by one holds of all. -/
theorem forall_byte {p : UInt8 → Prop} (each : ∀ n : Fin 256, p (UInt8.ofNat n)) (byte : UInt8) :
    p byte := by
  have this := each ⟨byte.toNat, byte.toNat_lt⟩
  rwa [UInt8.ofNat_toNat] at this

/-- The two characters that the loop writes for a byte are its hexadecimal digits. -/
theorem hexByte_eq (byte : UInt8) :
    [sha1Cset.getD ((byte &&& 0xF0) >>> 4).toNat 0, sha1Cset.getD (byte &&& 0xF).toNat 0] =
      hexByte byte := by
  apply forall_byte (p := fun byte =>
    [sha1Cset.getD ((byte &&& 0xF0) >>> 4).toNat 0, sha1Cset.getD (byte &&& 0xF).toNat 0] = hexByte byte)
  decide +kernel

/-- No digit is a NUL. -/
theorem zero_notMem_hexadecimal (hash : Bytes) : (0 : UInt8) ∉ hexadecimal hash := by
  have digits : ∀ n : Fin 256, (0 : UInt8) ∉ hexByte (UInt8.ofNat n) := by decide +kernel
  rw [hexadecimal, List.mem_flatMap]
  rintro ⟨byte, -, null⟩
  exact forall_byte (p := fun byte => (0 : UInt8) ∉ hexByte byte) digits byte null

/-- There are two digits for each byte. -/
theorem length_hexadecimal (hash : Bytes) : (hexadecimal hash).length = 2 * hash.length := by
  induction hash with
  | nil => rfl
  | cons byte hash inductionHypothesis =>
      rw [hexadecimal, List.flatMap_cons, List.length_append, ← hexadecimal, inductionHypothesis,
        List.length_cons, hexByte]
      simp
      omega

/-- The digest of a text, digit by digit, in any byte order. -/
theorem sha1hex_eq (order : Sha1.ByteOrder) (stack : Vector UInt8 64) {script : Bytes}
    (short : Sha1.Short script) :
    sha1hex order stack script = some (hexadecimal (SecureHash.sha1 script) ++ [0]) := by
  have start : Sha1.Represents (sha1Init stack.toList) [] := Sha1.represents_init (by simp)
  obtain ⟨next, updated, seen⟩ := sha1Update_represents order start short
  simp only [sha1hex, updated, sha1Final_represents order seen, Option.bind_eq_bind,
    Option.bind_some, List.nil_append, hexByte_eq]
  rfl

section

variable {σ : Type} (rt : Runtime) (order : Sha1.ByteOrder) (stack : Vector UInt8 64)
  (base : List Value) (breached : Bool) (lua : State) (host : σ) (calls : List (FuncRef × State))

/-- `server.sha1hex` of a value gives the SHA-1 of its text, or of nothing when it has none, in
forty hexadecimal digits, and changes nothing else. -/
theorem luajitRedisSha1hexCommand_returns {value : Value}
    (short : Sha1.Short ((value.toLString rt).getD [])) :
    ∃ digest, luajitRedisSha1hexCommand rt order stack ⟨[value], base, breached, lua, host, calls⟩ =
        .done () ⟨[.string digest, value], base, breached, lua, host, calls⟩ ∧
      digest = hexadecimal (SecureHash.sha1 ((value.toLString rt).getD [])) ∧
      digest.length = 40 := by
  generalize text : (value.toLString rt).getD [] = script at short
  have digest : cString (hexadecimal (SecureHash.sha1 script) ++ [0]) =
      hexadecimal (SecureHash.sha1 script) := by
    rw [cString, List.takeWhile_append_of_pos]
    · simp
    · intro char member
      have absent := zero_notMem_hexadecimal (SecureHash.sha1 script)
      simpa using ne_of_mem_of_not_mem member absent
  refine ⟨hexadecimal (SecureHash.sha1 script), ?_, rfl, ?_⟩
  · simp [luajitRedisSha1hexCommand, luaGetTop, luaValue, World.get, World.stack, World.slot, text,
      sha1hex_eq order stack short, digest, luaPush, World.push]
  · rw [length_hexadecimal, SecureHash.sha1, SecureHash.length_bytes]

theorem luajitRedisSha1hexCommand_abc : ∃ digest,
    luajitRedisSha1hexCommand .plain .little (Vector.replicate 64 0) ⟨[.string (bytes "abc")], [],
        false, ⟨default, 0, fun _ => .nil, fun _ => .empty, none⟩, (), []⟩ =
      .done () ⟨[.string digest, .string (bytes "abc")], [], false,
        ⟨default, 0, fun _ => .nil, fun _ => .empty, none⟩, (), []⟩ ∧
    digest = hexadecimal (SecureHash.sha1 (bytes "abc")) ∧ digest.length = 40 :=
  luajitRedisSha1hexCommand_returns .plain .little (Vector.replicate 64 0) [] false
    ⟨default, 0, fun _ => .nil, fun _ => .empty, none⟩ () [] (by
      show (bytes "abc").length ≤ 2 ^ 32 - 64
      decide)

end

end ValkeyLuajit
