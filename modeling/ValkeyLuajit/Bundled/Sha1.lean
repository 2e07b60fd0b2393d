import Mathlib.Logic.Function.Basic
import ValkeyLuajit.Library.Block
import ValkeyLuajit.Library.SecureHash

/-!
# SHA-1

`sha1.c`. The rounds are unrolled, with the names of the working variables turned instead
of their values, and the schedule is kept in the sixteen words of the block itself.
Places in memory are checked: a read or write outside is `none`.
-/

namespace ValkeyLuajit

/-- `rol`. -/
def rol (value : UInt32) (bits : UInt32) : UInt32 := (value <<< bits) ||| (value >>> (32 - bits))

namespace Sha1

/-- The working variables. -/
inductive Register where
  | a | b | c | d | e
deriving DecidableEq

/-- What a round works on: the working variables and the block. -/
structure Working where
  a : UInt32
  b : UInt32
  c : UInt32
  d : UInt32
  e : UInt32
  l : Fin 16 → UInt32

namespace Working

/-- The value of a variable. -/
def get (work : Working) : Register → UInt32
  | .a => work.a
  | .b => work.b
  | .c => work.c
  | .d => work.d
  | .e => work.e

/-- Assign to a variable. -/
def set (work : Working) (register : Register) (value : UInt32) : Working :=
  match register with
  | .a => { work with a := value }
  | .b => { work with b := value }
  | .c => { work with c := value }
  | .d => { work with d := value }
  | .e => { work with e := value }

end Working

/-- The order of the bytes in a word of memory. -/
inductive ByteOrder where
  | little
  | big
deriving DecidableEq

/-- `i & 15`. -/
def ring (i : Nat) : Fin 16 := Fin.ofNat 16 i

/-- `blk0`: on a little-endian machine the bytes of the word are turned around. -/
def blk0 (order : ByteOrder) (i : Nat) (l : Fin 16 → UInt32) : UInt32 × (Fin 16 → UInt32) :=
  match order with
  | .little =>
      let word := (rol (l (ring i)) 24 &&& 0xFF00FF00) ||| (rol (l (ring i)) 8 &&& 0x00FF00FF)
      (word, Function.update l (ring i) word)
  | .big => (l (ring i), l)

/-- `blk`. -/
def blk (i : Nat) (l : Fin 16 → UInt32) : UInt32 × (Fin 16 → UInt32) :=
  let word := rol (l (ring (i + 13)) ^^^ l (ring (i + 8)) ^^^ l (ring (i + 2)) ^^^ l (ring i)) 1
  (word, Function.update l (ring i) word)

/-- The macros of the rounds. -/
inductive Macro where
  | R0 | R1 | R2 | R3 | R4
deriving DecidableEq

/-- The words that the macro takes from the block. -/
def Macro.fetch (order : ByteOrder) : Macro → Nat → (Fin 16 → UInt32) → UInt32 × (Fin 16 → UInt32)
  | .R0 => blk0 order
  | .R1 | .R2 | .R3 | .R4 => blk

/-- The bits that the macro mixes. -/
def Macro.mix (w x y : UInt32) : Macro → UInt32
  | .R0 | .R1 => (w &&& (x ^^^ y)) ^^^ y
  | .R2 => w ^^^ x ^^^ y
  | .R3 => ((w ||| x) &&& y) ||| (w &&& x)
  | .R4 => w ^^^ x ^^^ y

/-- The constant that the macro adds. -/
def Macro.constant : Macro → UInt32
  | .R0 | .R1 => 0x5A827999
  | .R2 => 0x6ED9EBA1
  | .R3 => 0x8F1BBCDC
  | .R4 => 0xCA62C1D6

/-- A use of a macro, with its arguments in order. -/
structure Use where
  macroName : Macro
  v : Register
  w : Register
  x : Register
  y : Register
  z : Register
  i : Nat
deriving DecidableEq

/-- `z+=…+rol(v,5);w=rol(w,30);`. -/
def Use.run (order : ByteOrder) (use : Use) (work : Working) : Working :=
  let (word, l) := use.macroName.fetch order use.i work.l
  let work := { work with l := l }
  let mixed := use.macroName.mix (work.get use.w) (work.get use.x) (work.get use.y)
  let work := work.set use.z (work.get use.z +
    (mixed + word + use.macroName.constant + rol (work.get use.v) 5))
  work.set use.w (rol (work.get use.w) 30)

/-- The unrolled loop. -/
def unrolled : List Use := [
  ⟨.R0, .a, .b, .c, .d, .e, 0⟩, ⟨.R0, .e, .a, .b, .c, .d, 1⟩, ⟨.R0, .d, .e, .a, .b, .c, 2⟩,
  ⟨.R0, .c, .d, .e, .a, .b, 3⟩, ⟨.R0, .b, .c, .d, .e, .a, 4⟩, ⟨.R0, .a, .b, .c, .d, .e, 5⟩,
  ⟨.R0, .e, .a, .b, .c, .d, 6⟩, ⟨.R0, .d, .e, .a, .b, .c, 7⟩, ⟨.R0, .c, .d, .e, .a, .b, 8⟩,
  ⟨.R0, .b, .c, .d, .e, .a, 9⟩, ⟨.R0, .a, .b, .c, .d, .e, 10⟩, ⟨.R0, .e, .a, .b, .c, .d, 11⟩,
  ⟨.R0, .d, .e, .a, .b, .c, 12⟩, ⟨.R0, .c, .d, .e, .a, .b, 13⟩, ⟨.R0, .b, .c, .d, .e, .a, 14⟩,
  ⟨.R0, .a, .b, .c, .d, .e, 15⟩, ⟨.R1, .e, .a, .b, .c, .d, 16⟩, ⟨.R1, .d, .e, .a, .b, .c, 17⟩,
  ⟨.R1, .c, .d, .e, .a, .b, 18⟩, ⟨.R1, .b, .c, .d, .e, .a, 19⟩, ⟨.R2, .a, .b, .c, .d, .e, 20⟩,
  ⟨.R2, .e, .a, .b, .c, .d, 21⟩, ⟨.R2, .d, .e, .a, .b, .c, 22⟩, ⟨.R2, .c, .d, .e, .a, .b, 23⟩,
  ⟨.R2, .b, .c, .d, .e, .a, 24⟩, ⟨.R2, .a, .b, .c, .d, .e, 25⟩, ⟨.R2, .e, .a, .b, .c, .d, 26⟩,
  ⟨.R2, .d, .e, .a, .b, .c, 27⟩, ⟨.R2, .c, .d, .e, .a, .b, 28⟩, ⟨.R2, .b, .c, .d, .e, .a, 29⟩,
  ⟨.R2, .a, .b, .c, .d, .e, 30⟩, ⟨.R2, .e, .a, .b, .c, .d, 31⟩, ⟨.R2, .d, .e, .a, .b, .c, 32⟩,
  ⟨.R2, .c, .d, .e, .a, .b, 33⟩, ⟨.R2, .b, .c, .d, .e, .a, 34⟩, ⟨.R2, .a, .b, .c, .d, .e, 35⟩,
  ⟨.R2, .e, .a, .b, .c, .d, 36⟩, ⟨.R2, .d, .e, .a, .b, .c, 37⟩, ⟨.R2, .c, .d, .e, .a, .b, 38⟩,
  ⟨.R2, .b, .c, .d, .e, .a, 39⟩, ⟨.R3, .a, .b, .c, .d, .e, 40⟩, ⟨.R3, .e, .a, .b, .c, .d, 41⟩,
  ⟨.R3, .d, .e, .a, .b, .c, 42⟩, ⟨.R3, .c, .d, .e, .a, .b, 43⟩, ⟨.R3, .b, .c, .d, .e, .a, 44⟩,
  ⟨.R3, .a, .b, .c, .d, .e, 45⟩, ⟨.R3, .e, .a, .b, .c, .d, 46⟩, ⟨.R3, .d, .e, .a, .b, .c, 47⟩,
  ⟨.R3, .c, .d, .e, .a, .b, 48⟩, ⟨.R3, .b, .c, .d, .e, .a, 49⟩, ⟨.R3, .a, .b, .c, .d, .e, 50⟩,
  ⟨.R3, .e, .a, .b, .c, .d, 51⟩, ⟨.R3, .d, .e, .a, .b, .c, 52⟩, ⟨.R3, .c, .d, .e, .a, .b, 53⟩,
  ⟨.R3, .b, .c, .d, .e, .a, 54⟩, ⟨.R3, .a, .b, .c, .d, .e, 55⟩, ⟨.R3, .e, .a, .b, .c, .d, 56⟩,
  ⟨.R3, .d, .e, .a, .b, .c, 57⟩, ⟨.R3, .c, .d, .e, .a, .b, 58⟩, ⟨.R3, .b, .c, .d, .e, .a, 59⟩,
  ⟨.R4, .a, .b, .c, .d, .e, 60⟩, ⟨.R4, .e, .a, .b, .c, .d, 61⟩, ⟨.R4, .d, .e, .a, .b, .c, 62⟩,
  ⟨.R4, .c, .d, .e, .a, .b, 63⟩, ⟨.R4, .b, .c, .d, .e, .a, 64⟩, ⟨.R4, .a, .b, .c, .d, .e, 65⟩,
  ⟨.R4, .e, .a, .b, .c, .d, 66⟩, ⟨.R4, .d, .e, .a, .b, .c, 67⟩, ⟨.R4, .c, .d, .e, .a, .b, 68⟩,
  ⟨.R4, .b, .c, .d, .e, .a, 69⟩, ⟨.R4, .a, .b, .c, .d, .e, 70⟩, ⟨.R4, .e, .a, .b, .c, .d, 71⟩,
  ⟨.R4, .d, .e, .a, .b, .c, 72⟩, ⟨.R4, .c, .d, .e, .a, .b, 73⟩, ⟨.R4, .b, .c, .d, .e, .a, 74⟩,
  ⟨.R4, .a, .b, .c, .d, .e, 75⟩, ⟨.R4, .e, .a, .b, .c, .d, 76⟩, ⟨.R4, .d, .e, .a, .b, .c, 77⟩,
  ⟨.R4, .c, .d, .e, .a, .b, 78⟩, ⟨.R4, .b, .c, .d, .e, .a, 79⟩]

/-- A word as the machine reads it from memory. -/
def nativeWord (order : ByteOrder) (bytes : List UInt8) : UInt32 :=
  match order with
  | .little => UInt32.ofNat (ofBigEndian bytes.reverse)
  | .big => UInt32.ofNat (ofBigEndian bytes)

/-- The words of sixty-four bytes. -/
def nativeWords (order : ByteOrder) (bytes : List UInt8) (i : Fin 16) : UInt32 :=
  nativeWord order ((bytes.drop (4 * i)).take 4)

/-- `uint32_t state[5]`. -/
structure State where
  s0 : UInt32
  s1 : UInt32
  s2 : UInt32
  s3 : UInt32
  s4 : UInt32

/-- `state[i]`. -/
def State.word (state : State) : Nat → UInt32
  | 0 => state.s0
  | 1 => state.s1
  | 2 => state.s2
  | 3 => state.s3
  | _ => state.s4

end Sha1

open Sha1

/-- `SHA1Transform` on the 64 bytes at a place. -/
def sha1Transform (order : ByteOrder) (state : State) (buffer : Block) (place : Int) :
    Option State := do
  let bytes ← buffer.loadRange place 64
  let work : Working := ⟨state.s0, state.s1, state.s2, state.s3, state.s4, nativeWords order bytes⟩
  let work := unrolled.foldl (fun work use => use.run order work) work
  some ⟨state.s0 + work.a, state.s1 + work.b, state.s2 + work.c, state.s3 + work.d,
    state.s4 + work.e⟩

/-- `SHA1_CTX`. `low` and `high` are `count[0]` and `count[1]`. -/
structure Sha1Ctx where
  state : State
  low : UInt32
  high : UInt32
  buffer : Block

/-- `SHA1Init` on a context whose buffer holds anything. -/
def sha1Init (buffer : Block) : Sha1Ctx where
  state := ⟨0x67452301, 0xEFCDAB89, 0x98BADCFE, 0x10325476, 0xC3D2E1F0⟩
  low := 0
  high := 0
  buffer := buffer

/-- `memcpy` from one block to another. -/
def memcpy (dest : Block) (target : Int) (src : Block) (start : Int) (n : Nat) : Option Block := do
  let bytes ← src.loadRange start n
  dest.storeRange target bytes

/-- `for ( ; i + 63 < len; i += 64)`, at most `fuel` times. -/
def sha1Blocks (order : ByteOrder) (data : Block) (len : UInt32) :
    Nat → State → UInt32 → Option (State × UInt32)
  | 0, _, _ => none
  | fuel + 1, state, i =>
      if i + 63 < len then do
        let state ← sha1Transform order state data i.toNat
        sha1Blocks order data len fuel state (i + 64)
      else some (state, i)

/-- `SHA1Update`. Words wrap; the loop cannot need more rounds than there are blocks. -/
def sha1Update (order : ByteOrder) (context : Sha1Ctx) (data : Block) (len : UInt32) :
    Option Sha1Ctx := do
  let j := context.low
  let low := j + (len <<< 3)
  let high := (if low < j then context.high + 1 else context.high) + (len >>> 29)
  let j := (j >>> 3) &&& 63
  if j + len > 63 then do
    let i := 64 - j
    let buffer ← memcpy context.buffer j.toNat data 0 i.toNat
    let state ← sha1Transform order context.state buffer 0
    let (state, i) ← sha1Blocks order data len (len.toNat / 64 + 1) state i
    let buffer ← memcpy buffer 0 data i.toNat (len - i).toNat
    some ⟨state, low, high, buffer⟩
  else do
    let buffer ← memcpy context.buffer j.toNat data 0 len.toNat
    some ⟨context.state, low, high, buffer⟩

/-- `while ((context->count[0] & 504) != 448)`, at most `fuel` times. -/
def sha1Pad (order : ByteOrder) : Nat → Sha1Ctx → Option Sha1Ctx
  | 0, _ => none
  | fuel + 1, context =>
      if context.low &&& 504 = 448 then some context
      else do
        let context ← sha1Update order context [0] 1
        sha1Pad order fuel context

/-- `(unsigned char) ((word >> ((3-(i & 3)) * 8)) & 255)`. -/
def byteOf (word : UInt32) (i : Nat) : UInt8 :=
  ((word >>> UInt32.ofNat ((3 - i % 4) * 8)) &&& 255).toUInt8

/-- `SHA1Final`: the digest. The count needs at most 64 more bytes to reach its place. -/
def sha1Final (order : ByteOrder) (context : Sha1Ctx) : Option Block := do
  let finalcount := List.ofFn fun i : Fin 8 =>
    byteOf (if 4 ≤ i.val then context.low else context.high) i
  let context ← sha1Update order context [0x80] 1
  let context ← sha1Pad order 64 context
  let context ← sha1Update order context finalcount 8
  some (List.ofFn fun i : Fin 20 => byteOf (context.state.word (i / 4)) i)

end ValkeyLuajit
