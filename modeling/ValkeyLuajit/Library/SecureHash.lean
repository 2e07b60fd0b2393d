import ValkeyLuajit.Library.BigEndian

/-!
# Hashing block by block

A hash function that works block by block folds its compression function over the whole
blocks of a message. What is left over waits for the bytes that come next, so a message may
arrive in pieces. SHA-1 of FIPS 180 is such a function; it is stated here as the standard
states it, with eighty words of schedule and eighty rounds.
-/

namespace ValkeyLuajit

section Absorb

variable {State : Type} (size : Nat) (compress : State → List UInt8 → State)

/-- Compress the whole blocks, and keep what is left over. -/
def absorb (state : State) (bytes : List UInt8) : State × List UInt8 :=
  if 0 < size ∧ size ≤ bytes.length then
    absorb (compress state (bytes.take size)) (bytes.drop size)
  else (state, bytes)
termination_by bytes.length
decreasing_by simp only [List.length_drop]; omega

variable {size compress} {state : State} {bytes block : List UInt8}

/-- Less than a block waits. -/
theorem absorb_of_lt (short : bytes.length < size) : absorb size compress state bytes = (state, bytes) := by
  rw [absorb, if_neg (by omega)]

/-- A block at the front is compressed first. -/
theorem absorb_block (positive : 0 < size) (full : block.length = size) (rest : List UInt8) :
    absorb size compress state (block ++ rest) = absorb size compress (compress state block) rest := by
  have fits : size ≤ (block ++ rest).length := by
    rw [List.length_append]
    omega
  rw [absorb, if_pos ⟨positive, fits⟩, List.take_left' full, List.drop_left' full]

/-- What is left over is less than a block: what the length leaves. -/
theorem length_absorb (positive : 0 < size) (state : State) (bytes : List UInt8) :
    (absorb size compress state bytes).2.length = bytes.length % size := by
  fun_induction absorb size compress state bytes with
  | case1 state bytes fits inductionHypothesis =>
      rw [inductionHypothesis, List.length_drop, ← Nat.mod_eq_sub_mod fits.2]
  | case2 state bytes short =>
      have less : bytes.length < size := by omega
      exact (Nat.mod_eq_of_lt less).symm

/-- A message may come in two pieces. -/
theorem absorb_append (positive : 0 < size) (state : State) (bytes more : List UInt8) :
    absorb size compress state (bytes ++ more) =
      absorb size compress (absorb size compress state bytes).1
        ((absorb size compress state bytes).2 ++ more) := by
  fun_induction absorb size compress state bytes with
  | case1 state bytes fits inductionHypothesis =>
      have full : (bytes.take size).length = size := by
        rw [List.length_take]
        omega
      have whole : bytes ++ more = bytes.take size ++ (bytes.drop size ++ more) := by
        rw [← List.append_assoc, List.take_append_drop]
      rw [whole, absorb_block positive full, inductionHypothesis]
  | case2 state bytes short => rfl

end Absorb

namespace SecureHash

/-- Rotate a word to the left. -/
def rotl (bits : Nat) (word : UInt32) : UInt32 := ⟨word.toBitVec.rotateLeft bits⟩

/-- The functions `f` of the standard: one for each twenty rounds. -/
def mix (t : Nat) (x y z : UInt32) : UInt32 :=
  if t < 20 then (x &&& y) ^^^ (~~~x &&& z)
  else if t < 40 then x ^^^ y ^^^ z
  else if t < 60 then (x &&& y) ^^^ (x &&& z) ^^^ (y &&& z)
  else x ^^^ y ^^^ z

/-- The constants `K` of the standard. -/
def constant (t : Nat) : UInt32 :=
  if t < 20 then 0x5a827999
  else if t < 40 then 0x6ed9eba1
  else if t < 60 then 0x8f1bbcdc
  else 0xca62c1d6

/-- The message schedule `W`: the words of the block, and then each from four before it. -/
def schedule (block : Nat → UInt32) (t : Nat) : UInt32 :=
  if t < 16 then block t
  else rotl 1 (schedule block (t - 3) ^^^ schedule block (t - 8) ^^^ schedule block (t - 14) ^^^
    schedule block (t - 16))
termination_by t

/-- The five working variables, or the five words of a hash value. -/
@[ext]
structure Chain where
  a : UInt32
  b : UInt32
  c : UInt32
  d : UInt32
  e : UInt32
deriving DecidableEq

/-- The round with number `t`. -/
def round (t : Nat) (word : UInt32) (chain : Chain) : Chain where
  a := rotl 5 chain.a + mix t chain.b chain.c chain.d + chain.e + constant t + word
  b := chain.a
  c := rotl 30 chain.b
  d := chain.c
  e := chain.d

/-- The first `t` rounds. -/
def rounds (words : Nat → UInt32) (chain : Chain) : Nat → Chain
  | 0 => chain
  | t + 1 => round t (words t) (rounds words chain t)

/-- The words of a block, each of four bytes. -/
def blockWords (block : List UInt8) (t : Nat) : UInt32 :=
  UInt32.ofNat (ofBigEndian ((block.drop (4 * t)).take 4))

/-- Eighty rounds over a block, added to what they started from. -/
def compress (chain : Chain) (block : List UInt8) : Chain :=
  let final := rounds (schedule (blockWords block)) chain 80
  ⟨chain.a + final.a, chain.b + final.b, chain.c + final.c, chain.d + final.d, chain.e + final.e⟩

/-- The initial hash value. -/
def initial : Chain := ⟨0x67452301, 0xefcdab89, 0x98badcfe, 0x10325476, 0xc3d2e1f0⟩

/-- A one bit, as few zero bits as end eight bytes before a block does, and the length in bits. -/
def padding (length : Nat) : List UInt8 :=
  0x80 :: List.replicate ((119 - length % 64) % 64) 0 ++ bigEndian 8 (8 * length)

/-- The bytes of a hash value. -/
def Chain.bytes (chain : Chain) : List UInt8 :=
  [chain.a, chain.b, chain.c, chain.d, chain.e].flatMap fun word => bigEndian 4 word.toNat

/-- SHA-1. -/
def sha1 (message : List UInt8) : List UInt8 :=
  (absorb 64 compress initial (message ++ padding message.length)).1.bytes

@[simp] theorem length_bytes (chain : Chain) : chain.bytes.length = 20 := by
  simp [Chain.bytes]

end SecureHash

end ValkeyLuajit
