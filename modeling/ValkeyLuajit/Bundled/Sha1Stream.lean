import ValkeyLuajit.Bundled.Sha1Rounds

/-!
# Messages in pieces

`Represents` says what a context knows about the message so far. `SHA1Update` goes from the
message to the message and the piece, wherever the pieces are cut and although the count of
bits wraps twice; `SHA1Final` adds the padding of the standard the same way.
-/

namespace ValkeyLuajit

open Sha1

namespace Sha1

/-- Absorb bytes with the compression function of the standard. -/
def absorbed (chain : SecureHash.Chain) (bytes : List UInt8) : SecureHash.Chain × List UInt8 :=
  absorb 64 SecureHash.compress chain bytes

section Absorbed

variable {chain : SecureHash.Chain} {bytes block : List UInt8}

theorem absorbed_of_lt (short : bytes.length < 64) : absorbed chain bytes = (chain, bytes) :=
  absorb_of_lt short

theorem absorbed_block (full : block.length = 64) (rest : List UInt8) :
    absorbed chain (block ++ rest) = absorbed (SecureHash.compress chain block) rest :=
  absorb_block (by decide) full rest

theorem absorbed_append (chain : SecureHash.Chain) (bytes more : List UInt8) :
    absorbed chain (bytes ++ more) =
      absorbed (absorbed chain bytes).1 ((absorbed chain bytes).2 ++ more) :=
  absorb_append (by decide) chain bytes more

theorem length_absorbed (chain : SecureHash.Chain) (bytes : List UInt8) :
    (absorbed chain bytes).2.length = bytes.length % 64 :=
  length_absorb (by decide) chain bytes

end Absorbed

/-- The context has seen this message. -/
structure Represents (context : Sha1Ctx) (message : List UInt8) : Prop where
  state : chainOf context.state = (absorbed SecureHash.initial message).1
  waiting : context.buffer.take (message.length % 64) = (absorbed SecureHash.initial message).2
  size : context.buffer.length = 64
  low : context.low.toNat = 8 * message.length % 2 ^ 32
  high : context.high.toNat = 8 * message.length / 2 ^ 32 % 2 ^ 32

variable {context : Sha1Ctx} {message data : List UInt8}

theorem represents_init {buffer : Block} (size : buffer.length = 64) :
    Represents (sha1Init buffer) [] where
  state := by
    rw [absorbed_of_lt (by decide)]
    rfl
  waiting := by
    rw [absorbed_of_lt (by decide)]
    rfl
  size := size
  low := rfl
  high := rfl

/-- How many bytes wait in the buffer. -/
theorem Represents.place (seen : Represents context message) :
    ((context.low >>> 3) &&& 63).toNat = message.length % 64 := by
  have mask : (63 : Nat) = 2 ^ 6 - 1 := rfl
  rw [UInt32.toNat_and, UInt32.toNat_shiftRight, seen.low]
  simp [Nat.shiftRight_eq_div_pow]
  rw [mask, Nat.and_two_pow_sub_one_eq_mod]
  omega

/-- The length of a piece that `SHA1Update` takes. With a longer one its counters wrap. -/
def Short (data : List UInt8) : Prop := data.length ≤ 2 ^ 32 - 64

theorem Short.toNat (short : Short data) : (UInt32.ofNat data.length).toNat = data.length := by
  unfold Short at short
  rw [UInt32.toNat_ofNat', Nat.mod_eq_of_lt (by omega)]

/-- The count of bits, in two words. -/
theorem Represents.counts (seen : Represents context message) (short : Short data) :
    (context.low + (UInt32.ofNat data.length <<< 3)).toNat =
        8 * (message ++ data).length % 2 ^ 32 ∧
      ((if context.low + (UInt32.ofNat data.length <<< 3) < context.low then
        context.high + 1 else context.high) + (UInt32.ofNat data.length >>> 29)).toNat =
        8 * (message ++ data).length / 2 ^ 32 % 2 ^ 32 := by
  have shifted : (UInt32.ofNat data.length <<< 3).toNat = 8 * data.length % 2 ^ 32 := by
    rw [UInt32.toNat_shiftLeft, short.toNat]
    simp [Nat.shiftLeft_eq, Nat.mul_comm]
  have carried : (UInt32.ofNat data.length >>> 29).toNat = data.length / 2 ^ 29 := by
    rw [UInt32.toNat_shiftRight, short.toNat]
    simp [Nat.shiftRight_eq_div_pow]
  have low : (context.low + (UInt32.ofNat data.length <<< 3)).toNat =
      8 * (message ++ data).length % 2 ^ 32 := by
    rw [UInt32.toNat_add, seen.low, shifted, List.length_append]
    omega
  refine ⟨low, ?_⟩
  unfold Short at short
  by_cases wraps : context.low + (UInt32.ofNat data.length <<< 3) < context.low
  · have less := UInt32.lt_iff_toNat_lt.mp wraps
    rw [low, seen.low, List.length_append] at less
    rw [if_pos wraps, UInt32.toNat_add, UInt32.toNat_add, seen.high, carried, List.length_append]
    simp
    omega
  · have more := mt UInt32.lt_iff_toNat_lt.mpr wraps
    rw [low, seen.low, List.length_append] at more
    rw [if_neg wraps, UInt32.toNat_add, seen.high, carried, List.length_append]
    omega

/-- `memcpy` inside both blocks. -/
theorem memcpy_of_le {dest src : Block} {target start n : Nat} (room : target + n ≤ dest.length)
    (there : start + n ≤ src.length) : memcpy dest target src start n =
      some (dest.take target ++ ((src.drop start).take n ++ dest.drop (target + n))) := by
  have length : ((src.drop start).take n).length = n := by
    rw [List.length_take, List.length_drop]
    omega
  rw [memcpy, Block.loadRange_of_le there, Option.bind_eq_bind, Option.bind_some,
    Block.storeRange_of_le (by omega), length]

/-- The blocks that lie whole in the data are absorbed, and the rest is not. -/
theorem sha1Blocks_eq (order : ByteOrder) (state : State) (short : Short data)
    {fuel : Nat} {i : UInt32}
    (inside : i.toNat ≤ data.length) (enough : data.length < i.toNat + 64 * fuel) :
    ∃ last j, sha1Blocks order data (UInt32.ofNat data.length) fuel state i = some (last, j) ∧
      j.toNat ≤ data.length ∧
      (chainOf last, data.drop j.toNat) = absorbed (chainOf state) (data.drop i.toNat) := by
  induction fuel generalizing state i with
  | zero => omega
  | succ fuel inductionHypothesis =>
      have size := short
      unfold Short at size
      have sum : (i + 63).toNat = i.toNat + 63 := by
        rw [UInt32.toNat_add, Nat.mod_eq_of_lt]
        · rfl
        · simp only [UInt32.reduceToNat]
          omega
      rw [sha1Blocks]
      by_cases whole : i + 63 < UInt32.ofNat data.length
      · have fits := UInt32.lt_iff_toNat_lt.mp whole
        rw [sum, short.toNat] at fits
        have sum64 : (i + 64).toNat = i.toNat + 64 := by
          rw [UInt32.toNat_add, Nat.mod_eq_of_lt]
          · rfl
          · simp only [UInt32.reduceToNat]
            omega
        have full : ((data.drop i.toNat).take 64).length = 64 := by
          rw [List.length_take, List.length_drop]
          omega
        obtain ⟨next, transformed, compressed⟩ := sha1Transform_eq order state
          (Block.loadRange_of_le (show i.toNat + 64 ≤ data.length by omega)) full
        obtain ⟨last, j, ran, bound, rest⟩ := inductionHypothesis next (show (i + 64).toNat ≤ data.length by omega)
          (by omega)
        refine ⟨last, j, ?_, bound, ?_⟩
        · rw [if_pos whole, transformed]
          exact ran
        · rw [rest, compressed, sum64, ← absorbed_block full, ← List.drop_drop,
            List.take_append_drop]
      · have fits := mt UInt32.lt_iff_toNat_lt.mpr whole
        rw [sum, short.toNat] at fits
        refine ⟨state, i, if_neg whole, inside, ?_⟩
        rw [absorbed_of_lt]
        rw [List.length_drop]
        omega

/-- The bytes that wait are those of the message that no block took. -/
theorem Represents.length_waiting (seen : Represents context message) :
    (context.buffer.take (message.length % 64)).length = message.length % 64 := by
  rw [seen.waiting, length_absorbed]

/-- A message and a piece that does not fill the buffer. -/
theorem Represents.absorbed_of_lt (seen : Represents context message)
    (short : message.length % 64 + data.length < 64) :
    absorbed SecureHash.initial (message ++ data) =
      (chainOf context.state, context.buffer.take (message.length % 64) ++ data) := by
  rw [absorbed_append, ← seen.waiting, ← seen.state, Sha1.absorbed_of_lt]
  rw [List.length_append, seen.length_waiting]
  exact short

/-- A message and a piece that fills the buffer: one block, and the piece goes on. -/
theorem Represents.absorbed_of_le (seen : Represents context message)
    (full : 64 ≤ message.length % 64 + data.length) :
    absorbed SecureHash.initial (message ++ data) =
      absorbed (SecureHash.compress (chainOf context.state)
        (context.buffer.take (message.length % 64) ++ data.take (64 - message.length % 64)))
        (data.drop (64 - message.length % 64)) := by
  have block : (context.buffer.take (message.length % 64) ++
      data.take (64 - message.length % 64)).length = 64 := by
    rw [List.length_append, seen.length_waiting, List.length_take]
    omega
  rw [absorbed_append, ← seen.waiting, ← seen.state, ← absorbed_block block, List.append_assoc,
    List.take_append_drop]

/-- What the buffer holds after the bytes of the message is no matter. -/
theorem Represents.intro {next : Sha1Ctx} {waiting : List UInt8}
    (state : (chainOf next.state, waiting) = absorbed SecureHash.initial message)
    (buffer : next.buffer.take waiting.length = waiting) (size : next.buffer.length = 64)
    (low : next.low.toNat = 8 * message.length % 2 ^ 32)
    (high : next.high.toNat = 8 * message.length / 2 ^ 32 % 2 ^ 32) :
    Represents next message where
  state := congrArg Prod.fst state
  waiting := by
    rw [← state, ← length_absorbed SecureHash.initial message, ← state]
    exact buffer
  size := size
  low := low
  high := high

/-- `memcpy` in front of a block, up to the end of the data. -/
theorem memcpy_tail {dest src : Block} {start : Nat} (inside : start ≤ src.length)
    (room : src.length - start ≤ dest.length) :
    ∃ copied, memcpy dest (0 : Nat) src start (src.length - start) = some copied ∧
      copied.length = dest.length ∧ copied.take (src.drop start).length = src.drop start := by
  have rest : (src.drop start).take (src.length - start) = src.drop start :=
    List.take_of_length_le (Nat.le_of_eq List.length_drop)
  refine ⟨_, memcpy_of_le (by omega) (by omega), ?_, ?_⟩
  · rw [rest]
    simp
    omega
  · rw [rest, List.take_zero, List.nil_append]
    simp

/-- A piece that fills the buffer. -/
theorem Represents.update_full (order : ByteOrder) (seen : Represents context message) (short : Short data)
    {j : UInt32} (place : j.toNat = message.length % 64)
    (full : 64 ≤ message.length % 64 + data.length) :
    ∃ buffer one last k copied,
      memcpy context.buffer j.toNat data (0 : Nat) (64 - j).toNat = some buffer ∧
      sha1Transform order context.state buffer (0 : Nat) = some one ∧
      sha1Blocks order data (UInt32.ofNat data.length)
        ((UInt32.ofNat data.length).toNat / 64 + 1) one (64 - j) = some (last, k) ∧
      memcpy buffer (0 : Nat) data k.toNat (UInt32.ofNat data.length - k).toNat = some copied ∧
      copied.length = 64 ∧ copied.take (data.drop k.toNat).length = data.drop k.toNat ∧
      (chainOf last, data.drop k.toNat) = absorbed SecureHash.initial (message ++ data) := by
  have less : message.length % 64 < 64 := Nat.mod_lt _ (by decide)
  have rest : (64 - j).toNat = 64 - message.length % 64 := by
    rw [UInt32.toNat_sub_of_le, place]
    · rfl
    · rw [UInt32.le_iff_toNat_le, place]
      exact Nat.le_of_lt less
  have whole : message.length % 64 + (64 - message.length % 64) = 64 := by omega
  have room : message.length % 64 + (64 - message.length % 64) ≤ context.buffer.length := by
    rw [seen.size]
    omega
  have filled := memcpy_of_le room (show 0 + (64 - message.length % 64) ≤ data.length by omega)
  rw [whole, List.drop_zero, List.drop_of_length_le (Nat.le_of_eq seen.size),
    List.append_nil] at filled
  have continued := seen.absorbed_of_le full
  generalize block : context.buffer.take (message.length % 64) ++
    data.take (64 - message.length % 64) = buffer at continued filled
  have length : buffer.length = 64 := by
    rw [← block, List.length_append, seen.length_waiting, List.length_take]
    omega
  have read : Block.loadRange buffer (0 : Nat) 64 = some buffer := by
    rw [Block.loadRange_of_le (by omega), List.drop_zero, List.take_of_length_le (by omega)]
  obtain ⟨one, transformed, compressed⟩ := sha1Transform_eq order context.state read length
  have enough : data.length <
      (64 - j).toNat + 64 * ((UInt32.ofNat data.length).toNat / 64 + 1) := by
    rw [short.toNat]
    omega
  obtain ⟨last, k, ran, bound, finished⟩ := sha1Blocks_eq order one short (by omega) enough
  rw [rest, compressed, ← continued] at finished
  have left : data.length - k.toNat = (message ++ data).length % 64 := by
    rw [← length_absorbed SecureHash.initial, ← finished, List.length_drop]
  have tail : (UInt32.ofNat data.length - k).toNat = data.length - k.toNat := by
    rw [UInt32.toNat_sub_of_le, short.toNat]
    rw [UInt32.le_iff_toNat_le, short.toNat]
    exact bound
  obtain ⟨copied, copy, size, front⟩ := memcpy_tail bound (show data.length - k.toNat ≤ buffer.length by omega)
  refine ⟨buffer, one, last, k, copied, ?_, transformed, ran, ?_, by omega, front, finished⟩
  · rw [place, rest]
    exact filled
  · rw [tail]
    exact copy

/-- A piece that does not fill the buffer. -/
theorem Represents.update_short (seen : Represents context message)
    (short : message.length % 64 + data.length < 64) :
    ∃ copied, memcpy context.buffer (message.length % 64 : Nat) data (0 : Nat) data.length = some copied ∧
      copied.length = 64 ∧
      (chainOf context.state, copied.take (message.length % 64 + data.length)) =
        absorbed SecureHash.initial (message ++ data) := by
  have size := seen.size
  have wait := seen.length_waiting
  refine ⟨_, memcpy_of_le (by omega) (by omega), ?_, ?_⟩
  · simp
    omega
  · rw [seen.absorbed_of_lt short, ← List.append_assoc, List.take_left']
    · simp
    · simp
      omega

end Sha1

/-- `SHA1Update` with a piece of the message: nothing outside the buffer and the piece is read
or written, and the context has then seen the piece too. -/
theorem sha1Update_represents (order : ByteOrder) {context : Sha1Ctx} {message data : List UInt8}
    (seen : Represents context message) (short : Short data) :
    ∃ next, sha1Update order context data (UInt32.ofNat data.length) = some next ∧
      Represents next (message ++ data) := by
  obtain ⟨low, high⟩ := seen.counts short
  have place := seen.place
  have less : message.length % 64 < 64 := Nat.mod_lt _ (by decide)
  generalize first : (context.low >>> 3) &&& 63 = j at place
  have sum : (j + UInt32.ofNat data.length).toNat = message.length % 64 + data.length := by
    have size := short
    unfold Short at size
    rw [UInt32.toNat_add, place, short.toNat, Nat.mod_eq_of_lt]
    omega
  simp only [sha1Update, first]
  by_cases full : j + UInt32.ofNat data.length > 63
  · have fits := UInt32.lt_iff_toNat_lt.mp full
    rw [sum] at fits
    obtain ⟨buffer, one, last, k, copied, filled, transformed, ran, copy, size, front, finished⟩ :=
      seen.update_full order short place fits
    refine ⟨⟨last, _, _, copied⟩, ?_, .intro finished front size low high⟩
    have filled : memcpy context.buffer j.toNat data 0 (64 - j).toNat = some buffer := filled
    have transformed : sha1Transform order context.state buffer 0 = some one := transformed
    have copy : memcpy buffer 0 data k.toNat (UInt32.ofNat data.length - k).toNat = some copied :=
      copy
    simp only [if_pos full, filled, transformed, ran, copy, Option.bind_eq_bind, Option.bind_some]
  · have fits := mt UInt32.lt_iff_toNat_lt.mpr full
    rw [sum] at fits
    have room : message.length % 64 + data.length < 64 := Nat.lt_of_not_le fits
    obtain ⟨copied, copy, size, finished⟩ := seen.update_short room
    have copy : memcpy context.buffer j.toNat data 0 (UInt32.ofNat data.length).toNat =
        some copied := by
      rw [place, short.toNat]
      exact copy
    refine ⟨⟨context.state, _, _, copied⟩, ?_, .intro finished ?_ size low high⟩
    · simp only [if_neg full, copy, Option.bind_eq_bind, Option.bind_some]
    · simp

/-- A message that comes in pieces. -/
theorem sha1Update_pieces (order : ByteOrder) {context : Sha1Ctx} {message : List UInt8}
    {pieces : List (List UInt8)} (seen : Represents context message)
    (short : ∀ piece ∈ pieces, Short piece) :
    ∃ next, pieces.foldlM (fun context piece =>
        sha1Update order context piece (UInt32.ofNat piece.length)) context = some next ∧
      Represents next (message ++ pieces.flatten) := by
  induction pieces generalizing context message with
  | nil => exact ⟨context, rfl, by simpa using seen⟩
  | cons piece pieces inductionHypothesis =>
      obtain ⟨middle, updated, between⟩ := sha1Update_represents order seen (short piece (by simp))
      obtain ⟨next, ran, after⟩ := inductionHypothesis between
        (fun other member => short other (List.mem_cons_of_mem _ member))
      refine ⟨next, ?_, ?_⟩
      · rw [List.foldlM_cons, updated]
        exact ran
      · rw [List.flatten_cons, ← List.append_assoc]
        exact after

section Padding

variable {context : Sha1Ctx} {message : List UInt8}

theorem Sha1.and_504 (n : Nat) : n &&& 504 = n / 8 % 64 * 8 := by
  have mask : 504 = 63 <<< 3 := rfl
  have low : n / 8 &&& 63 = n / 8 % 64 := Nat.and_two_pow_sub_one_eq_mod (n / 8) 6
  have high : (n / 8 &&& 63) <<< 3 = (n / 8 &&& 63) * 8 := Nat.shiftLeft_eq ..
  have eighth : n / 8 = n / 2 ^ 3 := rfl
  rw [← low, ← high, Nat.shiftLeft_and_distrib, eighth]
  apply Nat.eq_of_testBit_eq
  intro i
  simp only [mask, Nat.testBit_and, Nat.testBit_shiftLeft, Nat.testBit_div_two_pow]
  by_cases above : 3 ≤ i
  · simp [above]
  · simp [above]

/-- Where the padding stops: eight bytes before the end of a block. -/
theorem Sha1.Represents.stops_iff (seen : Represents context message) :
    context.low &&& 504 = 448 ↔ message.length % 64 = 56 := by
  have mask : (504 : UInt32).toNat = 504 := rfl
  have stop : (448 : UInt32).toNat = 448 := rfl
  rw [← UInt32.toNat_inj, UInt32.toNat_and, mask, stop, and_504, seen.low]
  omega

/-- Zeros up to eight bytes before the end of a block. -/
theorem sha1Pad_represents (order : ByteOrder) (seen : Represents context message) {fuel : Nat}
    (enough : (120 - message.length % 64) % 64 < fuel) :
    ∃ next, sha1Pad order fuel context = some next ∧
      Represents next (message ++ List.replicate ((120 - message.length % 64) % 64) 0) := by
  induction fuel generalizing context message with
  | zero => omega
  | succ fuel inductionHypothesis =>
      rw [sha1Pad]
      by_cases stops : message.length % 64 = 56
      · refine ⟨context, if_pos (seen.stops_iff.mpr stops), ?_⟩
        simpa [stops] using seen
      · have one : Short [(0 : UInt8)] := by
          unfold Short
          simp
        obtain ⟨middle, updated, between⟩ := sha1Update_represents order seen one
        have fewer : (120 - message.length % 64) % 64 =
            (120 - (message ++ [(0 : UInt8)]).length % 64) % 64 + 1 := by
          simp
          omega
        obtain ⟨next, ran, after⟩ := inductionHypothesis between (by omega)
        refine ⟨next, ?_, ?_⟩
        · rw [if_neg (mt seen.stops_iff.mp stops)]
          have updated : sha1Update order context [0] 1 = some middle := updated
          rw [updated]
          exact ran
        · rw [fewer, List.replicate_succ]
          simpa using after

theorem Sha1.byteOf_eq (word : UInt32) (i : Nat) :
    byteOf word i = UInt8.ofNat (word.toNat / 256 ^ (3 - i % 4)) := by
  have shift : (UInt32.ofNat ((3 - i % 4) * 8)).toNat = 8 * (3 - i % 4) := by
    rw [UInt32.toNat_ofNat', Nat.mod_eq_of_lt] <;> omega
  have power : 2 ^ (8 * (3 - i % 4)) = 256 ^ (3 - i % 4) := Nat.pow_mul 2 8 _
  have small : 8 * (3 - i % 4) % 32 = 8 * (3 - i % 4) := Nat.mod_eq_of_lt (by omega)
  have mask : (255 : UInt32).toNat = 2 ^ 8 - 1 := rfl
  apply UInt8.toNat_inj.mp
  rw [byteOf, UInt32.toNat_toUInt8, UInt32.toNat_and, UInt32.toNat_shiftRight, shift,
    UInt8.toNat_ofNat', small, Nat.shiftRight_eq_div_pow, power, mask,
    Nat.and_two_pow_sub_one_eq_mod, Nat.mod_mod]

/-- The bytes of the count are the length in bits. -/
theorem Sha1.Represents.finalcount (seen : Represents context message) :
    (List.ofFn fun i : Fin 8 =>
      byteOf (if 4 ≤ i.val then context.low else context.high) i) =
      bigEndian 8 (8 * message.length) := by
  have halves : bigEndian 8 (8 * message.length) =
      bigEndian 4 context.high.toNat ++ bigEndian 4 context.low.toNat := by
    have word : 256 ^ 4 = 2 ^ 32 := rfl
    rw [seen.low, seen.high, bigEndian_append 4 4, ← bigEndian_mod 4 (8 * message.length),
      ← bigEndian_mod 4 (8 * message.length / 256 ^ 4), word]
  rw [halves]
  simp only [List.ofFn_succ, byteOf_eq]
  rfl

theorem Sha1.digest_eq (state : State) :
    (List.ofFn fun i : Fin 20 => byteOf (state.word (i / 4)) i) = (chainOf state).bytes := by
  simp only [List.ofFn_succ, byteOf_eq]
  rfl

/-- `SHA1Final` pads the message as the standard does, and gives its hash value. -/
theorem sha1Final_represents (order : ByteOrder) (seen : Represents context message) :
    sha1Final order context = some (SecureHash.sha1 message) := by
  have one : Short [(0x80 : UInt8)] := by
    unfold Short
    simp
  obtain ⟨first, marked, afterMark⟩ := sha1Update_represents order seen one
  have marked : sha1Update order context [0x80] 1 = some first := marked
  have enough : (120 - (message ++ [(0x80 : UInt8)]).length % 64) % 64 < 64 := Nat.mod_lt _ (by decide)
  obtain ⟨second, padded, afterZeros⟩ := sha1Pad_represents order afterMark enough
  have eight : Short (bigEndian 8 (8 * message.length)) := by
    unfold Short
    simp
  obtain ⟨third, counted, afterCount⟩ := sha1Update_represents order afterZeros eight
  rw [length_bigEndian] at counted
  have counted : sha1Update order second (bigEndian 8 (8 * message.length)) 8 = some third := counted
  have zeros : (120 - (message ++ [(0x80 : UInt8)]).length % 64) % 64 =
      (119 - message.length % 64) % 64 := by
    rw [List.length_append, List.length_singleton]
    omega
  have whole : message ++ [0x80] ++ List.replicate ((119 - message.length % 64) % 64) 0 ++
      bigEndian 8 (8 * message.length) = message ++ SecureHash.padding message.length := by
    simp [SecureHash.padding]
  rw [zeros, whole] at afterCount
  simp only [sha1Final, seen.finalcount, marked, padded, counted, Option.bind_eq_bind,
    Option.bind_some, digest_eq, afterCount.state]
  rfl

end Padding

/-- However a message is cut into pieces, its SHA-1 is that of the standard, and no byte outside
the pieces and the context is read or written. -/
theorem sha1_pieces (order : ByteOrder) (stack : Vector UInt8 64) (pieces : List (List UInt8))
    (short : ∀ piece ∈ pieces, Short piece) :
    (do
      let context ← pieces.foldlM (fun context piece =>
        sha1Update order context piece (UInt32.ofNat piece.length)) (sha1Init stack.toList)
      sha1Final order context) = some (SecureHash.sha1 pieces.flatten) := by
  have start : Represents (sha1Init stack.toList) [] := represents_init (by simp)
  obtain ⟨next, updated, seen⟩ := sha1Update_pieces order start short
  rw [updated]
  exact sha1Final_represents order seen

/-- The second piece fills the block that the first began, and two more. -/
def threeBlocks : List (List UInt8) := [[97, 98], List.replicate 200 120, [], [99]]

theorem threeBlocks_short : ∀ piece ∈ threeBlocks, Short piece := by
  intro piece member
  unfold Short
  simp only [threeBlocks, List.mem_cons, List.not_mem_nil, or_false] at member
  rcases member with rfl | rfl | rfl | rfl
  · decide
  · rw [List.length_replicate]
    decide
  · decide
  · decide

theorem sha1_pieces_blocks : (do
    let context ← threeBlocks.foldlM (fun context piece =>
      sha1Update .little context piece (UInt32.ofNat piece.length))
      (sha1Init (Vector.replicate 64 0).toList)
    sha1Final .little context) = some (SecureHash.sha1 threeBlocks.flatten) :=
  sha1_pieces .little (Vector.replicate 64 0) threeBlocks threeBlocks_short

end ValkeyLuajit
