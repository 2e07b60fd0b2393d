import ValkeyLuajit.Bundled.Sha1

/-!
# The unrolled rounds compute SHA-1

Round `t` of the standard is the use with number `t`: the variable that plays a role is the
one that played the role before it a round ago, and the sixteen words of the block are the
last sixteen of the schedule. `sha1Transform_eq` is the compression function.
-/

namespace ValkeyLuajit

namespace Sha1

section Rotation

variable {bits : UInt32}

/-- The bits that are shifted out at the top come in at the bottom. -/
theorem toNat_rol (positive : 0 < bits) (small : bits < 32) (value : UInt32) :
    (rol value bits).toNat = value.toNat % 2 ^ (32 - bits.toNat) * 2 ^ bits.toNat +
      value.toNat / 2 ^ (32 - bits.toNat) := by
  have low : bits.toNat < 32 := small
  have above : 0 < bits.toNat := positive
  have rest : (32 - bits).toNat = 32 - bits.toNat := UInt32.toNat_sub_of_le _ _ (UInt32.le_of_lt small)
  have wrapped : (32 - bits.toNat) % 32 = 32 - bits.toNat := Nat.mod_eq_of_lt (by omega)
  have whole : 2 ^ 32 = 2 ^ bits.toNat * 2 ^ (32 - bits.toNat) := by
    rw [← Nat.pow_add]
    congr 1
    omega
  have carried : value.toNat / 2 ^ (32 - bits.toNat) < 2 ^ bits.toNat := by
    rw [Nat.div_lt_iff_lt_mul (Nat.two_pow_pos _), ← whole]
    exact value.toNat_lt
  have kept : value.toNat <<< bits.toNat % 2 ^ 32 =
      (value.toNat % 2 ^ (32 - bits.toNat)) <<< bits.toNat := by
    rw [whole, Nat.shiftLeft_eq, Nat.shiftLeft_eq, Nat.mul_comm, Nat.mul_mod_mul_left, Nat.mul_comm]
  rw [rol, UInt32.toNat_or, UInt32.toNat_shiftLeft, UInt32.toNat_shiftRight, rest,
    Nat.mod_eq_of_lt low, wrapped, kept, Nat.shiftRight_eq_div_pow,
    ← Nat.shiftLeft_add_eq_or_of_lt carried, Nat.shiftLeft_eq]

/-- The macro `rol` rotates, for the amounts that the rounds use. -/
theorem rol_eq_rotl (positive : 0 < bits) (small : bits < 32) (value : UInt32) :
    rol value bits = SecureHash.rotl bits.toNat value := by
  have low : bits.toNat < 32 := small
  have above : 0 < bits.toNat := positive
  have rest : (32 - bits).toNat = 32 - bits.toNat := UInt32.toNat_sub_of_le _ _ (UInt32.le_of_lt small)
  have wrapped : (32 - bits.toNat) % 32 = 32 - bits.toNat := Nat.mod_eq_of_lt (by omega)
  have rotated : (SecureHash.rotl bits.toNat value).toNat =
      (value.toBitVec.rotateLeft bits.toNat).toNat := rfl
  apply UInt32.toNat_inj.mp
  rw [rotated, BitVec.toNat_rotateLeft, rol, UInt32.toNat_or, UInt32.toNat_shiftLeft,
    UInt32.toNat_shiftRight, rest, Nat.mod_eq_of_lt low, wrapped]
  rfl

end Rotation

section Words

variable (b0 b1 b2 b3 : UInt8)

/-- The number of a big-endian word. -/
theorem toNat_word : (UInt32.ofNat (ofBigEndian [b0, b1, b2, b3])).toNat =
    ((b0.toNat * 256 + b1.toNat) * 256 + b2.toNat) * 256 + b3.toNat := by
  have below : ofBigEndian [b0, b1, b2, b3] < 2 ^ 32 := by
    simpa using ofBigEndian_lt [b0, b1, b2, b3]
  rw [UInt32.toNat_ofNat', Nat.mod_eq_of_lt below]
  simp [ofBigEndian]

/-- The bits of a big-endian word are those of its bytes. -/
theorem word_eq_append :
    (UInt32.ofNat (ofBigEndian [b0, b1, b2, b3])).toBitVec =
      b0.toBitVec ++ b1.toBitVec ++ b2.toBitVec ++ b3.toBitVec := by
  apply BitVec.eq_of_toNat_eq
  rw [UInt32.toNat_toBitVec, toNat_word, BitVec.toNat_append, BitVec.toNat_append,
    BitVec.toNat_append]
  simp only [UInt8.toNat_toBitVec]
  rw [← Nat.shiftLeft_add_eq_or_of_lt b1.toNat_lt, ← Nat.shiftLeft_add_eq_or_of_lt b2.toNat_lt,
    ← Nat.shiftLeft_add_eq_or_of_lt b3.toNat_lt]
  simp [Nat.shiftLeft_eq]

/-- Rotated by three bytes the last byte comes first. -/
theorem rol_word_24 : rol (UInt32.ofNat (ofBigEndian [b3, b2, b1, b0])) 24 =
    UInt32.ofNat (ofBigEndian [b0, b3, b2, b1]) := by
  apply UInt32.toNat_inj.mp
  rw [toNat_rol (by decide) (by decide), toNat_word, toNat_word]
  have h0 := b0.toNat_lt
  simp
  omega

/-- Rotated by one byte the first byte comes last. -/
theorem rol_word_8 : rol (UInt32.ofNat (ofBigEndian [b3, b2, b1, b0])) 8 =
    UInt32.ofNat (ofBigEndian [b2, b1, b0, b3]) := by
  apply UInt32.toNat_inj.mp
  rw [toNat_rol (by decide) (by decide), toNat_word, toNat_word]
  have h0 := b0.toNat_lt
  have h1 := b1.toNat_lt
  have h2 := b2.toNat_lt
  simp
  omega

/-- The masks of `blk0` take every other byte of the one and of the other word. -/
theorem masked (b0 b1 b2 b3 : BitVec 8) :
    ((b0 ++ b3 ++ b2 ++ b1) &&& (0xFF#8 ++ 0#8 ++ 0xFF#8 ++ 0#8)) |||
      ((b2 ++ b1 ++ b0 ++ b3) &&& (0#8 ++ 0xFF#8 ++ 0#8 ++ 0xFF#8)) = b0 ++ b1 ++ b2 ++ b3 := by
  have ones : 0xFF#8 = BitVec.allOnes 8 := rfl
  simp only [ones, BitVec.and_append, BitVec.or_append, BitVec.and_allOnes, BitVec.and_zero,
    BitVec.or_zero, BitVec.zero_or]

/-- Turning the bytes of a little-endian word around reads it big-endian. -/
theorem swapped :
    (rol (UInt32.ofNat (ofBigEndian [b3, b2, b1, b0])) 24 &&& 0xFF00FF00) |||
      (rol (UInt32.ofNat (ofBigEndian [b3, b2, b1, b0])) 8 &&& 0x00FF00FF) =
      UInt32.ofNat (ofBigEndian [b0, b1, b2, b3]) := by
  apply UInt32.toBitVec_inj.mp
  rw [rol_word_24, rol_word_8, UInt32.toBitVec_or, UInt32.toBitVec_and, UInt32.toBitVec_and,
    word_eq_append, word_eq_append, word_eq_append]
  exact masked ..

end Words

section Mixing

/-- A choice between the bits of two words. -/
theorem choose_eq (w x y : UInt32) : (w &&& (x ^^^ y)) ^^^ y = (w &&& x) ^^^ (~~~w &&& y) := by
  apply UInt32.toBitVec_inj.mp
  ext i
  simp
  cases w.toBitVec[i] <;> simp

/-- The bits that two of three words agree on. -/
theorem majority_eq (w x y : UInt32) :
    ((w ||| x) &&& y) ||| (w &&& x) = (w &&& x) ^^^ (w &&& y) ^^^ (x &&& y) := by
  apply UInt32.toBitVec_inj.mp
  ext i
  simp
  cases w.toBitVec[i] <;> cases x.toBitVec[i] <;> simp

/-- The macro that round `t` uses. -/
def macroOf (t : Nat) : Macro :=
  if t < 16 then .R0
  else if t < 20 then .R1
  else if t < 40 then .R2
  else if t < 60 then .R3
  else .R4

/-- The macro of a round mixes as the standard's round does. -/
theorem mix_macroOf (t : Nat) (w x y : UInt32) :
    (macroOf t).mix w x y = SecureHash.mix t w x y := by
  unfold macroOf SecureHash.mix
  split_ifs <;> first
    | omega
    | exact choose_eq ..
    | exact majority_eq ..
    | rfl

/-- The macro of a round adds the standard's constant. -/
theorem constant_macroOf (t : Nat) : (macroOf t).constant = SecureHash.constant t := by
  unfold macroOf SecureHash.constant
  split_ifs <;> first | omega | rfl

end Mixing

section Roles

/-- The variables in their order. -/
def numbered : Nat → Register
  | 0 => .a
  | 1 => .b
  | 2 => .c
  | 3 => .d
  | _ => .e

/-- The variable that plays a role in round `t`. -/
def role (t k : Nat) : Register := numbered ((k + 4 * t) % 5)

variable {t k l : Nat}

/-- A variable moves on to the next role. -/
theorem role_succ (t k : Nat) : role (t + 1) (k + 1) = role t k := by
  have same : (k + 1 + 4 * (t + 1)) % 5 = (k + 4 * t) % 5 := by omega
  rw [role, same, role]

/-- The last role becomes the first. -/
theorem role_succ_zero (t : Nat) : role (t + 1) 0 = role t 4 := by
  have same : (0 + 4 * (t + 1)) % 5 = (4 + 4 * t) % 5 := by omega
  rw [role, same, role]

/-- No variable plays two roles. -/
theorem role_ne (left : k < 5) (right : l < 5) (ne : k ≠ l) : role t k ≠ role t l := by
  have numbered_ne : ∀ i < 5, ∀ j < 5, i ≠ j → numbered i ≠ numbered j := by decide
  exact numbered_ne _ (Nat.mod_lt _ (by decide)) _ (Nat.mod_lt _ (by decide)) (by omega)

/-- Round `t` as a use of its macro. -/
def useOf (t : Nat) : Use := ⟨macroOf t, role t 0, role t 1, role t 2, role t 3, role t 4, t⟩

/-- The loop is unrolled as it should be. -/
theorem unrolled_eq : unrolled = (List.range 80).map useOf := by decide

@[simp] theorem get_set_self (work : Working) (register : Register) (value : UInt32) :
    (work.set register value).get register = value := by
  cases register <;> rfl

/-- The other variables are left alone. -/
theorem get_set_of_ne (work : Working) {register other : Register} (value : UInt32)
    (ne : other ≠ register) : (work.set register value).get other = work.get other := by
  cases register <;> cases other <;> first | rfl | contradiction

@[simp] theorem set_l (work : Working) (register : Register) (value : UInt32) :
    (work.set register value).l = work.l := by
  cases register <;> rfl

end Roles

section Simulation

variable {order : ByteOrder} {bytes : Block} {t : Nat}

/-- The words of the schedule for a block. -/
def words (bytes : Block) : Nat → UInt32 := SecureHash.schedule (SecureHash.blockWords bytes)

/-- The first sixteen words are the block. -/
theorem words_of_lt (first : t < 16) : words bytes t = SecureHash.blockWords bytes t := by
  rw [words, SecureHash.schedule, if_pos first]

/-- A later word is made of four earlier ones. -/
theorem words_of_not_lt (later : ¬ t < 16) : words bytes t =
    SecureHash.rotl 1 (words bytes (t - 3) ^^^ words bytes (t - 8) ^^^ words bytes (t - 14) ^^^
      words bytes (t - 16)) := by
  rw [words, SecureHash.schedule, if_neg later]

/-- Before round `t` the block holds the last sixteen words of the schedule, and beyond
round `t` the words as they were read. -/
structure Holds (order : ByteOrder) (bytes : Block) (t : Nat) (l : Fin 16 → UInt32) : Prop where
  recent : ∀ j < t, t ≤ j + 16 → l (ring j) = words bytes j
  ahead : ∀ j < 16, t ≤ j → l (ring j) = nativeWords order bytes (ring j)

/-- Words sixteen rounds apart share their place. -/
theorem ring_eq_iff {i j : Nat} : ring i = ring j ↔ i % 16 = j % 16 := by
  simp [ring, Fin.ext_iff]

/-- Before the first round the block is as it was read. -/
theorem holds_start : Holds order bytes 0 (nativeWords order bytes) :=
  ⟨by omega, fun _ _ _ => rfl⟩

/-- A round writes the word of the schedule over the one of sixteen rounds ago. -/
theorem Holds.set {l : Fin 16 → UInt32} (holds : Holds order bytes t l) :
    Holds order bytes (t + 1) (Function.update l (ring t) (words bytes t)) where
  recent := by
    intro j below near
    by_cases same : j = t
    · subst same
      exact Function.update_self ..
    · have apart : ring j ≠ ring t := by
        rw [Ne, ring_eq_iff]
        omega
      rw [Function.update_of_ne apart]
      exact holds.recent j (by omega) (by omega)
  ahead := by
    intro j below after
    have apart : ring j ≠ ring t := by
      rw [Ne, ring_eq_iff]
      omega
    rw [Function.update_of_ne apart]
    exact holds.ahead j below (by omega)

/-- `blk0` reads a word of the block big-endian, in either order of bytes. -/
theorem blk0_eq (full : bytes.length = 64) (small : t < 16) {l : Fin 16 → UInt32}
    (read : l (ring t) = nativeWords order bytes (ring t)) :
    (blk0 order t l).1 = SecureHash.blockWords bytes t := by
  have four : ((bytes.drop (4 * t)).take 4).length = 4 := by
    rw [List.length_take, List.length_drop]
    omega
  have place : (ring t : Nat) = t := Nat.mod_eq_of_lt small
  have word : l (ring t) = nativeWord order ((bytes.drop (4 * t)).take 4) := by
    rw [read]
    simp [nativeWords, place]
  obtain ⟨b0, b1, b2, b3, split⟩ := List.length_eq_four.mp four
  cases order with
  | little =>
      rw [blk0, word, SecureHash.blockWords, split]
      exact swapped b0 b1 b2 b3
  | big =>
      rw [blk0, word, SecureHash.blockWords, split]
      rfl

/-- `blk0` leaves the word it returns in the block. -/
theorem blk0_l (t : Nat) (l : Fin 16 → UInt32) :
    (blk0 order t l).2 = Function.update l (ring t) (blk0 order t l).1 := by
  cases order with
  | little => rfl
  | big => simp [blk0]

/-- A round takes its word of the schedule. -/
theorem fetch_eq (full : bytes.length = 64) {l : Fin 16 → UInt32}
    (holds : Holds order bytes t l) :
    (macroOf t).fetch order t l = (words bytes t, Function.update l (ring t) (words bytes t)) := by
  by_cases first : t < 16
  · have macroName : macroOf t = .R0 := if_pos first
    have read := blk0_eq full first (holds.ahead t first (Nat.le_refl t))
    rw [macroName, words_of_lt first, ← read]
    exact Prod.ext rfl (blk0_l t l)
  · have fetched : (macroOf t).fetch order t l = blk t l := by
      unfold macroOf
      split_ifs <;> rfl
    have earlier (back : Nat) (positive : 0 < back) (near : back ≤ 16) :
        l (ring (t + (16 - back))) = words bytes (t - back) := by
      have same : ring (t + (16 - back)) = ring (t - back) := by
        rw [ring_eq_iff]
        omega
      simp only [same]
      exact holds.recent (t - back) (by omega) (by omega)
    have word : (blk t l).1 = words bytes t := by
      have third := earlier 3 (by decide) (by decide)
      have eighth := earlier 8 (by decide) (by decide)
      have fourteenth := earlier 14 (by decide) (by decide)
      have last := earlier 16 (by decide) (by decide)
      rw [words_of_not_lt first, ← third, ← eighth, ← fourteenth, ← last]
      exact rol_eq_rotl (by decide) (by decide) _
    rw [fetched, ← word]
    rfl

/-- The variables stand for the working variables of the standard, each in its role. -/
structure Follows (order : ByteOrder) (bytes : Block) (t : Nat) (work : Working)
    (chain : SecureHash.Chain) : Prop where
  a : work.get (role t 0) = chain.a
  b : work.get (role t 1) = chain.b
  c : work.get (role t 2) = chain.c
  d : work.get (role t 3) = chain.d
  e : work.get (role t 4) = chain.e
  block : Holds order bytes t work.l

/-- The variables are no part of the block. -/
theorem get_l (work : Working) (l : Fin 16 → UInt32) (register : Register) :
    { work with l := l }.get register = work.get register := by
  cases register <;> rfl

/-- One round: only the variables of the second and the last role are assigned to. -/
theorem Follows.step (full : bytes.length = 64) {work : Working} {chain : SecureHash.Chain}
    (follows : Follows order bytes t work chain) :
    Follows order bytes (t + 1) ((useOf t).run order work)
      (SecureHash.round t (words bytes t) chain) := by
  have kept (k : Nat) (small : k < 4) (other : k ≠ 1) :
      ((useOf t).run order work).get (role (t + 1) (k + 1)) = work.get (role t k) := by
    rw [role_succ]
    simp only [Use.run, useOf]
    rw [get_set_of_ne _ _ (role_ne (by omega) (by decide) other),
      get_set_of_ne _ _ (role_ne (by omega) (by decide) (by omega)), get_l]
  constructor
  · rw [role_succ_zero]
    simp only [Use.run, useOf, fetch_eq full follows.block]
    rw [get_set_of_ne _ _ (role_ne (by decide) (by decide) (by decide)), get_set_self]
    simp only [get_l, follows.a, follows.b, follows.c, follows.d, follows.e, mix_macroOf,
      constant_macroOf, rol_eq_rotl (show (0 : UInt32) < 5 by decide) (by decide)]
    simp only [SecureHash.round]
    ac_rfl
  · rw [kept 0 (by decide) (by decide), follows.a]
    rfl
  · rw [role_succ]
    simp only [Use.run, useOf]
    rw [get_set_self, get_set_of_ne _ _ (role_ne (by decide) (by decide) (by decide)), get_l,
      follows.b, rol_eq_rotl (by decide) (by decide)]
    rfl
  · rw [kept 2 (by decide) (by decide), follows.c]
    rfl
  · rw [kept 3 (by decide) (by decide), follows.d]
    rfl
  · simp only [Use.run, useOf, fetch_eq full follows.block, set_l]
    exact follows.block.set

/-- The first `t` uses are the first `t` rounds. -/
theorem Follows.run (full : bytes.length = 64) {work : Working} {chain : SecureHash.Chain}
    (start : Follows order bytes 0 work chain) (t : Nat) :
    Follows order bytes t
      (((List.range t).map useOf).foldl (fun work use => use.run order work) work)
      (SecureHash.rounds (words bytes) chain t) := by
  induction t with
  | zero => exact start
  | succ t inductionHypothesis =>
      rw [List.range_succ, List.map_append, List.foldl_append]
      exact inductionHypothesis.step full

end Simulation

/-- The five words of a state as working variables. -/
def chainOf (state : State) : SecureHash.Chain :=
  ⟨state.s0, state.s1, state.s2, state.s3, state.s4⟩

end Sha1

open Sha1

/-- `SHA1Transform` is the compression function of the standard, for every state and every
block, in either order of bytes. -/
theorem sha1Transform_eq (order : ByteOrder) (state : State) {buffer bytes : Block}
    {place : Int} (read : buffer.loadRange place 64 = some bytes) (full : bytes.length = 64) :
    ∃ next, sha1Transform order state buffer place = some next ∧
      chainOf next = SecureHash.compress (chainOf state) bytes := by
  let work : Working := ⟨state.s0, state.s1, state.s2, state.s3, state.s4, nativeWords order bytes⟩
  have start : Follows order bytes 0 work (chainOf state) := ⟨rfl, rfl, rfl, rfl, rfl, holds_start⟩
  have finish := start.run full 80
  rw [← unrolled_eq] at finish
  generalize ran : unrolled.foldl (fun work use => use.run order work) work = final at finish
  generalize reached : SecureHash.rounds (words bytes) (chainOf state) 80 = last at finish
  have compressed : SecureHash.compress (chainOf state) bytes = ⟨state.s0 + last.a,
      state.s1 + last.b, state.s2 + last.c, state.s3 + last.d, state.s4 + last.e⟩ := by
    rw [← reached]
    rfl
  refine ⟨⟨state.s0 + final.a, state.s1 + final.b, state.s2 + final.c, state.s3 + final.d,
    state.s4 + final.e⟩, ?_, ?_⟩
  · rw [sha1Transform, read, ← ran]
    rfl
  · rw [compressed]
    apply SecureHash.Chain.ext
    · exact congrArg (state.s0 + ·) finish.a
    · exact congrArg (state.s1 + ·) finish.b
    · exact congrArg (state.s2 + ·) finish.c
    · exact congrArg (state.s3 + ·) finish.d
    · exact congrArg (state.s4 + ·) finish.e

/-- The unrolled rounds with turning names compress any block that lies in memory as the
standard does, for every state and in either order of bytes. -/
theorem sha1Transform_compress (order : ByteOrder) (state : State)
    (front back : Block) (block : Vector UInt8 64) :
    (sha1Transform order state (front ++ (block.toList ++ back)) front.length).map chainOf =
      some (SecureHash.compress (chainOf state) block.toList) := by
  have full : block.toList.length = 64 := by simp
  have read := Block.loadRange_append front block.toList back
  rw [full] at read
  obtain ⟨next, transformed, compressed⟩ := sha1Transform_eq order state read full
  rw [transformed, Option.map_some, compressed]

end ValkeyLuajit
