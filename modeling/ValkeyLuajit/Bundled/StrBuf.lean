import ValkeyLuajit.Library.Block
import ValkeyLuajit.Library.Sink
import ValkeyLuajit.Lua.Value

/-!
# String buffers

`strbuf.c` and `strbuf.h`: the buffer that JSON texts and decoded strings are built in. What is
new in a block is zero here; nothing reads it before it is written. A place outside of the
block is noticed.
-/

namespace ValkeyLuajit

open Lua

/-- What keeps a function of the library from returning. -/
inductive JsonStop where
  /-- A Lua error. -/
  | raised (message : Bytes)
  /-- `abort`. -/
  | aborted
  /-- Memory is read or written outside of a block. -/
  | outside
  /-- A signed integer overflows. -/
  | overflow
  /-- A loop takes more rounds than there are bytes. -/
  | endless
deriving DecidableEq

/-- `strbuf_t`, with the block that `buf` points to. -/
structure StrBuf where
  buf : Block
  size : Nat
  length : Nat
deriving DecidableEq

/-- Write bytes behind what the buffer holds. -/
def StrBuf.put (s : StrBuf) (bytes : Bytes) : Except JsonStop StrBuf :=
  match s.buf.storeRange s.length bytes with
  | none => .error .outside
  | some buf => .ok { s with buf := buf }

/-- `strbuf_ensure_null`. -/
def strbufEnsureNull (s : StrBuf) : Except JsonStop StrBuf := s.put [0]

/-- `STRBUF_DEFAULT_SIZE`. -/
def strbufDefaultSize : Nat := 1023

/-- `strbuf_init`, and `strbuf_new`. -/
def strbufInit (len : Nat) : Except JsonStop StrBuf :=
  let size := if len = 0 then strbufDefaultSize else (len + 1) % 2 ^ 64
  if size < len then .error .aborted
  else strbufEnsureNull ⟨List.replicate size 0, size, 0⟩

/-- `strbuf_reset`. -/
def strbufReset (s : StrBuf) : StrBuf := { s with length := 0 }

/-- `strbuf_empty_length`. -/
def strbufEmptyLength (s : StrBuf) : Nat := (s.size + 2 * 2 ^ 64 - s.length - 1) % 2 ^ 64

/-- `strbuf_extend_length`. -/
def strbufExtendLength (s : StrBuf) (len : Nat) : StrBuf := { s with length := s.length + len }

/-- The loop of `calculate_new_size`. A size that is not zero is doubled 64 times at most. -/
def doubleSize (reqsize : Nat) : (rounds newsize : Nat) → Nat
  | 0, newsize => newsize
  | rounds + 1, newsize =>
      if newsize < reqsize then doubleSize reqsize rounds (newsize * 2 % 2 ^ 64) else newsize

/-- `calculate_new_size`. -/
def calculateNewSize (s : StrBuf) (len : Nat) : Except JsonStop Nat :=
  let reqsize := (len + 1) % 2 ^ 64
  if len = 0 ∨ reqsize < len then .error .aborted
  else if reqsize < s.size then .ok reqsize
  else
    let newsize := if sizeMax / 2 ≤ reqsize then reqsize else doubleSize reqsize 64 s.size
    if newsize < reqsize then .error .aborted else .ok newsize

/-- `strbuf_resize`. -/
def strbufResize (s : StrBuf) (len : Nat) : Except JsonStop StrBuf := do
  let newsize ← calculateNewSize s len
  .ok { s with buf := s.buf.realloc newsize, size := newsize }

/-- `strbuf_ensure_empty_length`. -/
def strbufEnsureEmptyLength (s : StrBuf) (len : Nat) : Except JsonStop StrBuf :=
  if strbufEmptyLength s < len then strbufResize s ((s.length + len) % 2 ^ 64) else .ok s

/-- `strbuf_append_mem_unsafe`. -/
def strbufAppendMemUnsafe (s : StrBuf) (c : Bytes) : Except JsonStop StrBuf := do
  let s ← s.put c
  .ok (strbufExtendLength s c.length)

/-- `strbuf_append_mem`. -/
def strbufAppendMem (s : StrBuf) (c : Bytes) : Except JsonStop StrBuf := do
  let s ← strbufEnsureEmptyLength s c.length
  strbufAppendMemUnsafe s c

/-- `strbuf_append_char_unsafe`. -/
def strbufAppendCharUnsafe (s : StrBuf) (c : UInt8) : Except JsonStop StrBuf :=
  strbufAppendMemUnsafe s [c]

/-- `strbuf_append_char`. -/
def strbufAppendChar (s : StrBuf) (c : UInt8) : Except JsonStop StrBuf := do
  let s ← strbufEnsureEmptyLength s 1
  strbufAppendCharUnsafe s c

/-- The loop of `strbuf_append_string`. -/
def strbufAppendChars : (str : Bytes) → (space : Nat) → StrBuf → Except JsonStop StrBuf
  | [], _, s => .ok s
  | char :: str, space, s =>
      if space < 1 then do
        let s ← strbufResize s ((s.length + 1) % 2 ^ 64)
        let space := strbufEmptyLength s
        let s ← strbufAppendCharUnsafe s char
        strbufAppendChars str (space - 1) s
      else do
        let s ← strbufAppendCharUnsafe s char
        strbufAppendChars str (space - 1) s

/-- `strbuf_append_string`. -/
def strbufAppendString (s : StrBuf) (str : Bytes) : Except JsonStop StrBuf :=
  strbufAppendChars str (strbufEmptyLength s) s

/-- `strbuf_string`: the bytes that the buffer holds. -/
def strbufString (s : StrBuf) : Except JsonStop Bytes :=
  match s.buf.loadRange 0 s.length with
  | none => .error .outside
  | some text => .ok text

/-- The buffer holds this text, knows the size of its block, and has room for a NUL. -/
structure StrBuf.Holds (s : StrBuf) (text : Bytes) : Prop where
  size : s.size = s.buf.length
  length : s.length = text.length
  room : s.length < s.size
  small : s.size < 2 ^ 64
  text : s.buf.take s.length = text

/-- Buffers as sinks. The functions ask for less than 64 bytes that they do not fill. -/
def strbufSink : Sink StrBuf := ⟨StrBuf.Holds, 2 ^ 64 - 64⟩

theorem limit_strbufSink : strbufSink.limit = 2 ^ 64 - 64 := rfl

section Growing

variable {s : StrBuf} {text c : Bytes}

namespace StrBuf.Holds

theorem emptyLength (holds : s.Holds text) : strbufEmptyLength s = s.size - text.length - 1 := by
  have length := holds.length
  have room := holds.room
  have small := holds.small
  rw [strbufEmptyLength]
  omega

/-- What the buffer holds is given up, its block is not. -/
theorem reset (holds : s.Holds text) : (strbufReset s).Holds [] where
  size := holds.size
  length := rfl
  room := Nat.zero_lt_of_lt holds.room
  small := holds.small
  text := List.take_zero

/-- What is read is what the buffer holds. -/
theorem string (holds : s.Holds text) : strbufString s = .ok text := by
  have size := holds.size
  have room := holds.room
  have range : s.buf.loadRange (0 : Nat) s.length = some ((s.buf.drop 0).take s.length) :=
    Block.loadRange_of_le (by omega)
  rw [List.drop_zero, holds.text, Int.natCast_zero] at range
  rw [strbufString, range]

end StrBuf.Holds

/-- Doubling reaches the size that is asked for, and does not wrap around. -/
theorem doubleSize_reaches {reqsize : Nat} (rounds newsize : Nat) (low : reqsize < 2 ^ 63)
    (enough : reqsize ≤ newsize * 2 ^ rounds) (small : newsize < 2 ^ 64) :
    reqsize ≤ doubleSize reqsize rounds newsize ∧ doubleSize reqsize rounds newsize < 2 ^ 64 := by
  induction rounds generalizing newsize with
  | zero => exact ⟨by simpa [doubleSize] using enough, small⟩
  | succ rounds inductionHypothesis =>
      rw [doubleSize]
      split
      · have same : newsize * 2 % 2 ^ 64 = newsize * 2 := Nat.mod_eq_of_lt (by omega)
        rw [same]
        apply inductionHypothesis _ _ (by omega)
        rwa [Nat.mul_assoc, ← Nat.pow_succ']
      · exact ⟨by omega, small⟩

/-- The new size is enough for the length and a NUL. -/
theorem calculateNewSize_of_lt {len : Nat} (some : 0 < s.size) (small : s.size < 2 ^ 64)
    (positive : 0 < len) (short : len + 1 < 2 ^ 64) :
    ∃ newsize, calculateNewSize s len = .ok newsize ∧ len < newsize ∧ newsize < 2 ^ 64 := by
  have same : (len + 1) % 2 ^ 64 = len + 1 := Nat.mod_eq_of_lt short
  simp only [calculateNewSize, same]
  rw [if_neg (by omega)]
  by_cases shrinks : len + 1 < s.size
  · exact ⟨len + 1, if_pos shrinks, Nat.lt_succ_self len, short⟩
  · rw [if_neg shrinks]
    by_cases huge : sizeMax / 2 ≤ len + 1
    · rw [if_pos huge, if_neg (Nat.lt_irrefl _)]
      exact ⟨len + 1, rfl, Nat.lt_succ_self len, short⟩
    · have low : len + 1 < 2 ^ 63 := by
        rw [sizeMax] at huge
        omega
      obtain ⟨reached, below⟩ := doubleSize_reaches 64 s.size low (by omega) small
      rw [if_neg huge, if_neg (Nat.not_lt.mpr reached)]
      exact ⟨_, rfl, reached, below⟩

theorem strbufResize_holds {len : Nat} (holds : s.Holds text) (positive : 0 < len)
    (kept : text.length ≤ len) (short : len + 1 < 2 ^ 64) :
    ∃ after, strbufResize s len = .ok after ∧ after.Holds text ∧ len < after.size := by
  have room := holds.room
  obtain ⟨newsize, given, enough, below⟩ :=
    calculateNewSize_of_lt (Nat.zero_lt_of_lt room) holds.small positive short
  refine ⟨{ s with buf := s.buf.realloc newsize, size := newsize }, ?_, ⟨?_, holds.length, ?_,
    below, ?_⟩, enough⟩
  · rw [strbufResize, given]
    rfl
  · exact (Block.length_realloc _ _).symm
  · have length := holds.length
    simp only
    omega
  · have size := holds.size
    have length := holds.length
    have front : (s.buf.realloc newsize).take s.length = s.buf.take s.length :=
      Block.take_realloc (by omega) (by omega)
    exact front.trans holds.text

/-- Room for so many bytes and a NUL. -/
theorem strbufEnsureEmptyLength_holds {len : Nat} (holds : s.Holds text)
    (short : text.length + len + 1 < 2 ^ 64) :
    ∃ after, strbufEnsureEmptyLength s len = .ok after ∧ after.Holds text ∧
      text.length + len < after.size := by
  have room := holds.room
  have length := holds.length
  rw [strbufEnsureEmptyLength, holds.emptyLength]
  split
  · have same : (s.length + len) % 2 ^ 64 = text.length + len := by
      rw [length]
      exact Nat.mod_eq_of_lt (by omega)
    rw [same]
    exact strbufResize_holds holds (by omega) (by omega) short
  · exact ⟨s, rfl, holds, by omega⟩

/-- Bytes that the block has room for are written, and nothing in front of them changes. -/
theorem StrBuf.put_of_le (fits : s.length + c.length ≤ s.buf.length) :
    ∃ buf : Block, s.put c = .ok { s with buf := buf } ∧ buf.length = s.buf.length ∧
      buf.take (s.length + c.length) = s.buf.take s.length ++ c := by
  have stored := Block.storeRange_of_le fits
  refine ⟨s.buf.take s.length ++ (c ++ s.buf.drop (s.length + c.length)), ?_, ?_, ?_⟩
  · rw [StrBuf.put, stored]
  · simp only [List.length_append, List.length_take, List.length_drop]
    omega
  · have front : (s.buf.take s.length).length = s.length := by
      rw [List.length_take]
      omega
    have whole : s.length + c.length = (s.buf.take s.length ++ c).length := by
      rw [List.length_append, front]
    rw [whole, ← List.append_assoc, List.take_left]

/-- An append that has the room. -/
theorem strbufAppendMemUnsafe_holds (holds : s.Holds text)
    (room : text.length + c.length < s.size) :
    ∃ after, strbufAppendMemUnsafe s c = .ok after ∧ after.Holds (text ++ c) ∧
      after.size = s.size := by
  have size := holds.size
  have length := holds.length
  obtain ⟨buf, stored, same, front⟩ := StrBuf.put_of_le (s := s) (c := c) (by omega)
  refine ⟨⟨buf, s.size, s.length + c.length⟩, ?_, ⟨?_, ?_, ?_, holds.small, ?_⟩, rfl⟩
  · rw [strbufAppendMemUnsafe, stored]
    rfl
  · exact size.trans same.symm
  · rw [List.length_append, length]
  · simp only
    omega
  · rw [← holds.text]
    exact front

theorem strbufAppendMem_holds (holds : s.Holds text) (short : text.length + c.length + 1 < 2 ^ 64) :
    ∃ after, strbufAppendMem s c = .ok after ∧ after.Holds (text ++ c) := by
  obtain ⟨grown, ensured, same, room⟩ := strbufEnsureEmptyLength_holds holds short
  obtain ⟨after, stored, here, -⟩ := strbufAppendMemUnsafe_holds same room
  refine ⟨after, ?_, here⟩
  rw [strbufAppendMem, ensured]
  exact stored

theorem strbufAppendChars_holds (holds : s.Holds text) (short : text.length + c.length + 1 < 2 ^ 64)
    {space : Nat} (known : space = strbufEmptyLength s) :
    ∃ after, strbufAppendChars c space s = .ok after ∧ after.Holds (text ++ c) := by
  induction c generalizing s text space with
  | nil => exact ⟨s, rfl, by rwa [List.append_nil]⟩
  | cons char c inductionHypothesis =>
      rw [List.length_cons] at short
      have next {grown : StrBuf} (same : grown.Holds text) (room : text.length + 1 < grown.size)
          {space : Nat} (known : space = strbufEmptyLength grown) :
          ∃ after, (do
              let s ← strbufAppendCharUnsafe grown char
              strbufAppendChars c (space - 1) s) = .ok after ∧ after.Holds (text ++ char :: c) := by
        obtain ⟨middle, stored, here, size⟩ := strbufAppendMemUnsafe_holds (c := [char]) same room
        have left : space - 1 = strbufEmptyLength middle := by
          rw [known, here.emptyLength, same.emptyLength, size, List.length_append,
            List.length_singleton]
          omega
        obtain ⟨after, rest, there⟩ := inductionHypothesis here (by simp; omega) left
        refine ⟨after, ?_, by simpa using there⟩
        rw [strbufAppendCharUnsafe, stored]
        exact rest
      rw [strbufAppendChars]
      have length := holds.length
      split
      · have plus : (s.length + 1) % 2 ^ 64 = text.length + 1 := by omega
        obtain ⟨grown, resized, same, room⟩ := strbufResize_holds holds
          (show 0 < text.length + 1 by omega) (by omega) (by omega)
        obtain ⟨after, rest, there⟩ := next same room rfl
        refine ⟨after, ?_, there⟩
        rw [plus, resized]
        exact rest
      · rename_i some
        apply next holds _ known
        rw [known, holds.emptyLength] at some
        omega

/-- Two steps that go well, one after the other. -/
theorem ok_of_steps {α β : Type} {first : Except JsonStop α} {next : α → Except JsonStop β}
    {middle : α} {last : β} (before : first = .ok middle) (after : next middle = .ok last) :
    (first >>= next) = .ok last := by
  rw [before]
  exact after

/-- Appending is writing to the buffer. -/
theorem writes_step {step : StrBuf → Except JsonStop StrBuf}
    (appends : ∀ s text, s.Holds text → text.length + c.length < 2 ^ 64 - 64 →
      ∃ after, step s = .ok after ∧ after.Holds (text ++ c)) :
    strbufSink.Writes (Writer.step step) (.whole c) := by
  intro s text holds short
  obtain ⟨after, run, here⟩ := appends s text holds short
  exact ⟨after, Writer.step_ok run, here⟩

theorem writes_strbufAppendMem (c : Bytes) :
    strbufSink.Writes (Writer.step (strbufAppendMem · c)) (.whole c) :=
  writes_step fun _ _ holds _ => strbufAppendMem_holds holds (by omega)

theorem writes_strbufAppendChar (c : UInt8) :
    strbufSink.Writes (Writer.step (strbufAppendChar · c)) (.whole [c]) := writes_strbufAppendMem [c]

theorem writes_strbufAppendString (c : Bytes) :
    strbufSink.Writes (Writer.step (strbufAppendString · c)) (.whole c) :=
  writes_step fun _ _ holds _ => strbufAppendChars_holds holds (by omega) rfl

/-- A new buffer holds nothing, and has room for a text as long as was asked for. -/
theorem strbufInit_holds {len : Nat} (short : len + 1 < 2 ^ 64) :
    ∃ s, strbufInit len = .ok s ∧ s.Holds [] ∧ len < s.size := by
  let size := if len = 0 then strbufDefaultSize else len + 1
  have enough : len < size := by
    simp only [size]
    split
    · rw [strbufDefaultSize]
      omega
    · omega
  have below : size < 2 ^ 64 := by
    simp only [size]
    split
    · decide
    · exact short
  let fresh : StrBuf := ⟨List.replicate size 0, size, 0⟩
  obtain ⟨buf, stored, same, -⟩ := StrBuf.put_of_le (s := fresh) (c := [0]) (by
    simp [fresh]
    omega)
  refine ⟨⟨buf, size, 0⟩, ?_, ⟨?_, rfl, Nat.zero_lt_of_lt enough, below, List.take_zero⟩, enough⟩
  · have given : (if len = 0 then strbufDefaultSize else (len + 1) % 2 ^ 64) = size := by
      rw [Nat.mod_eq_of_lt short]
    simp only [strbufInit, given]
    rw [if_neg (by omega)]
    exact stored
  · simp [same, fresh]

end Growing

end ValkeyLuajit
