import ValkeyLuajit.Bundled.MsgPackStream

/-!
# Unpacking in parts

`unpack_limit` returns where it stopped. Going on from there gives what one call with the larger
limit gives: the same values, on the same tables. A part has more of the stack than it would
have had in the whole, so the decoder is shown to do the same with more room.
-/

namespace ValkeyLuajit

open Lua

section Room

variable {ε α β : Type} {small large : Except ε α}

/-- What the one returns, the other returns as well. -/
def Retains (small large : Except ε α) : Prop := ∀ value, small = .ok value → large = .ok value

/-- A result is what it is. -/
theorem Retains.refl (result : Except ε α) : Retains result result := fun _ same => same

/-- An error promises nothing. -/
theorem Retains.error (error : ε) (result : Except ε α) : Retains (.error error) result := by
  intro value same
  cases same

/-- What is returned step by step is returned by the sequence. -/
theorem Retains.bind {next further : α → Except ε β} (first : Retains small large)
    (rest : ∀ value, Retains (next value) (further value)) :
    Retains (small >>= next) (large >>= further) := by
  intro result run
  cases started : small with
  | error error =>
      rw [started] at run
      cases run
  | ok value =>
      rw [started] at run
      rw [first value started]
      exact rest value result run

end Room

section Decoders

variable {key key' value value' : Heap → MpCur → Except MpFault MpDecoded}

/-- An array is decoded as before when its elements are. -/
theorem retains_mpDecodeElements (values : ∀ heap c, Retains (value heap c) (value' heap c))
    (addr : Addr) (len index : Nat) (heap : Heap) (c : MpCur) :
    Retains (mpDecodeElements value addr len index heap c)
      (mpDecodeElements value' addr len index heap c) := by
  induction len generalizing index heap c with
  | zero => exact .refl _
  | succ len inductionHypothesis =>
      exact (values heap c).bind fun decoded => (Retains.refl _).bind fun heap =>
        inductionHypothesis (index + 1) heap decoded.c

/-- A map is decoded as before when its keys and values are. -/
theorem retains_mpDecodeEntries (keys : ∀ heap c, Retains (key heap c) (key' heap c))
    (values : ∀ heap c, Retains (value heap c) (value' heap c)) (addr : Addr) (len : Nat)
    (heap : Heap) (c : MpCur) : Retains (mpDecodeEntries key value addr len heap c)
      (mpDecodeEntries key' value' addr len heap c) := by
  induction len generalizing heap c with
  | zero => exact .refl _
  | succ len inductionHypothesis =>
      exact (keys heap c).bind fun left => (values left.heap left.c).bind fun right =>
        (Retains.refl _).bind fun heap => inductionHypothesis heap right.c

/-- With one slot more an array is decoded as before. -/
theorem retains_mpDecodeToLuaArray (values : ∀ heap c, Retains (value heap c) (value' heap c))
    (room len : Nat) (heap : Heap) (c : MpCur) : Retains (mpDecodeToLuaArray value room len heap c)
      (mpDecodeToLuaArray value' (room + 1) len heap c) := by
  unfold mpDecodeToLuaArray
  split
  · exact .error _ _
  · rw [if_neg (by omega)]
    exact (retains_mpDecodeElements values _ _ _ _ _).bind fun _ => .refl _

/-- A map asks for no slots of its own. -/
theorem retains_mpDecodeToLuaHash (keys : ∀ heap c, Retains (key heap c) (key' heap c))
    (values : ∀ heap c, Retains (value heap c) (value' heap c)) (len : Nat) (heap : Heap)
    (c : MpCur) : Retains (mpDecodeToLuaHash key value len heap c)
      (mpDecodeToLuaHash key' value' len heap c) :=
  (retains_mpDecodeEntries keys values _ _ _ _).bind fun _ => .refl _

/-- With one slot more every form is decoded as before. -/
theorem retains_mpDecodeHead (keys : ∀ heap c, Retains (key heap c) (key' heap c))
    (values : ∀ heap c, Retains (value heap c) (value' heap c)) (room : Nat) (heap : Heap)
    (c : MpCur) (head : MpHead) : Retains (mpDecodeHead key value room heap c head)
      (mpDecodeHead key' value' (room + 1) heap c head) := by
  cases head with
  | fixArray l => exact retains_mpDecodeToLuaArray values room l heap _
  | array width =>
      exact (Retains.refl _).bind fun l => retains_mpDecodeToLuaArray values room l heap _
  | fixMap l => exact retains_mpDecodeToLuaHash keys values l heap _
  | map width =>
      exact (Retains.refl _).bind fun l => retains_mpDecodeToLuaHash keys values l heap _
  | _ => exact .refl _

/-- So is a value with its check of the slots. -/
theorem retains_mpDecodeWith {room : Nat} (keys : 0 < room → ∀ heap c, Retains (key heap c) (key' heap c))
    (values : 0 < room → ∀ heap c, Retains (value heap c) (value' heap c)) (heap : Heap)
    (c : MpCur) : Retains (mpDecodeWith key value room heap c)
      (mpDecodeWith key' value' (room + 1) heap c) := by
  refine (Retains.refl _).bind fun _ => ?_
  split
  · exact .error _ _
  · rename_i some
    rw [if_neg (by omega)]
    split
    · exact .error _ _
    · exact retains_mpDecodeHead (keys (by omega)) (values (by omega)) room heap c _

/-- With one more slot the decoder returns what it returned. -/
theorem retains_mpDecodeToLuaType (room : Nat) (heap : Heap) (c : MpCur) :
    Retains (mpDecodeToLuaType room heap c) (mpDecodeToLuaType (room + 1) heap c) := by
  induction room using mpDecodeToLuaType.induct generalizing heap c with
  | case1 =>
      exact retains_mpDecodeWith (fun some => absurd some (Nat.lt_irrefl 0))
        (fun some => absurd some (Nat.lt_irrefl 0)) heap c
  | case2 empty =>
      exact retains_mpDecodeWith (fun _ => empty) (fun _ heap c => .refl _) heap c
  | case3 room keys values =>
      exact retains_mpDecodeWith (fun _ => keys) (fun _ => values) heap c

/-- So does the loop. -/
theorem retains_mpUnpackLoop (limit : Int) (room cnt : Nat) (heap : Heap) (c : MpCur) :
    Retains (mpUnpackLoop limit room cnt heap c) (mpUnpackLoop limit (room + 1) cnt heap c) := by
  induction room generalizing cnt heap c with
  | zero =>
      rw [mpUnpackLoop, mpUnpackLoop]
      split
      · rename_i more
        rw [mpDecodeToLuaType_zero more.1]
        exact .error _ _
      · exact .refl _
  | succ room inductionHypothesis =>
      rw [mpUnpackLoop, mpUnpackLoop]
      split
      · exact (retains_mpDecodeToLuaType (room + 1) heap c).bind fun decoded =>
          (inductionHypothesis (cnt + 1) decoded.heap decoded.c).bind fun rest => .refl _
      · exact .refl _

/-- Only the difference between the count and the limit matters. -/
theorem mpUnpackLoop_shift (limit : Int) (room cnt : Nat) (heap : Heap) (c : MpCur) :
    mpUnpackLoop (limit + 1) room (cnt + 1) heap c = mpUnpackLoop limit room cnt heap c := by
  have same : ((cnt + 1 : Nat) : Int) < limit + 1 ↔ (cnt : Int) < limit := by omega
  induction room generalizing cnt heap c with
  | zero => simp only [mpUnpackLoop, same]
  | succ room inductionHypothesis =>
      have next (decoded : MpDecoded) := inductionHypothesis (cnt + 1) decoded.heap decoded.c
        (by omega)
      simp only [mpUnpackLoop, same, next]

end Decoders

section Parts

variable {s rest : Bytes} {heap : Heap} {c : MpCur} {unpacked : MpUnpacked}

/-- At the end of the input the loop does nothing. -/
theorem mpUnpackLoop_done (done : c.left = 0) (limit : Int) (room : Nat) :
    mpUnpackLoop limit room 0 heap c = .ok ⟨[], heap, c⟩ := by
  cases room <;> simp [mpUnpackLoop, done]

/-- The cursor is known from its string and from what is left. -/
theorem MpCur.At.eq_mk (place : c.At s rest) : c = ⟨s, s.length - c.left, c.left⟩ := by
  have left := place.left
  have drop := congrArg List.length place.drop
  have inside := place.inside
  obtain ⟨string, p, left'⟩ := c
  obtain rfl : string = s := place.string
  simp only [List.length_drop] at drop left inside
  simp only [MpCur.mk.injEq, true_and, and_true]
  omega

/-- The loop stopped where the first part of it stopped, or the second part goes on there. -/
theorem mpUnpackLoop_add {first second room : Nat} (place : c.At s rest)
    (run : mpUnpackLoop (first + second : Nat) room 0 heap c = .ok unpacked) :
    ∃ part, mpUnpackLoop first room 0 heap c = .ok part ∧ (∃ rest, part.c.At s rest) ∧
      part.values = unpacked.values.take first ∧
      (part.c.left = 0 ∧ part = unpacked ∨ mpUnpackLoop second room 0 part.heap part.c =
        .ok { unpacked with values := unpacked.values.drop first }) := by
  induction first generalizing room heap c rest unpacked with
  | zero =>
      refine ⟨⟨[], heap, c⟩, ?_, ⟨rest, place⟩, by simp, ?_⟩
      · cases room <;> simp [mpUnpackLoop]
      · right
        rw [Nat.zero_add] at run
        simpa using run
  | succ first inductionHypothesis =>
      by_cases done : c.left = 0
      · rw [mpUnpackLoop_done done] at run
        cases run
        exact ⟨_, mpUnpackLoop_done done _ _, ⟨rest, place⟩, rfl, .inl ⟨done, rfl⟩⟩
      · have more (limit : Nat) : 0 < c.left ∧ ((0 : Nat) : Int) < ((limit + 1 : Nat) : Int) :=
          ⟨Nat.pos_of_ne_zero done, by omega⟩
        have shift (limit room : Nat) (heap : Heap) (c : MpCur) :
            mpUnpackLoop ((limit + 1 : Nat) : Int) room (0 + 1) heap c =
              mpUnpackLoop limit room 0 heap c := by
          rw [Nat.cast_succ]
          exact mpUnpackLoop_shift limit room 0 heap c
        rw [Nat.add_right_comm] at run
        cases room with
        | zero =>
            rw [mpUnpackLoop, if_pos (more _), mpDecodeToLuaType_zero (more first).1] at run
            cases run
        | succ room =>
            rw [mpUnpackLoop, if_pos (more _)] at run
            rw [mpUnpackLoop, if_pos (more _)]
            cases returned : mpDecodeToLuaType (room + 1) heap c with
            | error fault =>
                rw [returned] at run
                cases run
            | ok decoded =>
                obtain ⟨tree, after, -, built⟩ :=
                  (decodes_mpDecodeToLuaType (room + 1) heap c s rest place).of_ok returned
                rw [returned] at run
                simp only [bind, Except.bind, shift] at run ⊢
                cases others : mpUnpackLoop (first + second : Nat) room 0 decoded.heap decoded.c with
                | error fault =>
                    rw [others] at run
                    cases run
                | ok unpacked' =>
                    rw [others] at run
                    cases run
                    obtain ⟨part, started, there, values, stopped⟩ :=
                      inductionHypothesis built.place others
                    refine ⟨{ part with values := decoded.value :: part.values }, ?_, there, ?_, ?_⟩
                    · rw [started]
                    · simp [values]
                    · rcases stopped with ⟨done, same⟩ | further
                      · exact .inl ⟨done, by rw [same]⟩
                      · exact .inr (retains_mpUnpackLoop _ _ _ _ _ _ further)

/-- Where `unpack_limit` says that it stopped. -/
def stoppedAt (s : Bytes) (c : MpCur) : Int := if c.left = 0 then -1 else (s.length - c.left : Nat)

/-- The offset is small enough to be a Lua number as it is. -/
theorem toLuaNumber_stoppedAt (small : s.length < 2 ^ 53) (c : MpCur) :
    toLuaNumber (stoppedAt s c) = .finite (stoppedAt s c) := by
  have bounded : (stoppedAt s c).natAbs ≤ 2 ^ 53 := by
    rw [stoppedAt]
    split <;> omega
  rw [toLuaNumber]
  exact if_pos bounded

/-- `unpack_limit` with a limit is the loop from the offset on. -/
theorem mpUnpackLimit_eq (small : s.length < 2 ^ 53) (heap : Heap) {limit offset : Nat}
    (some : 0 < limit) (inside : offset ≤ s.length) :
    mpUnpackLimit s heap limit offset =
      (mpUnpackLoop limit (maxCStack - 1) 0 heap ⟨s, offset, s.length - offset⟩).mapError
        MpFault.reason >>= fun unpacked =>
          if maxCStack - 1 < unpacked.values.length + 1 then
            .error (stackOverflow "in function mp_unpack_full")
          else .ok (.number (.finite (stoppedAt s unpacked.c)) :: unpacked.values, unpacked.heap) := by
  have limited : ¬ ((limit : Int) = 0 ∧ (offset : Int) = 0) := by omega
  rw [mpUnpackLimit, mpUnpackFull, if_neg (by omega), if_neg (by omega)]
  simp only [limited, if_false, Int.toNat_natCast]
  cases mpUnpackLoop limit (maxCStack - 1) 0 heap ⟨s, offset, s.length - offset⟩ with
  | error fault => rfl
  | ok unpacked =>
      simp only [Except.mapError, bind, Except.bind]
      rw [if_neg (by omega), ← toLuaNumber_stoppedAt small]
      rfl

/-- Reading in two parts is reading at once: the second part goes on where the first one says
that it stopped, unless there was nothing left. -/
theorem mpUnpackLimit_parts {first second : Nat} {offset : Int} {next : Value}
    {values : List Value} {after : Heap} (small : s.length < 2 ^ 53) (some : 0 < first)
    (more : 0 < second)
    (run : mpUnpackLimit s heap (first + second : Nat) offset = .ok (next :: values, after)) :
    ∃ (stop : Int) (middle : Heap), mpUnpackLimit s heap first offset =
        .ok (.number (.finite stop) :: values.take first, middle) ∧
      (stop = -1 ∧ next = .number (.finite (-1)) ∧ values.length ≤ first ∧ middle = after ∨
        0 ≤ stop ∧ mpUnpackLimit s middle second stop = .ok (next :: values.drop first, after)) := by
  have valid : 0 ≤ offset ∧ offset ≤ s.length := by
    rw [mpUnpackLimit, mpUnpackFull] at run
    split at run
    · cases run
    · split at run
      · cases run
      · omega
  obtain ⟨offset, rfl⟩ := Int.eq_ofNat_of_zero_le valid.1
  have inside : offset ≤ s.length := by omega
  rw [mpUnpackLimit_eq small heap (by omega) inside] at run
  rw [mpUnpackLimit_eq small heap some inside]
  have place : MpCur.At ⟨s, offset, s.length - offset⟩ s (s.drop offset) := .start (by omega) inside
  cases whole : mpUnpackLoop (first + second : Nat) (maxCStack - 1) 0 heap
      ⟨s, offset, s.length - offset⟩ with
  | error fault =>
      rw [whole] at run
      cases run
  | ok unpacked =>
      rw [whole] at run
      simp only [Except.mapError, bind, Except.bind] at run
      split at run
      · cases run
      · rename_i fits
        cases run
        obtain ⟨part, started, ⟨rest, there⟩, taken, stopped⟩ := mpUnpackLoop_add place whole
        have fewer : part.values.length ≤ unpacked.values.length := by
          rw [taken]
          exact List.length_take_le' ..
        refine ⟨stoppedAt s part.c, part.heap, ?_, ?_⟩
        · rw [started, ← taken]
          exact if_neg (by omega)
        · by_cases done : part.c.left = 0
          · obtain rfl : part = unpacked := by
              rcases stopped with ⟨-, same⟩ | further
              · exact same
              · rw [mpUnpackLoop_done done] at further
                injection further with same
                injection same with nothing heap c
                have all := List.take_append_drop first unpacked.values
                rw [← nothing, List.append_nil, ← taken] at all
                obtain ⟨values', heap', c'⟩ := part
                simp only at all heap c
                rw [all, heap, c]
            have length := congrArg List.length taken
            rw [List.length_take] at length
            exact .inl ⟨if_pos done, by rw [stoppedAt, if_pos done]; rfl, by omega, rfl⟩
          · have further := stopped.resolve_left fun finished => done finished.1
            have left := there.left
            have drop := congrArg List.length there.drop
            rw [List.length_drop, there.string] at drop
            have stop : stoppedAt s part.c = (s.length - part.c.left : Nat) := if_neg done
            refine .inr ⟨by rw [stop]; exact Int.natCast_nonneg _, ?_⟩
            rw [stop, mpUnpackLimit_eq small part.heap more (Nat.sub_le ..),
              Nat.sub_sub_self (by omega), ← there.eq_mk, further]
            exact if_neg (by simp only [List.length_drop]; omega)

end Parts

/-- One of three numbers, and then another. -/
theorem mpUnpackLimit_parts_numbers : ∃ (stop : Int) (middle : Heap),
    mpUnpackLimit [1, 2, 3] default (1 : Nat) 0 = .ok (.number (.finite stop) ::
        [Value.number (.finite 1), .number (.finite 2)].take 1, middle) ∧
      (stop = -1 ∧ Value.number (.finite 2) = .number (.finite (-1)) ∧
          [Value.number (.finite 1), .number (.finite 2)].length ≤ 1 ∧ middle = default ∨
        0 ≤ stop ∧ mpUnpackLimit [1, 2, 3] middle (1 : Nat) stop =
          .ok (.number (.finite 2) :: [Value.number (.finite 1), .number (.finite 2)].drop 1,
            default)) :=
  mpUnpackLimit_parts (by decide) (by decide) (by decide) (by rfl)

end ValkeyLuajit
