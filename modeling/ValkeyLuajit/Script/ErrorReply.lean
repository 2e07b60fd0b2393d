import ValkeyLuajit.Function.Load

/-!
# Error replies made by scripts

`server.error_reply` turns a text into an error table. The text is normalised on the way:
a code is split off at the first space and the rest is trimmed. Without a space there is
nothing to split, and nothing is trimmed either; and of two dashes in front of a code the
second one stays, to be taken for the first when the text is normalised again.
-/

namespace ValkeyLuajit

open Lua

/-- The character `-`. -/
def dash : UInt8 := UInt8.ofNat '-'.toNat

/-- The character between the code and the message. -/
def blank : UInt8 := UInt8.ofNat ' '.toNat

/-- `server.error_reply`. -/
def luajitRedisErrorReplyCommand {σ : Type} (rt : Runtime) : LuaM σ Unit := do
  let argc ← luaGetTop
  let argument ← luaValue (-1)
  if argc ≠ 1 ∨ argument.type ≠ .string then
    luajitPushError rt "wrong number or type of arguments"
  else do
    let err := cString (argument.text rt)
    let errBuff := if err.head? ≠ some dash then bytes "-" ++ err else err
    luajitPushErrorBuff rt errBuff

/-- The text without the dash it may start with. -/
def undashed (text : Bytes) : Bytes := if text.head? = some dash then text.drop 1 else text

/-- The text `server.error_reply` puts in the `err` field. -/
def errorReplyText (text : Bytes) : Bytes := errorBuffText (dash :: undashed text)

/-- The characters that are trimmed. -/
def isLineEnd (char : UInt8) : Bool := char ∈ bytes "\r\n"

/-- The call left a table on the top whose `err` field is this text. -/
def ReturnsError {σ : Type} (outcome : Outcome σ Unit) (text : Bytes) : Prop :=
  ∃ (addr : Addr) (final : World σ), outcome = .done () final ∧ final.get (-1) = .table addr ∧
    (final.lua.heap.cells addr).rawGet (.string (bytes "err")) = .string text

/-- The text is normalised once and for all: up to the dash it starts with, it has either a
space and no dash in front, or no line end in front or at its end. -/
def NormalisedAtOnce (text : Bytes) : Prop :=
  if blank ∈ undashed text then (undashed text).head? ≠ some dash
  else (∀ char, (undashed text).head? = some char → ¬ isLineEnd char) ∧
    ∀ char, (undashed text).getLast? = some char → ¬ isLineEnd char

section

variable {text code message : Bytes}

/-- Behind a dash, the text is split at the first space. -/
theorem errorBuffText_dash (terminated : 0 ∉ text) : errorBuffText (dash :: text) =
    if (dash :: text).idxOf blank = (dash :: text).length then bytes "ERR " ++ text
    else ((dash :: text).take ((dash :: text).idxOf blank)).tail ++ bytes " " ++
      trim isLineEnd ((dash :: text).drop ((dash :: text).idxOf blank + 1)) := by
  have whole : cString (dash :: text) = dash :: text := by
    rw [cString_eq_self_iff, List.mem_cons]
    exact not_or.mpr ⟨by decide, terminated⟩
  have isDash : UInt8.ofNat '-'.toNat = dash := rfl
  have isBlank : UInt8.ofNat ' '.toNat = blank := rfl
  have trims : isLineEnd = fun char => decide (char ∈ bytes "\r\n") := rfl
  simp only [errorBuffText, whole, isDash, isBlank, List.head?_cons, if_true, ljmStrtrim_eq, trims,
    List.drop_one, List.tail_cons]

/-- With a space, the code is what stands before it, and the message is trimmed. -/
theorem errorBuffText_split (terminated : 0 ∉ code ++ blank :: message) (first : blank ∉ code) :
    errorBuffText (dash :: (code ++ blank :: message)) =
      code ++ blank :: trim isLineEnd message := by
  have space : (dash :: (code ++ blank :: message)).idxOf blank = code.length + 1 := by
    rw [List.idxOf_cons_ne _ (by decide), List.idxOf_append_of_notMem first, List.idxOf_cons_self]
  have separator : bytes " " = [blank] := by decide
  have inside : code.length + 1 ≠ (dash :: (code ++ blank :: message)).length := by simp
  have short : code.drop (code.length + 1) = [] := List.drop_eq_nil_of_le (Nat.le_succ _)
  rw [errorBuffText_dash terminated, space, if_neg inside, separator]
  simp [List.drop_append, short]

/-- Without a space, a general code is put before the text as it is. -/
theorem errorBuffText_whole (terminated : 0 ∉ text) (unsplit : blank ∉ text) :
    errorBuffText (dash :: text) = bytes "ERR " ++ text := by
  have absent : blank ∉ dash :: text := by
    rw [List.mem_cons]
    exact not_or.mpr ⟨by decide, unsplit⟩
  rw [errorBuffText_dash terminated, if_pos (List.idxOf_eq_length absent)]

theorem undashed_of_head (other : text.head? ≠ some dash) : undashed text = text := if_neg other

/-- A text without NUL gives one without NUL. -/
theorem zero_notMem_undashed (terminated : 0 ∉ text) : 0 ∉ undashed text := by
  unfold undashed
  split
  · exact fun present => terminated (List.mem_of_mem_drop present)
  · exact terminated

/-- Normalising a text with a space again finds the same code, unless it starts with a dash. -/
theorem errorReplyText_split_iff (terminated : 0 ∉ code ++ blank :: message)
    (first : blank ∉ code) :
    errorReplyText (code ++ blank :: trim isLineEnd message) =
        code ++ blank :: trim isLineEnd message ↔
      (code ++ blank :: message).head? ≠ some dash := by
  have terminated' : 0 ∉ code ++ blank :: trim isLineEnd message := by
    intro present
    apply terminated
    rw [List.mem_append, List.mem_cons] at present ⊢
    exact present.imp id (Or.imp id mem_of_mem_trim)
  cases code with
  | nil =>
      have apart : blank ≠ dash := by decide
      have other : ([] ++ blank :: trim isLineEnd message).head? ≠ some dash := by simpa using apart
      refine iff_of_true ?_ (by simpa using apart)
      rw [errorReplyText, undashed_of_head other, errorBuffText_split terminated' first, trim_trim]
  | cons char code =>
      by_cases isDash : char = dash
      · subst isDash
        refine iff_of_false (fun same => ?_) (by simp)
        have stripped : undashed (dash :: code ++ blank :: trim isLineEnd message) =
            code ++ blank :: trim isLineEnd message := by simp [undashed]
        have terminated'' : 0 ∉ code ++ blank :: trim isLineEnd message :=
          fun present => terminated' (List.mem_cons_of_mem _ present)
        have first' : blank ∉ code := fun present => first (List.mem_cons_of_mem _ present)
        rw [errorReplyText, stripped, errorBuffText_split terminated'' first', trim_trim] at same
        have lengths := congrArg List.length same
        simp at lengths
      · have other : (char :: code ++ blank :: trim isLineEnd message).head? ≠ some dash := by
          simpa using isDash
        refine iff_of_true ?_ (by simpa using isDash)
        rw [errorReplyText, undashed_of_head other, errorBuffText_split terminated' first, trim_trim]

/-- Normalising a text without a space again trims what the first time left. -/
theorem errorReplyText_whole (terminated : 0 ∉ text) :
    errorReplyText (bytes "ERR " ++ text) = bytes "ERR " ++ trim isLineEnd text := by
  have parts : bytes "ERR " ++ text = bytes "ERR" ++ blank :: text := by
    have code : bytes "ERR " = bytes "ERR" ++ [blank] := by decide
    simp [code]
  have other : (bytes "ERR" ++ blank :: text).head? ≠ some dash := by
    have starts : (bytes "ERR").head? = some 69 := by decide
    rw [List.head?_append, starts, Option.some_or]
    decide
  have terminated' : 0 ∉ bytes "ERR" ++ blank :: text := by
    rw [List.mem_append, List.mem_cons]
    exact not_or.mpr ⟨by decide, not_or.mpr ⟨by decide, terminated⟩⟩
  have again : bytes "ERR" ++ blank :: trim isLineEnd text =
      bytes "ERR " ++ trim isLineEnd text := by
    have code : bytes "ERR " = bytes "ERR" ++ [blank] := by decide
    simp [code]
  rw [parts, errorReplyText, undashed_of_head other, errorBuffText_split terminated' (by decide),
    again]

/-- Normalising the normalised text changes nothing exactly for these texts. -/
theorem errorReplyText_again_iff (terminated : 0 ∉ text) :
    (∀ char, (errorReplyText text).getLast? = some char → ¬ isLineEnd char) ∧
        errorReplyText (errorReplyText text) = errorReplyText text ↔ NormalisedAtOnce text := by
  have terminated' := zero_notMem_undashed terminated
  by_cases space : blank ∈ undashed text
  · obtain ⟨code, message, parts, first⟩ := List.eq_append_cons_of_mem space
    rw [NormalisedAtOnce, if_pos space, parts]
    rw [parts] at terminated'
    have normal : errorReplyText text = code ++ blank :: trim isLineEnd message := by
      rw [errorReplyText, parts, errorBuffText_split terminated' first]
    rw [normal, errorReplyText_split_iff terminated' first]
    refine and_iff_right fun char isLast => ?_
    rw [List.getLast?_append, List.getLast?_cons] at isLast
    cases last : (trim isLineEnd message).getLast? with
    | none =>
        rw [last] at isLast
        obtain rfl : blank = char := by simpa using isLast
        decide
    | some other =>
        rw [last] at isLast
        obtain rfl : other = char := by simpa using isLast
        exact trim_ends.2 other last
  · rw [NormalisedAtOnce, if_neg space, ← trim_eq_self_iff]
    have normal : errorReplyText text = bytes "ERR " ++ undashed text := by
      rw [errorReplyText, errorBuffText_whole terminated' space]
    rw [normal, errorReplyText_whole terminated', List.append_cancel_left_eq]
    refine and_iff_right_of_imp fun same char isLast => ?_
    rw [List.getLast?_append] at isLast
    cases last : (undashed text).getLast? with
    | none =>
        rw [last] at isLast
        obtain rfl : blank = char := by
          have stop : (bytes "ERR ").getLast? = some blank := by decide
          simpa [stop] using isLast
        decide
    | some other =>
        rw [last] at isLast
        obtain rfl : other = char := by simpa using isLast
        exact (trim_eq_self_iff.mp same).2 other last

/-- The text after normalisation has no NUL either. -/
theorem zero_notMem_errorReplyText (terminated : 0 ∉ text) : 0 ∉ errorReplyText text := by
  have terminated' := zero_notMem_undashed terminated
  by_cases space : blank ∈ undashed text
  · obtain ⟨code, message, parts, first⟩ := List.eq_append_cons_of_mem space
    rw [parts] at terminated'
    rw [errorReplyText, parts, errorBuffText_split terminated' first]
    intro present
    apply terminated'
    rw [List.mem_append, List.mem_cons] at present ⊢
    exact present.imp id (Or.imp id mem_of_mem_trim)
  · rw [errorReplyText, errorBuffText_whole terminated' space, List.mem_append]
    exact not_or.mpr ⟨by decide, terminated'⟩

end

section

variable {σ : Type} (rt : Runtime)

/-- The `err` field of what `server.error_reply` returns is the normalised text. -/
theorem returnsError_iff {text normal : Bytes} {world : World σ} (terminated : 0 ∉ text)
    (alone : world.frame = [.string text]) :
    ReturnsError (luajitRedisErrorReplyCommand rt world) normal ↔
      normal = errorReplyText text := by
  obtain ⟨frame, base, breached, lua, host, calls⟩ := world
  obtain rfl : frame = [.string text] := alone
  have buffer : (if text.head? ≠ some dash then bytes "-" ++ text else text) =
      dash :: undashed text := by
    have prefixed : bytes "-" = [dash] := by decide
    rw [prefixed]
    by_cases isDash : text.head? = some dash
    · obtain ⟨rest, rfl⟩ := List.head?_eq_some_iff.mp isDash
      simp [undashed]
    · rw [if_pos isDash, undashed_of_head isDash]
      rfl
  have ended : luajitRedisErrorReplyCommand rt ⟨[.string text], base, breached, lua, host, calls⟩ =
      luajitPushErrorBuff rt (dash :: undashed text)
        ⟨[.string text], base, breached, lua, host, calls⟩ := by
    have argument : cString ((Value.string text).text rt) = text :=
      cString_eq_self_iff.mpr terminated
    rw [← buffer]
    simp [luajitRedisErrorReplyCommand, Value.type, argument]
  have field (content : Bytes) : (Table.empty.rawSet (.string (bytes "err"))
      (.string content)).rawGet (.string (bytes "err")) = .string content :=
    Table.rawGet_rawSet_self _ _ (by simp)
  rw [ended, luajitPushErrorBuff_apply]
  constructor
  · rintro ⟨addr, final, done, top, found⟩
    cases done
    cases top
    rw [Heap.write_self, field] at found
    injection found with same
    exact same.symm
  · rintro rfl
    refine ⟨_, _, rfl, rfl, ?_⟩
    rw [Heap.write_self, field]
    rfl

/-- `server.error_reply` of a text gives an error that does not end in a line end, and that
`server.error_reply` gives back, exactly when the text is normalised at once. -/
theorem error_reply_normalises_iff {text : Bytes} {world : World σ} (terminated : 0 ∉ text)
    (alone : world.frame = [.string text]) :
    (∃ normal, ReturnsError (luajitRedisErrorReplyCommand rt world) normal ∧
        (∀ char, normal.getLast? = some char → ¬ isLineEnd char) ∧
        ∀ again : World σ, again.frame = [.string normal] →
          ReturnsError (luajitRedisErrorReplyCommand rt again) normal) ↔
      NormalisedAtOnce text := by
  have terminated' := zero_notMem_errorReplyText terminated
  rw [← errorReplyText_again_iff terminated]
  constructor
  · rintro ⟨normal, returned, clean, stable⟩
    obtain rfl := (returnsError_iff rt terminated alone).mp returned
    have twice := stable { world with frame := [.string (errorReplyText text)] } rfl
    exact ⟨clean, ((returnsError_iff rt terminated' rfl).mp twice).symm⟩
  · rintro ⟨clean, stable⟩
    refine ⟨_, (returnsError_iff rt terminated alone).mpr rfl, clean, fun again alone' => ?_⟩
    exact (returnsError_iff rt terminated' alone').mpr stable.symm

end

/-- An error without a space keeps the line end it came with. -/
theorem line_end_kept : ¬ ∀ (rt : Runtime) (text : Bytes) (world : World Unit), 0 ∉ text →
    world.frame = [.string text] →
      ∃ normal, ReturnsError (luajitRedisErrorReplyCommand rt world) normal ∧
        ∀ char, normal.getLast? = some char → ¬ isLineEnd char := by
  intro normalised
  obtain ⟨normal, returned, clean⟩ := normalised .plain (bytes "oops\n")
    ⟨[.string (bytes "oops\n")], [], false, luaLNewstate, (), []⟩ (by decide) rfl
  obtain rfl := (returnsError_iff .plain (by decide) rfl).mp returned
  exact clean (UInt8.ofNat '\n'.toNat) (by decide +kernel) (by decide)

/-- A code and a message are normalised at once. -/
theorem coded_error_normalised : ∃ normal : Bytes,
    ReturnsError (luajitRedisErrorReplyCommand .plain
        ⟨[.string (bytes "-BUSY try again\r\n")], [], false, luaLNewstate, (), []⟩) normal ∧
      (∀ char, normal.getLast? = some char → ¬ isLineEnd char) ∧
      ∀ again : World Unit, again.frame = [.string normal] →
        ReturnsError (luajitRedisErrorReplyCommand .plain again) normal :=
  (error_reply_normalises_iff .plain (by decide) rfl).mpr
    (by rw [NormalisedAtOnce, if_pos (by decide)]; decide)

end ValkeyLuajit
