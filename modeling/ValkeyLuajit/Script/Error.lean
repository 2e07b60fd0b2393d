import Mathlib.Algebra.Group.Int.Defs
import Mathlib.Algebra.Group.Nat.Defs
import ValkeyLuajit.Library.Trim
import ValkeyLuajit.Script.Context

/-!
# Error values

An error is a table whose `err` field holds the code and the message. This module
normalises error texts, pushes error tables, and reads the information out of an
error value when it is reported to the client.
-/

namespace ValkeyLuajit

open Lua

/-- The first loop of `ljm_strtrim`: `sp` moves right over characters of `cset`,
up to the last character of the text. -/
def skipLeading (text cset : Bytes) (last : Int) : Nat → Int → Int
  | 0, sp => sp
  | fuel + 1, sp =>
      if sp ≤ last ∧ text.getD sp.toNat 0 ∈ cset then skipLeading text cset last fuel (sp + 1)
      else sp

/-- The second loop of `ljm_strtrim`: `ep` moves left over characters of `cset`,
down to `sp`. -/
def skipTrailing (text cset : Bytes) (sp : Int) : Nat → Int → Int
  | 0, ep => ep
  | fuel + 1, ep =>
      if sp < ep ∧ text.getD ep.toNat 0 ∈ cset then skipTrailing text cset sp fuel (ep - 1)
      else ep

/-- `ljm_strtrim`: the positions are signed, since `end` starts one before the
buffer when the text is empty. -/
def ljmStrtrim (text cset : Bytes) : Bytes :=
  let last : Int := (text.length : Int) - 1
  let sp := skipLeading text cset last text.length 0
  let ep := skipTrailing text cset sp text.length last
  (text.drop sp.toNat).take (ep - sp + 1).toNat

section

variable {text cset : Bytes}

/-- The first loop stops at the first character that stays. -/
theorem skipLeading_eq {fuel i : Nat} (enough : text.length ≤ i + fuel) :
    skipLeading text cset ((text.length : Int) - 1) fuel i =
      (i + ((text.drop i).takeWhile (· ∈ cset)).length : Nat) := by
  induction fuel generalizing i with
  | zero =>
      have done : text.drop i = [] := List.drop_eq_nil_of_le (by omega)
      simp [skipLeading, done]
  | succ fuel inductionHypothesis =>
      by_cases inside : i < text.length
      · have here : text.getD i 0 = text[i] := by
          rw [List.getD_eq_getElem?_getD, List.getElem?_eq_getElem inside]
          rfl
        rw [List.drop_eq_getElem_cons inside, skipLeading, Int.toNat_natCast, here]
        by_cases dropped : text[i] ∈ cset
        · have next := inductionHypothesis (i := i + 1) (by omega)
          rw [if_pos ⟨by omega, dropped⟩, List.takeWhile_cons_of_pos (by simpa using dropped),
            List.length_cons]
          push_cast at next ⊢
          omega
        · rw [if_neg fun both => dropped both.2, List.takeWhile_cons_of_neg (by simpa using dropped)]
          rfl
      · have done : text.drop i = [] := List.drop_eq_nil_of_le (by omega)
        rw [skipLeading, if_neg fun both => inside (by omega), done]
        rfl

/-- The second loop stops at the last character that stays. -/
theorem skipTrailing_eq {fuel sp n : Nat} {first : UInt8} {rest : Bytes}
    (kept : text.drop sp = first :: rest) (stays : first ∉ cset) (inside : n ≤ rest.length)
    (enough : n ≤ fuel) :
    (text.drop sp).take (skipTrailing text cset sp fuel (sp + n : Nat) - sp + 1).toNat =
      ((text.drop sp).take (n + 1)).rdropWhile (· ∈ cset) := by
  induction n generalizing fuel with
  | zero =>
      have here : skipTrailing text cset sp fuel (sp + 0 : Nat) = sp := by
        cases fuel with
        | zero => rfl
        | succ fuel => exact if_neg fun both => absurd both.1 (by omega)
      rw [here, kept]
      simp [List.rdropWhile_singleton, stays]
  | succ n inductionHypothesis =>
      obtain ⟨fuel, rfl⟩ := Nat.exists_eq_add_one_of_ne_zero (Nat.ne_of_gt (Nat.zero_lt_of_lt enough))
      have bound : n + 1 < (text.drop sp).length := by rw [kept, List.length_cons]; omega
      have here : text.getD (sp + (n + 1)) 0 = (text.drop sp)[n + 1] := by
        have inside : sp + (n + 1) < text.length := by simp at bound; omega
        rw [List.getElem_drop, List.getD_eq_getElem?_getD, List.getElem?_eq_getElem inside]
        rfl
      rw [List.take_succ_eq_append_getElem bound, List.rdropWhile_concat, skipTrailing,
        Int.toNat_natCast, here]
      by_cases dropped : (text.drop sp)[n + 1] ∈ cset
      · have next := @inductionHypothesis fuel (by omega) (by omega)
        have back : ((sp + (n + 1) : Nat) : Int) - 1 = (sp + n : Nat) := by omega
        rw [if_pos ⟨by omega, dropped⟩, if_pos (by simpa using dropped), back, next]
      · rw [if_neg fun both => dropped both.2, if_neg (by simpa using dropped),
          ← List.take_succ_eq_append_getElem bound]
        congr 1
        omega

/-- `ljm_strtrim` trims. -/
theorem ljmStrtrim_eq (text cset : Bytes) : ljmStrtrim text cset = trim (· ∈ cset) text := by
  let sp := (text.takeWhile (· ∈ cset)).length
  have start : skipLeading text cset ((text.length : Int) - 1) text.length 0 = sp := by
    simpa using @skipLeading_eq text cset text.length 0 (by omega)
  have kept : text.drop sp = text.dropWhile (· ∈ cset) := by
    have parts := @List.drop_left _ (text.takeWhile (· ∈ cset)) (text.dropWhile (· ∈ cset))
    rwa [List.takeWhile_append_dropWhile] at parts
  have lengths : sp + (text.dropWhile (· ∈ cset)).length = text.length := by
    rw [← List.length_append, List.takeWhile_append_dropWhile]
  simp only [ljmStrtrim, start, Int.toNat_natCast, trim]
  cases left : text.dropWhile (· ∈ cset) with
  | nil =>
      rw [kept, left]
      simp
  | cons first rest =>
      rw [left] at kept
      have stays : first ∉ cset := by
        have unlike := List.head?_dropWhile_not (· ∈ cset) text
        rw [left] at unlike
        simpa using unlike
      rw [left, List.length_cons] at lengths
      have last : (text.length : Int) - 1 = (sp + rest.length : Nat) := by omega
      have whole : first :: rest = (text.drop sp).take (rest.length + 1) := by simp [kept]
      rw [last, skipTrailing_eq kept stays (Nat.le_refl _) (by omega), ← whole]

end

/-- The text `luajitPushErrorBuff` puts in the `err` field. -/
def errorBuffText (errBuffer : Bytes) : Bytes :=
  let buffer := cString errBuffer
  let space := buffer.idxOf (UInt8.ofNat ' '.toNat)
  if buffer.head? = some (UInt8.ofNat '-'.toNat) then
    if space = buffer.length then bytes "ERR " ++ buffer.drop 1
    else (buffer.take space).drop 1 ++ bytes " " ++
      ljmStrtrim (buffer.drop (space + 1)) (bytes "\r\n")
  else ljmStrtrim buffer (bytes "\r\n")

section

variable {σ : Type} (rt : Runtime)

/-- Push an error table. -/
def luajitPushErrorBuff (errBuffer : Bytes) : LuaM σ Unit := do
  luaNewTable
  luaPushString "err"
  luaPush (.string (errorBuffText errBuffer))
  luaSetTable rt (-3)

/-- An error table is a fresh table, whatever its text. -/
theorem luajitPushErrorBuff_apply (errBuffer : Bytes) (frame base : List Value) (breached : Bool)
    (lua : State) (host : σ) (calls : List (FuncRef × State)) :
    luajitPushErrorBuff rt errBuffer ⟨frame, base, breached, lua, host, calls⟩ =
      .done () ⟨.table lua.heap.next :: frame, base, breached,
        { lua with
          heap := (lua.heap.alloc .empty).write lua.heap.next
            (Table.empty.rawSet (.string (bytes "err")) (.string (errorBuffText errBuffer))) },
        host, calls⟩ := by
  have fresh : (lua.heap.alloc .empty).cells lua.heap.next = .empty := by
    simp [Heap.alloc, Heap.write]
  have bare : ((lua.heap.alloc .empty).cells lua.heap.next).metatable = none := by
    rw [fresh]
    rfl
  simp [luajitPushErrorBuff, luaNewTable, luaSetTable, luaAssign,
    Heap.newIndex_of_no_metatable _ bare, fresh]

def luajitPushError (error : String) : LuaM σ Unit := luajitPushErrorBuff rt (bytes error)

/-- Raise the value on the top of the stack. -/
def luajitError {α : Type} : LuaM σ α := do
  luaError (← luaValue (-1))

@[simp] theorem luajitError_apply {α : Type} (world : World σ) :
    luajitError (α := α) world = .raised (world.get (-1)) world := rfl

end

/-- `lua_tostring` of a string or a number. -/
def Lua.Value.text (rt : Runtime) : Value → Bytes
  | .string content => content
  | .number quantity => rt.numberText quantity
  | _ => []

/-- `errorInfo`. -/
structure ErrorInfo where
  msg : Option Bytes
  source : Option Bytes
  line : Option Bytes
  ignoreErrStatsUpdate : Bool
deriving DecidableEq

section

variable {σ : Type} (rt : Runtime)

/-- Read one field of the error value on the top as a C string, if it is one. -/
def readErrorField (field : String) : LuaM σ (Option Bytes) := do
  luaGetField rt (-1) field
  let found ← luaValue (-1)
  luaPop 1
  pure (if found.isString then some (cString (found.text rt)) else none)

/-- Read the information an error value carries. The fields are read with
`lua_getfield`, which honours the value's metatable. -/
def luajitExtractErrorInformation : LuaM σ ErrorInfo := do
  let top ← luaValue (-1)
  if top.isString then
    pure ⟨some (bytes "ERR " ++ cString (top.text rt)), none, none, false⟩
  else
    let msg ← readErrorField rt "err"
    let source ← readErrorField rt "source"
    let line ← readErrorField rt "line"
    luaGetField rt (-1) "ignore_error_stats_update"
    let found ← luaValue (-1)
    luaPop 1
    pure ⟨some (msg.getD (bytes "ERR unknown error")), source, line,
      found.isBoolean && found.toBoolean⟩

/-- The count hook: a killed call raises, and the hook then fires on every line. -/
def luajitMaskCountHook (killed : Bool) : LuaM CallHost Unit := do
  requireRunCtx
  if killed then
    emit .killObserved
    luaSetHook (some ⟨"luajitMaskCountHook", .line⟩)
    let host ← getHost
    luajitPushError rt (match host.callCtx.map FuncCallCtx.type with
      | some .eval => "ERR Script killed by user with SCRIPT KILL."
      | _ => "ERR Script killed by user with FUNCTION KILL.")
    luajitError
  else pure ()

end

end ValkeyLuajit
