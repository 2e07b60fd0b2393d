import ValkeyLuajit.Script.Execution
import ValkeyLuajit.Script.Reply
import Mathlib.Data.Rat.Floor

/-!
# Random numbers

`math.random` and `math.randomseed` are functions of the module. They draw from the
generator of `rand.c`, three 16-bit limbs of static data: there is one for the whole
process, whatever Lua state the caller runs in. A quotient of draws is the exact
rational here.
-/

namespace ValkeyLuajit

open Lua

/-- `x` of `rand.c`; `a` and `c` never change. -/
structure Generator where
  x0 : Nat
  x1 : Nat
  x2 : Nat
deriving DecidableEq

namespace Rand

/-- `LOW`: the lower 16 bits, on which arithmetic modulo `2 ^ 32` agrees with that on
natural numbers. -/
def low (value : Nat) : Nat := value % 2 ^ 16

/-- `HIGH`. -/
def high (value : Nat) : Nat := low (value / 2 ^ 16)

/-- `CARRY`. -/
def carry (x y : Nat) : Nat := if x + y > 2 ^ 16 - 1 then 1 else 0

def x0 : Nat := 0x330E
def x1 : Nat := 0xABCD
def x2 : Nat := 0x1234
def a0 : Nat := 0xE66D
def a1 : Nat := 0xDEEC
def a2 : Nat := 0x5
def c : Nat := 0xB

/-- The generator when the process starts. -/
def initial : Generator := ⟨x0, x1, x2⟩

/-- `next`: multiply by `a` and add `c`, limb by limb. -/
def next (generator : Generator) : Generator :=
  let product := a0 * generator.x0
  let p0 := low product
  let p1 := high product
  let carry0 := carry p0 c
  let p0 := low (p0 + c)
  let carry1 := carry p1 carry0
  let p1 := low (p1 + carry0)
  let product := a0 * generator.x1
  let q0 := low product
  let q1 := high product
  let carry0 := carry p1 q0
  let p1 := low (p1 + q0)
  let product := a1 * generator.x0
  let r0 := low product
  let r1 := high product
  { x2 := low (carry0 + carry1 + carry p1 r0 + q1 + r1 + a0 * generator.x2 + a1 * generator.x1 +
      a2 * generator.x0)
    x1 := low (p1 + r0)
    x0 := low p0 }

/-- `serverLrand48`, after `next`: the 31 upper bits. -/
def lrand48 (generator : Generator) : Nat := generator.x2 * 2 ^ 15 + generator.x1 / 2

/-- `serverSrand48` of a 32-bit seed. -/
def serverSrand48 (seedval : Int) : Generator :=
  let seed := (seedval % 2 ^ 32).toNat
  ⟨x0, low seed, high seed⟩

end Rand

/-- `SERVER_LRAND48_MAX`. -/
def serverLrand48Max : Nat := 2 ^ 31 - 1

/-- `int` of a whole number. -/
def toInt32 (value : Int) : Int := value.bmod (2 ^ 32)

/-- `lua_typename`. -/
def Lua.LuaType.name : LuaType → String
  | .nil => "nil"
  | .boolean => "boolean"
  | .lightuserdata => "userdata"
  | .number => "number"
  | .string => "string"
  | .table => "table"
  | .function => "function"
  | .userdata => "userdata"
  | .thread => "thread"

section

variable (rt : Runtime)

/-- `luaL_argerror`, without the position LuaJIT puts before the message. -/
def luaLArgError {σ α : Type} (narg : Nat) (function message : String) : LuaM σ α :=
  luaError (.string (bytes
    ("bad argument #" ++ toString narg ++ " to '" ++ function ++ "' (" ++ message ++ ")")))

/-- `luaL_checkint`. -/
def luaLCheckInt {σ : Type} (narg : Nat) (function : String) : LuaM σ Int := do
  let top ← luaGetTop
  if top < narg then luaLArgError narg function "number expected, got no value"
  else do
    let argument ← luaValue narg
    match argument.toNumber rt with
    | some number => pure (toInt32 number.toLongLong)
    | none => luaLArgError narg function ("number expected, got " ++ argument.type.name)

/-- `luaL_argcheck`. -/
def luaLArgCheck {σ : Type} (condition : Bool) (narg : Nat) (function message : String) :
    LuaM σ Unit :=
  if condition then pure () else luaLArgError narg function message

/-- The argument is there and a number, or the function raises. -/
theorem luaLCheckInt_one_cases {σ : Type} (function : String) (arguments base : List Value)
    (breached : Bool) :
    (∃ number, arguments.head?.bind (Value.toNumber rt) = some number ∧
        ∀ lua (host : σ) calls,
          luaLCheckInt rt 1 function ⟨arguments.reverse, base, breached, lua, host, calls⟩ =
            .done (toInt32 number.toLongLong)
              ⟨arguments.reverse, base, breached, lua, host, calls⟩) ∨
      ∃ error, arguments.head?.bind (Value.toNumber rt) = none ∧
        ∀ lua (host : σ) calls,
          luaLCheckInt rt 1 function ⟨arguments.reverse, base, breached, lua, host, calls⟩ =
            .raised error ⟨arguments.reverse, base, breached, lua, host, calls⟩ := by
  cases arguments with
  | nil => exact .inr ⟨_, rfl, fun _ _ _ => rfl⟩
  | cons first rest =>
      cases text : first.toNumber rt with
      | some number =>
          refine .inl ⟨number, text, fun lua host calls => ?_⟩
          simp [luaLCheckInt, World.get, World.slot, text]
      | none =>
          let message := "number expected, got " ++ first.type.name
          refine .inr ⟨.string (bytes ("bad argument #" ++ toString 1 ++ " to '" ++ function ++
            "' (" ++ message ++ ")")), text, fun lua host calls => ?_⟩
          simp [luaLCheckInt, luaLArgError, World.get, World.slot, text, message]

/-- `serverLrand48`. -/
def serverLrand48 : LuaM Generator Nat := fun world =>
  let generator := Rand.next world.host
  .done (Rand.lrand48 generator) (world.setHost generator)

/-- `math.random`. The width of the interval is computed in `int`. -/
def serverMathRandom : LuaM Generator Unit := do
  let draw ← serverLrand48
  let r : Rat := (draw % serverLrand48Max : Nat) / serverLrand48Max
  match ← luaGetTop with
  | 0 => luaPush (.number (.finite r))
  | 1 => do
      let u ← luaLCheckInt rt 1 "random"
      luaLArgCheck (1 ≤ u) 1 "random" "interval is empty"
      luaPush (.number (.finite (⌊r * u⌋ + 1 : Int)))
  | 2 => do
      let l ← luaLCheckInt rt 1 "random"
      let u ← luaLCheckInt rt 2 "random"
      luaLArgCheck (l ≤ u) 2 "random" "interval is empty"
      luaPush (.number (.finite (⌊r * toInt32 (u - l + 1)⌋ + l : Int)))
  | _ => luaError (.string (bytes "wrong number of arguments"))

def setGenerator (generator : Generator) : LuaM Generator Unit := fun world =>
  .done () (world.setHost generator)

/-- `math.randomseed`. -/
def serverMathRandomseed : LuaM Generator Unit := do
  let seedval ← luaLCheckInt rt 1 "randomseed"
  setGenerator (Rand.serverSrand48 seedval)

end

end ValkeyLuajit
