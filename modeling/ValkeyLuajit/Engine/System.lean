import ValkeyLuajit.Engine.Call
import ValkeyLuajit.Engine.Environment
import ValkeyLuajit.Library.InputMachine

/-!
# The engine under a server

The server compiles, calls and frees functions and resets the environment in any
order. It holds a handle for every function it has not freed, and remembers which
compilation made it and how many resets of the libraries came before. `loads`
remembers what the top-level code of a library registered when it last ran to its
end in a user's function state.
-/

namespace ValkeyLuajit

open Lua

/-- A compiled function the server holds, with the code it was compiled from. -/
structure Held where
  compiled : CompiledFunction
  source : Bytes
  compilation : Nat
  generation : Nat
deriving DecidableEq

/-- The library a function refers to. -/
def Held.libId (handle : Held) : Option Nat :=
  match handle.compiled.function.data with
  | .source _ => none
  | .functionRef _ libId => some libId

/-- The subsystem a function is called in. -/
def Held.type (handle : Held) : SubsystemType :=
  match handle.compiled.function.data with
  | .source _ => .eval
  | .functionRef _ _ => .function

/-- The engine, the functions the server holds, and what has happened so far. -/
structure System where
  ctx : EngineCtx
  held : List Held
  compilations : Nat
  generation : Nat
  crashed : Bool
  loads : Bytes → Nat → Option (List (Bytes × Value))

/-- One thing the server asks of the engine. -/
inductive Request where
  | compile (type : SubsystemType) (code : Bytes) (fuel : Nat) (topLevel : ScriptRun)
  | call (username : Bytes) (handle : Held) (keys args : List Bytes) (load body : ScriptRun)
  | free (handle : Held)
  | reset (type : SubsystemType) (async insecure : Bool)

/-- What the top-level code of a library registered, in order. -/
def libraryRegistrations (trace : List Event) : List (Bytes × Value) :=
  trace.filterMap fun
    | .registered .library name callback => some (name, callback)
    | _ => none

/-- A call by a user: how `luajitEngineFunctionCall` ends in the user's state. -/
def callOutcome (rt : Runtime) (ctx : EngineCtx) (username : Bytes) (handle : Held)
    (keys args : List Bytes) (load body : ScriptRun) : Outcome CallHost Unit :=
  luajitEngineFunctionCall rt ctx handle.compiled.function handle.type keys args load body
    ((userState ctx username).of handle.type).enter

/-- The engine after a call. -/
def callCtx (ctx : EngineCtx) (username : Bytes) (handle : Held)
    (outcome : Outcome CallHost Unit) : EngineCtx :=
  { ctx with
    userStates := ctx.userStates.insert (cString username)
      ((userState ctx username).put handle.type (leaveLua outcome.world)) }

/-- What is remembered after a call of a library's function. -/
def callLoads (loads : Bytes → Nat → Option (List (Bytes × Value))) (username : Bytes)
    (libId : Option Nat) (before : State) (final : World CallHost) :
    Bytes → Nat → Option (List (Bytes × Value)) :=
  fun user library =>
    if user = cString username ∧ libId = some library ∧
        before.loaded library = false ∧ final.lua.loaded library then
      some (libraryRegistrations final.host.trace)
    else loads user library

namespace System

/-- The engine after it was loaded. -/
def initial (enableFfiApi : Bool) : System where
  ctx := createEngineContext enableFfiApi
  held := []
  compilations := 0
  generation := 0
  crashed := false
  loads := fun _ _ => none

/-- The server frees and calls the functions it holds, and nothing once the process
is gone. -/
def Admits (system : System) : Request → Prop
  | .compile _ _ _ _ => system.crashed = false
  | .call _ handle _ _ _ _ => system.crashed = false ∧ handle ∈ system.held
  | .free handle => system.crashed = false ∧ handle ∈ system.held
  | .reset _ _ _ => system.crashed = false

instance (system : System) : (request : Request) → Decidable (system.Admits request)
  | .compile _ _ _ _ => inferInstanceAs (Decidable (system.crashed = false))
  | .call _ handle _ _ _ _ =>
      inferInstanceAs (Decidable (system.crashed = false ∧ handle ∈ system.held))
  | .free handle => inferInstanceAs (Decidable (system.crashed = false ∧ handle ∈ system.held))
  | .reset _ _ _ => inferInstanceAs (Decidable (system.crashed = false))

/-- A reset of this type drops the libraries. -/
def dropsLibraries (type : SubsystemType) : Bool := type = .function || type = .all

/-- One request. -/
def step (rt : Runtime) (system : System) : Request → System
  | .compile type code fuel topLevel =>
      match luajitEngineCompileCode rt system.ctx type code fuel topLevel with
      | none => { system with crashed := true }
      | some (ctx, .error _) => { system with ctx := ctx, compilations := system.compilations + 1 }
      | some (ctx, .ok functions) =>
          { system with
            ctx := ctx
            held := system.held ++ functions.map fun compiled =>
              ⟨compiled, code, system.compilations, system.generation⟩
            compilations := system.compilations + 1 }
  | .call username handle keys args load body =>
      let outcome := callOutcome rt system.ctx username handle keys args load body
      { system with
        ctx := ValkeyLuajit.callCtx system.ctx username handle outcome
        crashed := decide ¬outcome.IsDone
        loads := callLoads system.loads username handle.libId
          ((userState system.ctx username).of handle.type).lua outcome.world }
  | .free handle =>
      { system with
        ctx := luajitEngineFreeFunction rt system.ctx handle.compiled
        held := system.held.erase handle }
  | .reset type async insecure =>
      { system with
        ctx := (luajitEngineResetEnv system.ctx type async insecure).ctx
        generation := if dropsLibraries type then system.generation + 1 else system.generation
        loads := if dropsLibraries type then fun _ _ => none else system.loads }

/-- The engine and its server as a machine. -/
def machine (rt : Runtime) : InputMachine System Request := ⟨Admits, step rt⟩

instance (rt : Runtime) (system : System) (requests : List Request) :
    Decidable ((machine rt).Run system requests) :=
  @InputMachine.decidableAlong _ _ (machine rt) Admits (fun _ _ => inferInstance) system requests

/-- Top-level code that registers one function in the scratch state. -/
def registersOne : ScriptRun :=
  ⟨[.call .registerFunction [.string (bytes "f"), .function (.closure 0)]], .ok .nil⟩

/-- The same code in a user's function state. -/
def loadsOne : ScriptRun :=
  ⟨[.call .userRegisterFunction [.string (bytes "f"), .function (.closure 0)]], .ok .nil⟩

/-- A body that does nothing and returns nil. -/
def idleBody : ScriptRun := ⟨[], .ok .nil⟩

/-- The function of the first library that is compiled so. -/
def firstHandle : Held :=
  ⟨⟨some ⟨1, bytes "f"⟩, none, ⟨.functionRef (bytes "f") 1, 1⟩, 0⟩, [1], 0, 0⟩

end System

end ValkeyLuajit
