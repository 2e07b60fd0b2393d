import ValkeyLuajit.Engine.Loading
import ValkeyLuajit.Script.Unprotected

/-!
# A load that ends badly

A load ends badly when its source is rejected or its top-level code raises. The
pending functions are freed once the error has been read; reading it is not
protected, and an error raised there takes the process down.
-/

namespace ValkeyLuajit

open Lua

section

variable {rt : Runtime} {fuel : Nat} {code : Bytes} {topLevel : ScriptRun}

end

end ValkeyLuajit
