import ValkeyLuajit.Lua.Recorded
import ValkeyLuajit.Script.Residue

/-!
# What the commands do with the user's name

`ValkeyModule_GetCurrentUserName` gives NULL when the client has no user. `server.call` and
`server.pcall` look before they free the name; `server.acl_check_cmd` looks the user up and
frees the name in any case.
-/

namespace ValkeyLuajit

open Lua

/-- A use of a user name, and whether there is one. -/
inductive NameUse where
  /-- `ValkeyModule_StringPtrLen`. -/
  | read (present : Bool)
  /-- `ValkeyModule_GetModuleUserFromUserName`. -/
  | lookUp (present : Bool)
  /-- `ValkeyModule_FreeString`. -/
  | free (present : Bool)
deriving DecidableEq

/-- The name that is used is not NULL. -/
def NameUse.Valid : NameUse → Prop
  | .read present | .lookUp present | .free present => present = true

instance : (use : NameUse) → Decidable use.Valid
  | .read _ | .lookUp _ | .free _ => inferInstanceAs (Decidable (_ = true))

namespace Named

open Recorded

variable (rt : Runtime) (fpconv : Number → Bytes)

/-- The name is freed if there is one. -/
def lookAtUsername (hasUsername : Bool) : Recorded NameUse CommandHost Unit :=
  if hasUsername then do
    let username ← run (createString [])
    note [.free hasUsername]
    run (freeString username)
  else pure ()

def luajitServerGenericCommand (answer : ServerAnswer) (raiseError : Bool) :
    Recorded NameUse CommandHost Unit := do
  run requireRunCtx
  match ← run (luajitArgsToServerArgv rt fpconv) with
  | none => if raiseError then run luajitError else pure ()
  | some argv => do
      let host ← run getCommandHost
      if host.inuse ≠ 0 then
        run (luajitPushError rt recursionWarning)
      else do
        run (setInuse (· + 1))
        lookAtUsername answer.hasUsername
        let texts := argv.map ModuleString.text
        let reply ← run (moduleCall
          ⟨cString (texts.headD []), callFormat answer.hasUsername host.rctx, texts.tail⟩)
        run (freeLuajitServerArgv argv)
        run (finishCommand rt answer host.rctx.resp reply raiseError)

/-- What `server.acl_check_cmd` pushes: true or false, or an error that is raised later. The
error number is that of `ValkeyModule_ACLCheckPermissions`, 0 when it permits the command. -/
def pushPermission (errno : Nat) : LuaM CommandHost Bool :=
  if errno = 0 then do
    luaPush (.boolean true)
    pure false
  else if errno = eInval then do
    luajitPushError rt "ERR Invalid command passed to server.acl_check_cmd()"
    pure true
  else do
    moduleAssert (errno = eAcces) "errno == EACCES"
    luaPush (.boolean false)
    pure false

/-- `server.acl_check_cmd`. -/
def luajitRedisAclCheckCmdPermissionsCommand (answer : ServerAnswer) :
    Recorded NameUse CommandHost Unit := do
  run requireRunCtx
  match ← run (luajitArgsToServerArgv rt fpconv) with
  | none => run luajitError
  | some argv => do
      note [.lookUp answer.hasUsername, .free answer.hasUsername]
      run (ValkeyLuajit.lookAtUsername answer.hasUsername)
      let raiseError ← run (pushPermission rt answer.errno)
      run (freeLuajitServerArgv argv)
      if raiseError then run luajitError else pure ()

section Commands

variable {rt fpconv} {answer : ServerAnswer}

theorem erases_lookAtUsername (hasUsername : Bool) :
    Erases (lookAtUsername hasUsername) (ValkeyLuajit.lookAtUsername hasUsername) :=
  erases_ite (erases_step fun _ => erases_note (erases_run _)) (erases_pure ())

theorem erases_luajitServerGenericCommand (raiseError : Bool) :
    Erases (luajitServerGenericCommand rt fpconv answer raiseError)
      (ValkeyLuajit.luajitServerGenericCommand rt fpconv answer raiseError) := by
  apply erases_step
  intro _
  apply erases_step
  intro converted
  cases converted with
  | none => exact erases_ite (erases_run _) (erases_pure ())
  | some argv =>
      apply erases_step
      intro host
      apply erases_ite (erases_run _)
      apply erases_step
      intro _
      apply erases_bind (erases_lookAtUsername answer.hasUsername)
      intro _
      exact erases_step fun reply => erases_step fun _ => erases_run _

/-- A command only frees a name that is there. -/
theorem every_luajitServerGenericCommand (raiseError : Bool) :
    (Account.every NameUse.Valid).Covers
      (luajitServerGenericCommand rt fpconv answer raiseError) := by
  refine Account.every_step fun _ => Account.every_step fun converted => ?_
  cases converted with
  | none => exact Account.covers_ite (Account.every_run _) (Account.covers_pure ())
  | some argv =>
      refine Account.every_step fun host => Account.covers_ite (Account.every_run _) ?_
      refine Account.every_step fun _ => Account.covers_bind ?_ fun _ =>
        Account.every_step fun reply => Account.every_step fun _ => Account.every_run _
      cases named : answer.hasUsername with
      | false => exact Account.covers_pure ()
      | true =>
          refine Account.every_step fun username => Account.every_note ?_ (Account.every_run _)
          intro use member
          obtain rfl := List.mem_singleton.mp member
          rfl

/-- With a name the check uses it well. -/
theorem every_luajitRedisAclCheckCmdPermissionsCommand (named : answer.hasUsername = true) :
    (Account.every NameUse.Valid).Covers
      (luajitRedisAclCheckCmdPermissionsCommand rt fpconv answer) := by
  refine Account.every_step fun _ => Account.every_step fun converted => ?_
  cases converted with
  | none => exact Account.every_run _
  | some argv =>
      refine Account.every_note ?_ ?_
      · intro use member
        rw [named] at member
        rcases List.mem_cons.mp member with rfl | member
        · rfl
        · obtain rfl := List.mem_singleton.mp member
          rfl
      · refine Account.every_step fun _ => Account.every_step fun raiseError => ?_
        exact Account.every_step fun _ =>
          Account.covers_ite (Account.every_run _) (Account.covers_pure ())

/-- Without a run context or with arguments that do not convert the check does not come to
the name. -/
theorem luajitRedisAclCheckCmdPermissionsCommand_early {start : World CommandHost}
    (early : ¬ (HasRunCtx start.lua ∧ ArgumentsConvert start.frame)) :
    (luajitRedisAclCheckCmdPermissionsCommand rt fpconv answer start).notes = [] := by
  obtain ⟨frame, base, breached, lua, host, calls⟩ := start
  rcases requireRunCtx_cases (World.mk frame base breached lua host calls)
    with ⟨live, passes⟩ | ⟨-, reason, final, stops, -⟩
  · have fails : frame = [] ∨ ∃ argument ∈ frame, ¬ argument.isString := by
      by_contra fit
      rw [not_or, not_exists] at fit
      exact early ⟨live, fit.1, fun argument member => by
        simpa using fun odd => fit.2 argument ⟨member, odd⟩⟩
    obtain ⟨heap, count, run, -⟩ :=
      luajitArgsToServerArgv_fails rt fpconv frame base breached lua host calls fails
    rw [luajitRedisAclCheckCmdPermissionsCommand, notes_step passes, notes_step run]
    rfl
  · have ends : ¬ (run requireRunCtx (World.mk frame base breached lua host calls) :
        Report NameUse CommandHost Unit).outcome.IsDone := by
      change ¬ (requireRunCtx _).IsDone
      rw [stops]
      exact id
    rw [luajitRedisAclCheckCmdPermissionsCommand, notes_bind_of_not_done ends]
    rfl

/-- The check uses NULL exactly when it comes to the name and there is none. -/
theorem luajitRedisAclCheckCmdPermissionsCommand_valid_iff {start : World CommandHost} :
    (∀ use ∈ (luajitRedisAclCheckCmdPermissionsCommand rt fpconv answer start).notes, use.Valid) ↔
      (HasRunCtx start.lua → ArgumentsConvert start.frame → answer.hasUsername = true) := by
  constructor
  · intro valid live converts
    obtain ⟨frame, base, breached, lua, host, calls⟩ := start
    have passes : requireRunCtx (World.mk frame base breached lua host calls) = _ :=
      requireRunCtx_of_live live
    have run := luajitArgsToServerArgv_converts rt fpconv frame base breached lua host calls
      converts.1 converts.2
    rw [luajitRedisAclCheckCmdPermissionsCommand, notes_step passes, notes_step run] at valid
    exact valid (.lookUp answer.hasUsername) (List.mem_append_left _ List.mem_cons_self)
  · intro named
    by_cases reached : HasRunCtx start.lua ∧ ArgumentsConvert start.frame
    · exact every_luajitRedisAclCheckCmdPermissionsCommand (named reached.1 reached.2) start
    · rw [luajitRedisAclCheckCmdPermissionsCommand_early reached]
      exact List.forall_mem_nil _

end Commands

end Named

end ValkeyLuajit
