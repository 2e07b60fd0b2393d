import ValkeyLuajit.Ffi.Wrappers

/-!
# The strings of a wrapper

Whatever its arguments and the answers of the module API, a wrapper frees no string the
script has, and none twice. It frees what it made before it returns or raises, but for two
slips: the wrappers about lexicographic ranges decide by the equality of the arguments
whether the second string is another one than the first, and `random_key` does not free a
key it cannot read.
-/

namespace ValkeyLuajit

open Lua

/-- A call of a wrapper, with its arguments. -/
inductive VkmCall where
  | randomKey
  | publishMessage (ctx : Pointer) (channel message : Argument)
  | publishMessageShard (ctx : Pointer) (channel message : Argument)
  | setClientNameById (id : Nat) (name : Argument)
  | openKey (ctx : Pointer) (name : Argument) (mode : Int)
  | keyExists (ctx : Pointer) (name : Argument)
  | signalModifiedKey (ctx : Pointer) (keyname : Argument)
  | stringSet (key : Pointer) (str : Argument)
  | zsetFirstInLexRange (key : Pointer) (min max : Argument)
  | zsetLastInLexRange (key : Pointer) (min max : Argument)
  | zsetScore (key : Pointer) (ele : Argument)
  | zsetRemove (key : Pointer) (ele : Argument)
  | zsetIncrby (key : Pointer) (score : Number) (ele : Argument)
  | streamAdd (key : Pointer) (place : StreamPlace) (fields : List Argument)
  | getModuleUserFromUsername (name : Argument)
  | notifyKeyspaceEvent (ctx : Pointer) (type : Int) (event : Bytes) (key : Argument)
  | setModuleUserAclString (ctx user : Pointer) (acl : Bytes)

/-- The module strings a program leaves, whether it returns or raises. -/
def Vkm.after {α : Type} (program : Vkm α) (strings : Ledger) : Ledger :=
  (program.run.run strings).2

/-- The module strings a call leaves. -/
def VkmCall.run (foreign : Foreign) : VkmCall → Ledger → Ledger
  | .randomKey => (Vkm.randomKey foreign).after
  | .publishMessage ctx channel message => (Vkm.publishMessage foreign ctx channel message).after
  | .publishMessageShard ctx channel message =>
      (Vkm.publishMessageShard foreign ctx channel message).after
  | .setClientNameById id name => (Vkm.setClientNameById foreign id name).after
  | .openKey ctx name mode => (Vkm.openKey foreign ctx name mode).after
  | .keyExists ctx name => (Vkm.keyExists foreign ctx name).after
  | .signalModifiedKey ctx keyname => (Vkm.signalModifiedKey foreign ctx keyname).after
  | .stringSet key str => (Vkm.stringSet foreign key str).after
  | .zsetFirstInLexRange key min max => (Vkm.zsetFirstInLexRange foreign key min max).after
  | .zsetLastInLexRange key min max => (Vkm.zsetLastInLexRange foreign key min max).after
  | .zsetScore key ele => (Vkm.zsetScore foreign key ele).after
  | .zsetRemove key ele => (Vkm.zsetRemove foreign key ele).after
  | .zsetIncrby key score ele => (Vkm.zsetIncrby foreign key score ele).after
  | .streamAdd key place fields => (Vkm.streamAdd foreign key place fields).after
  | .getModuleUserFromUsername name => (Vkm.getModuleUserFromUsername foreign name).after
  | .notifyKeyspaceEvent ctx type event key =>
      (Vkm.notifyKeyspaceEvent foreign ctx type event key).after
  | .setModuleUserAclString ctx user acl => (Vkm.setModuleUserAclString foreign ctx user acl).after

/-- The module string an argument is. -/
def Argument.handles : Argument → List ModuleString
  | .string _ => []
  | .handle str => [str]

/-- The module strings the script hands over. -/
def VkmCall.handles : VkmCall → List ModuleString
  | .randomKey | .setModuleUserAclString _ _ _ => []
  | .publishMessage _ first second | .publishMessageShard _ first second
  | .zsetFirstInLexRange _ first second | .zsetLastInLexRange _ first second =>
      first.handles ++ second.handles
  | .setClientNameById _ str | .openKey _ str _ | .keyExists _ str | .signalModifiedKey _ str
  | .stringSet _ str | .zsetScore _ str | .zsetRemove _ str | .zsetIncrby _ _ str
  | .getModuleUserFromUsername str | .notifyKeyspaceEvent _ _ _ str => str.handles
  | .streamAdd _ _ fields => fields.flatMap Argument.handles

/-- The bounds of a range are the same Lua string; or the server gives a random key without
a text, or describes an error of a call it answers with `OK`. -/
def VkmCall.Leaks (foreign : Foreign) : VkmCall → Prop
  | .zsetFirstInLexRange _ min max | .zsetLastInLexRange _ min max => min.isString ∧ max = min
  | .randomKey => ∃ ctx text, foreign.ctx = some ctx ∧ foreign.randomKey ctx = some text ∧
      foreign.stringPtrLen text = none
  | .setModuleUserAclString ctx user acl =>
      (foreign.setModuleUserAclString ctx user acl).1 = Vkm.ok ∧
        (foreign.setModuleUserAclString ctx user acl).2.isSome
  | _ => False

namespace Vkm

variable {α β : Type}

/-- A program that ends with as many strings as it began with, whatever these are. -/
def Balanced (program : Vkm α) : Prop :=
  ∀ strings : Ledger, ∃ freed, strings.Since (program.after strings) freed []

/-- Two programs in a row; the second one does not run when the first one raises. -/
theorem run_bind (program : Vkm α) (next : α → Vkm β) (strings : Ledger) :
    (program >>= next).run.run strings =
      match program.run.run strings with
      | (.ok value, strings) => (next value).run.run strings
      | (.error error, strings) => (.error error, strings) := by
  simp only [ExceptT.run_bind, StateT.run_bind]
  rcases program.run.run strings with ⟨error | value, strings⟩ <;> rfl

theorem balanced_pure (value : α) : Balanced (pure value) := fun strings => ⟨[], .refl strings⟩

/-- What does nothing to strings may follow. -/
theorem Balanced.bind {program : Vkm α} {next : α → Vkm β} (balanced : Balanced program)
    (still : ∀ value strings, (next value).after strings = strings) :
    Balanced (program >>= next) := by
  intro strings
  obtain ⟨freed, since⟩ := balanced strings
  refine ⟨freed, ?_⟩
  unfold after at since ⊢
  rw [run_bind]
  generalize program.run.run strings = result at since ⊢
  rcases result with ⟨error | value, middle⟩
  · exact since
  · have same : ((next value).run.run middle).2 = middle := still value middle
    simp only [same]
    exact since

/-- A string that was made for an argument is freed when it is not used any more. -/
theorem balanced_withString (argument : Argument) (call : ModuleString → α) :
    Balanced (withString argument call) := by
  intro strings
  cases argument with
  | string text =>
      exact ⟨_, (Ledger.Since.refl strings).make.release⟩
  | handle str => exact ⟨[], .refl strings⟩

theorem balanced_withElement (ele : Argument) (call : ModuleString → α) :
    Balanced (withElement ele call) := by
  intro strings
  cases ele with
  | string text =>
      exact ⟨_, (Ledger.Since.refl strings).make.release⟩
  | handle str => exact ⟨[], .refl strings⟩

/-- Each of the two strings is freed as its flag says. -/
theorem balanced_publishWith (publish : ModuleString → ModuleString → Int)
    (channel message : Argument) : Balanced (publishWith publish channel message) := by
  intro strings
  have start := Ledger.Since.refl strings
  cases channel with
  | string channel =>
      cases message with
      | string message =>
          have both := start.make.make.perm (List.Perm.swap _ _ _)
          have rest := both.release
          exact ⟨_, rest.release⟩
      | handle message =>
          exact ⟨_, start.make.release⟩
  | handle channel =>
      cases message with
      | string message =>
          exact ⟨_, start.make.release⟩
      | handle message => exact ⟨[], start⟩

/-- Of two strings the second one is not freed when it was made for the same text. -/
theorem after_inLexRangeWith (call : ModuleString → ModuleString → Int) (min max : Bytes)
    (strings : Ledger) :
    (inLexRangeWith call (.string min) (.string max)).after strings =
      if max = min then strings.make.make.release [strings.made]
      else (strings.make.make.release [strings.made]).release [strings.make.made] := by
  unfold inLexRangeWith
  by_cases same : max = min
  · have equal : ¬ ((Argument.string max).isString = true ∧
        Argument.string max ≠ Argument.string min) := by simp [same]
    rw [if_pos same]
    simp only [if_neg equal]
    rfl
  · have different : (Argument.string max).isString = true ∧
        Argument.string max ≠ Argument.string min := by simp [Argument.isString, same]
    rw [if_neg same]
    simp only [if_pos different]
    rfl

/-- Each string is freed as the type of its argument says, except the second of two strings
that were made for the same text. -/
theorem inLexRangeWith_since (call : ModuleString → ModuleString → Int) (min max : Argument)
    (strings : Ledger) :
    ∃ freed, strings.Since ((inLexRangeWith call min max).after strings) freed
      (if min.isString ∧ max = min then [strings.make.made] else []) := by
  have start := Ledger.Since.refl strings
  cases min with
  | string min =>
      cases max with
      | string max =>
          have both := start.make.make.perm (List.Perm.swap _ _ _)
          have rest := both.release
          rw [after_inLexRangeWith]
          by_cases same : max = min
          · rw [if_pos same, if_pos (by simp [Argument.isString, same])]
            exact ⟨_, rest⟩
          · rw [if_neg same, if_neg (by simp [same])]
            exact ⟨_, rest.release⟩
      | handle max =>
          rw [if_neg (by simp)]
          exact ⟨_, start.make.release⟩
  | handle min =>
      rw [if_neg (by simp [Argument.isString])]
      cases max with
      | string max =>
          exact ⟨_, start.make.release⟩
      | handle max => exact ⟨[], start⟩

/-- The strings that were made for fields. -/
def madeFor : List Argument → List ModuleString → List Nat
  | field :: fields, str :: strs =>
      if field.isString then str.id :: madeFor fields strs else madeFor fields strs
  | _, _ => []

/-- The first loop makes a string for each field that is a Lua string. -/
theorem createFields_since {earlier strings : Ledger} {freed held : List Nat}
    (fields : List Argument) (since : earlier.Since strings freed held) :
    ∃ argv later, (createFields fields).run.run strings = (.ok argv, later) ∧
      earlier.Since later freed (madeFor fields argv ++ held) := by
  induction fields generalizing strings held with
  | nil => exact ⟨[], strings, rfl, since⟩
  | cons field fields inductionHypothesis =>
      cases field with
      | string text =>
          obtain ⟨argv, later, ran, rest⟩ := inductionHypothesis since.make
          refine ⟨⟨strings.made, text⟩ :: argv, later, ?_, rest.perm List.perm_middle⟩
          change (createFields fields >>= fun strs => pure (_ :: strs)).run.run strings.make = _
          rw [run_bind, ran]
          rfl
      | handle str =>
          obtain ⟨argv, later, ran, rest⟩ := inductionHypothesis since
          refine ⟨str :: argv, later, ?_, rest⟩
          change (createFields fields >>= fun strs => pure (_ :: strs)).run.run strings = _
          rw [run_bind, ran]
          rfl

/-- The second loop frees the strings that were made. -/
theorem freeFields_since {earlier strings : Ledger} {freed held : List Nat}
    (fields : List Argument) (argv : List ModuleString)
    (since : earlier.Since strings freed (madeFor fields argv ++ held)) :
    ∃ freed' later, (freeFields fields argv).run.run strings = (.ok (), later) ∧
      earlier.Since later freed' held := by
  induction fields, argv using madeFor.induct generalizing strings freed with
  | case1 field fields str argv made inductionHypothesis =>
      rw [madeFor, if_pos made] at since
      have next := since.release
      obtain ⟨freed', later, ran, rest⟩ := inductionHypothesis next
      refine ⟨freed', later, ?_, rest⟩
      rw [freeFields, if_pos made]
      exact ran
  | case2 field fields str argv notMade inductionHypothesis =>
      rw [madeFor, if_neg notMade] at since
      obtain ⟨freed', later, ran, rest⟩ := inductionHypothesis since
      refine ⟨freed', later, ?_, rest⟩
      rw [freeFields, if_neg notMade]
      exact ran
  | case3 fields argv noPair =>
      rw [madeFor.eq_2 _ _ noPair] at since
      refine ⟨freed, strings, ?_, since⟩
      rw [freeFields.eq_2 _ _ noPair]
      rfl

/-- Between the loops every string that was made is held. -/
theorem balanced_withFields (fields : List Argument) (call : List ModuleString → Nat → Int) :
    Balanced (withFields fields call) := by
  intro strings
  obtain ⟨argv, filled, created, since⟩ := createFields_since (usedFields fields) (.refl strings)
  obtain ⟨freed, later, released, done⟩ := freeFields_since (usedFields fields) argv since
  refine ⟨freed, ?_⟩
  have ran : (withFields fields call).after strings = later := by
    unfold withFields after
    rw [run_bind, created]
    dsimp only
    rw [run_bind, released]
    rfl
  rw [ran]
  exact done

/-- Nothing is made yet when the FFI does not take the id. -/
theorem balanced_streamAdd (foreign : Foreign) (key : Pointer) (place : StreamPlace)
    (fields : List Argument) : Balanced (streamAdd foreign key place fields) := by
  cases place with
  | auto flags => exact (balanced_withFields fields _).bind fun rc strings => rfl
  | «at» id flags =>
      unfold streamAdd
      dsimp only
      cases foreign.newStreamId id with
      | error error => exact fun strings => ⟨[], .refl strings⟩
      | ok sid =>
          refine (balanced_withFields fields _).bind fun rc strings => ?_
          dsimp only
          split
          · cases foreign.streamIdParts sid <;> rfl
          · rfl

end Vkm

open Vkm

variable (foreign : Foreign)

theorem balanced_setClientNameById (id : Nat) (name : Argument) :
    Balanced (setClientNameById foreign id name) := by
  unfold setClientNameById
  cases foreign.ctx with
  | none => exact balanced_pure _
  | some ctx => exact balanced_withString name _

/-- A random key is freed when its text was read. -/
theorem balanced_randomKey (readable : ¬ (VkmCall.randomKey).Leaks foreign) :
    Balanced (randomKey foreign) := by
  unfold randomKey
  cases isCtx : foreign.ctx with
  | none => exact balanced_pure _
  | some ctx =>
      dsimp only
      cases isKey : foreign.randomKey ctx with
      | none => exact balanced_pure _
      | some text =>
          dsimp only
          cases isText : foreign.stringPtrLen text with
          | none => exact absurd ⟨ctx, text, isCtx, isKey, isText⟩ readable
          | some result =>
              intro strings
              exact ⟨_, (Ledger.Since.refl strings).make.release⟩

/-- A random key whose text cannot be read stays. -/
theorem randomKey_leaves (leaks : (VkmCall.randomKey).Leaks foreign) (strings : Ledger) :
    (randomKey foreign).after strings = strings.make := by
  obtain ⟨ctx, text, isCtx, isKey, isText⟩ := leaks
  unfold randomKey
  simp only [isCtx, isKey, isText]
  rfl

/-- The description of an error is freed when the call failed. -/
theorem after_setModuleUserAclString (ctx user : Pointer) (acl : Bytes) (strings : Ledger) :
    (setModuleUserAclString foreign ctx user acl).after strings =
      match foreign.setModuleUserAclString ctx user acl with
      | (_, none) => strings
      | (rc, some _) => if rc ≠ ok then strings.make.release [strings.made] else strings.make := by
  unfold setModuleUserAclString
  rcases foreign.setModuleUserAclString ctx user acl with ⟨rc, error | text⟩
  · rfl
  · by_cases failed : rc ≠ ok
    · simp only [if_pos failed]
      rfl
    · simp only [if_neg failed]
      rfl

/-- Most wrappers are balanced, and those that may leak are when they do not. -/
theorem VkmCall.balanced (call : VkmCall) (quiet : ¬ call.Leaks foreign) (strings : Ledger) :
    ∃ freed, strings.Since (call.run foreign strings) freed [] := by
  cases call with
  | randomKey => exact balanced_randomKey foreign quiet strings
  | publishMessage ctx channel message => exact balanced_publishWith _ channel message strings
  | publishMessageShard ctx channel message => exact balanced_publishWith _ channel message strings
  | setClientNameById id name => exact balanced_setClientNameById foreign id name strings
  | openKey ctx name mode => exact balanced_withString name _ strings
  | keyExists ctx name => exact balanced_withString name _ strings
  | signalModifiedKey ctx keyname => exact balanced_withString keyname _ strings
  | stringSet key str => exact balanced_withString str _ strings
  | zsetFirstInLexRange key min max =>
      obtain ⟨freed, since⟩ := inLexRangeWith_since (foreign.zsetFirstInLexRange key) min max strings
      exact ⟨freed, by rwa [if_neg (show ¬ (_ ∧ _) from quiet)] at since⟩
  | zsetLastInLexRange key min max =>
      obtain ⟨freed, since⟩ := inLexRangeWith_since (foreign.zsetLastInLexRange key) min max strings
      exact ⟨freed, by rwa [if_neg (show ¬ (_ ∧ _) from quiet)] at since⟩
  | zsetScore key ele =>
      refine (balanced_withElement ele _).bind (fun result strings => ?_) strings
      dsimp only
      split <;> rfl
  | zsetRemove key ele => exact balanced_withElement ele _ strings
  | zsetIncrby key score ele =>
      refine (balanced_withElement ele _).bind (fun result strings => ?_) strings
      dsimp only
      split <;> rfl
  | streamAdd key place fields => exact balanced_streamAdd foreign key place fields strings
  | getModuleUserFromUsername name => exact balanced_withString name _ strings
  | notifyKeyspaceEvent ctx type event key =>
      exact (balanced_withString key _).bind (fun _ _ => rfl) strings
  | setModuleUserAclString ctx user acl =>
      have start := Ledger.Since.refl strings
      simp only [Leaks] at quiet
      simp only [run, after_setModuleUserAclString]
      generalize foreign.setModuleUserAclString ctx user acl = answer at quiet ⊢
      rcases answer with ⟨rc, error | text⟩
      · exact ⟨[], start⟩
      · have failed : rc ≠ ok := by simpa using quiet
        simp only [if_pos failed]
        exact ⟨_, start.make.release⟩

/-- A wrapper that leaks leaves one string. -/
theorem VkmCall.leaves_one (call : VkmCall) (leaks : call.Leaks foreign) (strings : Ledger) :
    ∃ freed object, strings.Since (call.run foreign strings) freed [object] := by
  cases call with
  | zsetFirstInLexRange key min max =>
      obtain ⟨freed, since⟩ := inLexRangeWith_since (foreign.zsetFirstInLexRange key) min max strings
      exact ⟨freed, _, by rwa [if_pos (show _ ∧ _ from leaks)] at since⟩
  | zsetLastInLexRange key min max =>
      obtain ⟨freed, since⟩ := inLexRangeWith_since (foreign.zsetLastInLexRange key) min max strings
      exact ⟨freed, _, by rwa [if_pos (show _ ∧ _ from leaks)] at since⟩
  | randomKey =>
      simp only [run, randomKey_leaves foreign leaks]
      exact ⟨[], _, (Ledger.Since.refl strings).make⟩
  | setModuleUserAclString ctx user acl =>
      simp only [Leaks] at leaks
      simp only [run, after_setModuleUserAclString]
      generalize foreign.setModuleUserAclString ctx user acl = answer at leaks ⊢
      rcases answer with ⟨rc, error | text⟩
      · exact absurd leaks.2 (by simp)
      · have succeeded : ¬ rc ≠ ok := not_not.mpr leaks.1
        simp only [if_neg succeeded]
        exact ⟨[], _, (Ledger.Since.refl strings).make⟩
  | _ => exact leaks.elim

/-- A wrapper frees what it makes or receives, each string once and nothing else, unless it
leaks. -/
theorem vkmCall_balanced_iff (foreign : Foreign) (call : VkmCall) (strings : Ledger)
    (exist : ∀ str ∈ call.handles, str.id < strings.made) :
    (∃ freed, strings.Since (call.run foreign strings) freed [] ∧
      ∀ str ∈ call.handles, str.id ∉ freed) ↔ ¬ call.Leaks foreign := by
  constructor
  · rintro ⟨freed, since, _⟩ leaks
    obtain ⟨freed', object, left⟩ := call.leaves_one foreign leaks strings
    exact List.cons_ne_nil object [] (left.held_unique since).eq_nil
  · intro quiet
    obtain ⟨freed, since⟩ := call.balanced foreign quiet strings
    exact ⟨freed, since, fun str member => since.not_mem (exist str member)⟩

/-- A message that is published under a name given as text leaves the message to the
script, and nothing of the name. -/
theorem published_name_freed :
    ∃ freed, (Ledger.mk 1 []).Since ((VkmCall.publishMessage none (.string (bytes "news"))
        (.handle ⟨0, bytes "text"⟩)).run Foreign.quiet ⟨1, []⟩) freed [] ∧
      ∀ str ∈ [(⟨0, bytes "text"⟩ : ModuleString)], str.id ∉ freed :=
  (vkmCall_balanced_iff Foreign.quiet
    (.publishMessage none (.string (bytes "news")) (.handle ⟨0, bytes "text"⟩)) ⟨1, []⟩
    (by decide)).mpr id

/-- Of the two strings made for the bounds of a range from a text to itself, one is freed. -/
theorem equal_bounds_leak :
    (VkmCall.zsetFirstInLexRange (some 1) (.string (bytes "a")) (.string (bytes "a"))).handles =
        [] ∧
      (VkmCall.zsetFirstInLexRange (some 1) (.string (bytes "a")) (.string (bytes "a"))).run
        Foreign.quiet Ledger.blank = ⟨2, [0]⟩ ∧
      ¬ ∃ freed, Ledger.blank.Since ((VkmCall.zsetFirstInLexRange (some 1) (.string (bytes "a"))
        (.string (bytes "a"))).run Foreign.quiet Ledger.blank) freed [] := by
  refine ⟨rfl, rfl, ?_⟩
  rintro ⟨freed, since⟩
  have released : freed = [0] := since.released.symm
  have all := since.objects.length_eq
  rw [released] at all
  exact absurd all (by decide)

end ValkeyLuajit
